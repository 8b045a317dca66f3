import DialectBridge.ToTsql.Aggregates
import DialectBridge.Proofs.TermEdits
/-!
# The names in converted terms

The functions of Oracle that the rules from Oracle to T-SQL rename in any query, and the names that come
out of this, each with the numbers of its arguments. `HasName gone` says of which names a term is made
when those of `gone` have been replaced. A rule that replaces a function takes one name away
(`replaceCalls_terms`, `replaceCode_terms`).
-/
namespace DialectBridge.ToTsql
open Pattern LexState

/-! ## Names -/

/-- Names and the numbers of arguments that they may have; a word has none. -/
def signatures : List (String × (Nat → Bool)) := [
  ("NVL", (· == 2)), ("NVL2", (· == 3)), ("DECODE", (3 ≤ ·)), ("TRUNC", (· == 1)),
  ("ADD_MONTHS", (· == 2)), ("LAST_DAY", (· == 1)), ("SUBSTR", fun k => k == 2 || k == 3),
  ("INSTR", (· == 2)), ("LENGTH", (· == 1)), ("TO_CHAR", (· == 1)), ("TO_DATE", (· == 1)),
  ("TO_NUMBER", (· == 1)), ("SYSDATE", (· == 0)), ("SYSTIMESTAMP", (· == 0)),
  ("ISNULL", (· == 2)), ("CASE", (· == 0)), ("END", (· == 0)), ("CAST", (· == 1)),
  ("DATE", (· == 0)), ("DATETIME", (· == 0)), ("VARCHAR", (· == 1)), ("DECIMAL", (· == 2)),
  ("DATEADD", (· == 3)), ("MONTH", (· == 0)), ("EOMONTH", (· == 1)), ("SUBSTRING", (· == 3)),
  ("LEN", (· == 1)), ("CHARINDEX", (· == 2))]

def calledFunctions : List String := ["NVL", "NVL2", "DECODE", "CAST", "TRUNC", "ADD_MONTHS",
  "MONTHS_BETWEEN", "LAST_DAY", "TO_CHAR", "TO_DATE", "TO_NUMBER", "SUBSTR", "INSTR", "LENGTHB",
  "LENGTH", "LISTAGG", "MEDIAN"] ++ aggregateNames.map Prod.fst

def soughtWords : List String := ["SYSDATE", "SYSTIMESTAMP", "SYS_GUID", "MINUS", "DUAL", "FETCH",
  "AND", "STRING_AGG", "REGEXP_LIKE", "REGEXP_SUBSTR", "REGEXP_REPLACE", "REGEXP_INSTR",
  "REGEXP_COUNT"]

/-- The names that only a list may have, and not what stands behind it. -/
def listNames : List String := calledFunctions ++ soughtWords

/-- The names that atoms and texts between operands spare. -/
def reservedNames : List String := "ROWNUM" :: listNames

/-- A column, a table or a number: at most one letter, and digits. -/
def IsPlainName (n : Text) : Prop :=
  ∃ d : Text, (∀ c ∈ d, c.isDigit = true) ∧ (n = d ∨ n = 'c' :: d ∨ n = 't' :: d)

/-- A name that a term may have when those of `gone` have been replaced, with the number of its
arguments. -/
def HasName (gone : List String) (n : Text) (k : Nat) : Prop :=
  (IsPlainName n ∧ k = 0) ∨ ∃ e ∈ signatures, e.1.toList = n ∧ e.2 k = true ∧ e.1 ∉ gone

/-- Whether a name may have `k` arguments. -/
def arity (name : String) (k : Nat) : Bool := (signatures.find? (·.1 == name)).any (·.2 k)

/-- Whether a name begins with two characters that are not digits. -/
def beginsInLetters (name : Text) : Bool :=
  name.length ≥ 2 && (name.take 2).all fun a => (Unicode.caseVariants a).all fun c => !c.isDigit

theorem mem_listNames_of_called {name : String} (h : name ∈ calledFunctions) : name ∈ listNames :=
  List.mem_append_left _ h

theorem mem_listNames_of_sought {name : String} (h : name ∈ soughtWords) : name ∈ listNames :=
  List.mem_append_right _ h

theorem mem_reservedNames {name : String} (h : name ∈ listNames) : name ∈ reservedNames :=
  List.mem_cons_of_mem _ h

theorem isName_reservedNames : ∀ n ∈ reservedNames, isName n.toList = true := by decide

theorem beginsInLetters_reservedNames : ∀ n ∈ reservedNames, beginsInLetters n.toList = true := by
  decide

/-- A name with a reserved name is that name, and a function has arguments. -/
theorem eq_of_spelled_signature : ∀ n ∈ reservedNames, ∀ e ∈ signatures, Spelled n.toList e.1.toList →
    e.1 = n ∧ (n ∈ calledFunctions → e.2 0 = false) := by
  decide

theorem find?_of_nodup {β : Type} {l : List (String × β)} (h : (l.map Prod.fst).Nodup) {e : String × β}
    (he : e ∈ l) : l.find? (·.1 == e.1) = some e := by
  induction l with
  | nil => simp at he
  | cons x l ih =>
    rw [List.map_cons, List.nodup_cons] at h
    rcases List.mem_cons.1 he with rfl | he
    · simp
    · have hne : x.1 ≠ e.1 := fun heq => h.1 (heq ▸ List.mem_map_of_mem he)
      simp [hne, ih h.2 he]

section
variable {name : String} {n : Text} {k : Nat} {gone : List String}

theorem isWordChar_of_asciiDigit {c : Char} (h : c.isDigit = true) : Unicode.isWordChar c = true :=
  isWordChar_of_mem_caseVariants (by simp [Char.isAlphanum, h]) (Unicode.self_mem_caseVariants c)

/-- A plain name has a digit where a name has its first or second letter. -/
theorem not_spelled_plainName (hname : beginsInLetters name.toList = true) (hn : IsPlainName n) :
    ¬ Spelled name.toList n := fun h => by
  obtain ⟨a, b, t, hcons⟩ : ∃ a b t, name.toList = a :: b :: t := by
    match hlist : name.toList with
    | [] | [_] => simp [beginsInLetters, hlist] at hname
    | a :: b :: t => exact ⟨a, b, t, rfl⟩
  rw [hcons] at hname h
  simp only [beginsInLetters, List.take_succ_cons, List.take_zero, List.all_cons, Bool.and_eq_true,
    List.all_eq_true, Bool.not_eq_true'] at hname
  obtain ⟨-, hfirst, hsecond, -⟩ := hname
  cases h with
  | @cons _ x _ n hx h =>
    cases h with
    | @cons _ y _ n hy h =>
      obtain ⟨d, hd, rfl | hn | hn⟩ := hn
      · exact absurd (hfirst x hx) (by simp [hd x])
      · obtain ⟨-, rfl⟩ := List.cons.inj hn
        exact absurd (hsecond y hy) (by simp [hd y])
      · obtain ⟨-, rfl⟩ := List.cons.inj hn
        exact absurd (hsecond y hy) (by simp [hd y])

theorem HasName.eq_of_spelled (hname : name ∈ reservedNames) (h : HasName gone n k)
    (hn : Spelled name.toList n) :
    n = name.toList ∧ name ∉ gone ∧ (name ∈ calledFunctions → k ≠ 0) := by
  rcases h with ⟨hplain, -⟩ | ⟨e, he, rfl, hk, hgone⟩
  · exact absurd hn (not_spelled_plainName (beginsInLetters_reservedNames name hname) hplain)
  · obtain ⟨rfl, hzero⟩ := eq_of_spelled_signature name hname e he hn
    refine ⟨rfl, hgone, fun hcalled hk0 => ?_⟩
    rw [hk0, hzero hcalled] at hk
    cases hk

theorem HasName.arity (hname : name ∈ reservedNames) (h : HasName gone name.toList k) : arity name k = true := by
  rcases h with ⟨hplain, -⟩ | ⟨e, he, heq, hk, -⟩
  · exact absurd (spelled_self _) (not_spelled_plainName (beginsInLetters_reservedNames name hname) hplain)
  · obtain rfl := String.toList_inj.1 heq
    rw [ToTsql.arity, find?_of_nodup (by decide) he]
    exact hk

theorem hasName_of_arity (h : arity name k = true) (hgone : name ∉ gone) : HasName gone name.toList k := by
  rw [arity, Option.any_eq_true] at h
  obtain ⟨e, he, hk⟩ := h
  have heq := List.find?_some he
  simp only [beq_iff_eq] at heq
  exact .inr ⟨e, List.mem_of_find?_eq_some he, by rw [heq], hk, by rwa [heq]⟩

/-- A name that no term has. -/
def Missing (gone : List String) (name : String) : Prop := name ∈ gone ∨ ∀ e ∈ signatures, e.1 ≠ name

theorem HasName.not_spelled (hname : name ∈ reservedNames) (hmissing : Missing gone name)
    (h : HasName gone n k) : ¬ Spelled name.toList n := fun hn => by
  obtain ⟨rfl, hleft, -⟩ := h.eq_of_spelled hname hn
  rcases h with ⟨hplain, -⟩ | ⟨e, he, heq, -⟩
  · exact not_spelled_plainName (beginsInLetters_reservedNames name hname) hplain hn
  · exact hmissing.elim hleft fun hnone => hnone e he (String.toList_inj.1 heq)

/-- One name is taken away. -/
theorem HasName.of_ne (h : HasName gone n k) (hne : n ≠ name.toList) : HasName (name :: gone) n k := by
  rcases h with h | ⟨e, he, rfl, hk, hgone'⟩
  · exact .inl h
  · refine .inr ⟨e, he, rfl, hk, fun hmem => ?_⟩
    rcases List.mem_cons.1 hmem with heq | hmem
    · exact hne (by rw [heq])
    · exact hgone' hmem

end

end DialectBridge.ToTsql
