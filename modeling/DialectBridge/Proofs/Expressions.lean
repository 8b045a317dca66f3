import DialectBridge.Proofs.CallRules
/-!
# Expressions and queries made of them

The expressions of Oracle that are converted as a whole, and the queries that list them. An expression is
the text of a good term (`Expression.exists_term`), and what stands behind the list is none of the
business of the rules for calls and words (`isTail_behindList`).
-/
namespace DialectBridge.ToTsql
open Pattern LexState

/-! ## Literals -/

/-- A literal is an atom. -/
theorem isAtom_literal {t : Text} (h : '\'' ∉ t) (hamp : '&' ∉ t) :
    IsAtom reservedNames ('\'' :: (t ++ ['\''])) := by
  have hmask : mask ('\'' :: (t ++ ['\''])) = '\'' :: (Text.spaces (Text.width t) ++ ['\'']) :=
    mask_quoted (q := .single) h
  have hchars : ∀ c ∈ mask ('\'' :: (t ++ ['\''])), c = '\'' ∨ c = ' ' := fun c hc => by
    rw [hmask] at hc
    simp only [Text.spaces, List.mem_cons, List.mem_append, List.mem_replicate, List.not_mem_nil, or_false] at hc
    tauto
  have hafter : code.after ('\'' :: (t ++ ['\''])) = closed .single := after_closed (q := .single) h
  refine ⟨⟨by rw [hafter]; rfl, by simp, fun c hc => ?_, fun c hc => ?_, ?_, ?_⟩, ?_, ?_, ?_⟩
  · obtain rfl : '\'' = c := by simpa using hc
    decide
  · obtain rfl : '\'' = c := by simpa [List.getLast?_cons] using hc
    decide
  · refine nest_of_not_mem (fun hc => ?_) (fun hc => ?_) 0 <;> exact absurd (hchars _ hc) (by decide)
  · refine uncut_of_forall fun c hc => ?_
    rcases hchars c hc with rfl | rfl <;> decide
  · intro p hp n hn hspelled
    have hname := isName_reservedNames n hn
    obtain ⟨c, p, rfl⟩ := List.exists_cons_of_ne_nil (ne_nil_of_mem_pieces hp)
    have hmem : c ∈ mask ('\'' :: (t ++ ['\''])) := by
      rw [← flatten_pieces (mask _)]
      exact List.mem_flatten_of_mem hp (by simp)
    have hword := hspelled.isWordChar hname c (by simp)
    rcases hchars c hmem with rfl | rfl <;> exact absurd hword (by decide)
  · exact fun hc => absurd (hchars _ hc) (by decide)
  · simpa using hamp

/-! ## Expressions -/

/-- The functions in expressions; `signatures` says how many arguments they have. -/
def expressionFunctions : List String := ["NVL", "NVL2", "DECODE", "TRUNC", "ADD_MONTHS", "LAST_DAY", "SUBSTR",
  "INSTR", "LENGTH", "TO_CHAR", "TO_DATE", "TO_NUMBER"]

/-- Expressions of Oracle for which T-SQL has a counterpart. -/
inductive Expression : Text → Prop
  | column {d : Text} : d ≠ [] → (∀ c ∈ d, c.isDigit = true) → Expression ('c' :: d)
  | number {d : Text} : d ≠ [] → (∀ c ∈ d, c.isDigit = true) → Expression d
  | literal {t : Text} : '\'' ∉ t → '&' ∉ t → Expression ('\'' :: (t ++ ['\'']))
  | sysdate : Expression "SYSDATE"
  | systimestamp : Expression "SYSTIMESTAMP"
  | concat {a b : Text} : Expression a → Expression b → Expression (a ++ (" || ".toList ++ b))
  | call {name : String} {args : List Text} : name ∈ expressionFunctions → arity name args.length = true →
      (∀ a ∈ args, Expression a) → Expression (callText name.toList args)

theorem isLink_bars : IsLink reservedNames " || ".toList := by decide

theorem arity_expressionFunctions : ∀ name ∈ expressionFunctions,
    isName name.toList = true ∧ arity name 0 = false ∧ name ∉ ["CAST"] := by
  decide

theorem exists_terms {bars : Bool} {gone : List String} {es : List Text}
    (h : ∀ e ∈ es, ∃ t, IsTerm bars gone t ∧ t.text = e) :
    ∃ ts : List Term, (∀ t ∈ ts, IsTerm bars gone t) ∧ ts.map Term.text = es := by
  induction es with
  | nil => exact ⟨[], by simp, rfl⟩
  | cons e es ih =>
    obtain ⟨t, ht, rfl⟩ := h e (by simp)
    obtain ⟨ts, hts, rfl⟩ := ih fun e he => h e (List.mem_cons_of_mem _ he)
    exact ⟨t :: ts, by simpa using ⟨ht, hts⟩, rfl⟩

/-- An expression is the text of a term. -/
theorem Expression.exists_term {e : Text} (h : Expression e) : ∃ t, IsTerm true ["CAST"] t ∧ t.text = e := by
  induction h with
  | @column d hne hd =>
    refine ⟨.word ('c' :: d), .word ⟨by simp, fun c hc => ?_⟩ (.inl ⟨⟨d, hd, .inr (.inl rfl)⟩, rfl⟩), by simp⟩
    rcases List.mem_cons.1 hc with rfl | hc
    · decide
    · exact isWordChar_of_asciiDigit (hd c hc)
  | number hne hd => exact ⟨_, isTerm_number hne hd, by simp⟩
  | literal hquote hamp => exact ⟨_, .atom (isAtom_literal hquote hamp), by simp⟩
  | sysdate => exact ⟨.word "SYSDATE".toList, isTerm_word rfl (by decide) (by decide), by simp⟩
  | systimestamp => exact ⟨.word "SYSTIMESTAMP".toList, isTerm_word rfl (by decide) (by decide), by simp⟩
  | concat _ _ iha ihb =>
    obtain ⟨t, ht, rfl⟩ := iha
    obtain ⟨u, hu, rfl⟩ := ihb
    exact ⟨.linked t " || ".toList u, .linked ht isLink_bars (.inr ⟨rfl, rfl⟩) hu, by simp⟩
  | @call name args hmem hk _ ih =>
    obtain ⟨hname, hzero, hleft⟩ := arity_expressionFunctions name hmem
    obtain ⟨ts, hts, rfl⟩ := exists_terms ih
    rw [List.length_map] at hk
    refine ⟨.call name.toList ts, isTerm_call hk ?_ hname hleft hts, by simp⟩
    rintro rfl
    rw [List.length_nil, hzero] at hk
    cases hk

/-! ## Queries -/

def IsDigits (d : Text) : Prop := ∀ c ∈ d, c.isDigit = true

def tableHead : Text := " FROM "

def limitHead : Text := " WHERE ROWNUM <= "

/-- The table of a query: `t` and digits. -/
def tableText (table : Text) : Text := tableHead ++ 't' :: table

def limitText : Option Text → Text
  | some n => limitHead ++ n
  | none => []

/-- A query for a list of expressions. -/
def expressionQuery (es : List Text) (table : Text) (limit : Option Text) : Text :=
  selectText es (tableText table ++ limitText limit)

section
variable {names : List String} {a b table : Text} {limit : Option Text}

theorem spares_append (ha : Spares names a) (hb : Spares names b) (h : Apart a b) : Spares names (a ++ b) := by
  intro p hp
  rw [pieces_append h, List.mem_append] at hp
  exact hp.elim (ha p) (hb p)

theorem spares_plainName (hnames : names ⊆ reservedNames) (hword : ∀ c ∈ a, Unicode.isWordChar c = true)
    (ha : IsPlainName a) : Spares names a := by
  intro p hp n hn
  have hne : a ≠ [] := by
    rintro rfl
    simp at hp
  rw [pieces_word hne hword, List.mem_singleton] at hp
  rw [hp]
  exact not_spelled_plainName (beginsInLetters_reservedNames n (hnames hn)) ha

theorem isWordChar_of_isDigits (h : IsDigits a) : ∀ c ∈ a, Unicode.isWordChar c = true := fun c hc =>
  isWordChar_of_asciiDigit (h c hc)

theorem isWordChar_tableName (ht : IsDigits table) : ∀ c ∈ 't' :: table, Unicode.isWordChar c = true := by
  simpa using ⟨(by decide : Unicode.isWordChar 't' = true), isWordChar_of_isDigits ht⟩

theorem endsInWord_tableText (ht : IsDigits table) (a : Text) : endsInWord (a ++ tableText table) = true := by
  rw [tableText, ← List.append_assoc, endsInWord_append (by simp)]
  exact endsInWord_of_all (by simp) (isWordChar_tableName ht)

theorem nest_tableText (ht : IsDigits table) : nest 0 (tableText table) = some 0 := by
  rw [tableText, nest_append, (by decide : nest 0 tableHead = some 0), Option.bind_some]
  exact nest_of_isWordChar_or_isBlank (fun c hc => .inl (isWordChar_tableName ht c hc)) 0

theorem spares_tableText (hnames : names ⊆ reservedNames) (hhead : Spares names tableHead)
    (ht : IsDigits table) : Spares names (tableText table) :=
  spares_append hhead (spares_plainName hnames (isWordChar_tableName ht) ⟨table, ht, .inr (.inr rfl)⟩)
    (.of_ends (by decide) _)

theorem spares_limitText (hnames : names ⊆ reservedNames) (hhead : Spares names limitHead)
    (hl : ∀ n ∈ limit, IsDigits n) : Spares names (limitText limit) := by
  cases limit with
  | none =>
    intro p hp
    simp [limitText] at hp
  | some n =>
    have hn := hl n rfl
    exact spares_append hhead (spares_plainName hnames (isWordChar_of_isDigits hn) ⟨n, hn, .inl rfl⟩)
      (.of_ends (by decide) _)

theorem begins_limitText : beginsInWord (limitText limit) = false := by
  cases limit with
  | none => rfl
  | some n =>
    rw [limitText, beginsInWord_append (by decide)]
    decide

theorem mem_behindList (ht : IsDigits table) (hl : ∀ n ∈ limit, IsDigits n) :
    ∀ c ∈ tableText table ++ limitText limit, c.isDigit = true ∨ c ∈ tableHead ++ ['t'] ++ limitHead := by
  intro c hc
  have hlimit : c ∈ limitText limit → c.isDigit = true ∨ c ∈ limitHead := fun hc => by
    cases limit with
    | none => simp [limitText] at hc
    | some n => exact (List.mem_append.1 hc).elim .inr fun hc => .inl (hl n rfl c hc)
  simp only [tableText, List.mem_append, List.mem_cons] at hc ⊢
  rcases hc with (hc | rfl | hc) | hc
  · tauto
  · simp
  · exact .inl (ht c hc)
  · exact (hlimit hc).imp_right .inr

/-- What stands behind the list is left alone. -/
theorem isTail_behindList (ht : IsDigits table) (hl : ∀ n ∈ limit, IsDigits n) :
    IsTail (tableText table ++ limitText limit) := by
  have hchars := mem_behindList ht hl
  have hlist : listNames ⊆ reservedNames := fun n hn => mem_reservedNames hn
  have hhead : ∀ c ∈ tableHead ++ ['t'] ++ limitHead, isPlain c = true ∧ c ≠ '|' ∧ c ≠ '&' := by decide
  refine ⟨⟨by simp [tableText], fun c hc => ?_, ?_⟩, ?_, fun hc => ?_, fun hc => ?_⟩
  · rcases hchars c hc with hc | hc
    · exact isPlain_of_isWordChar (isWordChar_of_asciiDigit hc)
    · exact (hhead c hc).1
  · intro c hc
    obtain rfl : ' ' = c := by simpa [tableText, tableHead] using hc
    decide
  · exact spares_append (spares_tableText hlist (by decide) ht) (spares_limitText hlist (by decide) hl)
      (.of_begins begins_limitText _)
  · rcases hchars _ hc with hc | hc
    · exact absurd hc (by decide)
    · exact (hhead _ hc).2.1 rfl
  · rcases hchars _ hc with hc | hc
    · exact absurd hc (by decide)
    · exact (hhead _ hc).2.2 rfl

theorem isTail_tableText (ht : IsDigits table) : IsTail (tableText table) := by
  have htail : IsTail (tableText table ++ limitText none) := isTail_behindList ht (by simp)
  rwa [limitText, List.append_nil] at htail

end

end DialectBridge.ToTsql
