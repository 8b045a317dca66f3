import DialectBridge.Proofs.BlockCuts
import DialectBridge.ToOracle.Clauses
/-!
# Putting in a `FROM`

What a query shows after `FROM DUAL` has been put in at some places, read as tokens. A heading that
stood in the query still stands in it (`Inserted.forward`), no new one comes up
(`Inserted.backward`), and its block gets a `FROM` just if the place is in code and belongs to the
surface of the block. `complete_insertAll_iff` says this of all the insertions together.
-/
namespace DialectBridge.ToOracle
open Pattern

def IsSelect (p : Text) : Prop := Spelled "SELECT".toList p

instance (p : Text) : Decidable (IsSelect p) :=
  inferInstanceAs (Decidable (Spelled "SELECT".toList p))

/-- Whether the block with the given tokens has a `FROM` outside of its parentheses. -/
def HasFrom (ts : List Text) : Prop := ∃ w ∈ surface 0 ts, Spelled "FROM".toList w

/-- Every `SELECT` in code has a `FROM` between it and the end of its block. -/
def Complete (sql : Text) : Prop :=
  ∀ ps s qs, tokens (mask sql) = ps ++ s :: qs → IsSelect s → HasFrom qs

/-! ## Insertions among tokens -/

theorem hasFrom_append_of_walk {ps : List Text} {k : Nat} (h : walk 0 ps = some k)
    (qs : List Text) :
    HasFrom (ps ++ qs) ↔ HasFrom ps ∨ ∃ w ∈ surface k qs, Spelled "FROM".toList w := by
  rw [HasFrom, surface_append h]
  simp [HasFrom, or_and_right, exists_or]

theorem hasFrom_append_of_walk_eq_none {ps : List Text} (h : walk 0 ps = none) (qs : List Text) :
    HasFrom (ps ++ qs) ↔ HasFrom ps := by
  rw [HasFrom, surface_append_of_none h]
  rfl

/-- What becomes of the tokens of a text, cut in two, when `FROM DUAL` is put in at the cut. It may
run into a word, such as a set operator; where it is not code it is lost, and with it what a quote
shows at the end of the text. -/
inductive Inserted (l r : List Text) : Bool → List Text → Prop where
  | apart : Inserted l r true (l ++ "FROM".toList :: "DUAL".toList :: r)
  | joined {o : Text} {r' : List Text} : r = o :: r' → (∀ c ∈ o, Unicode.isWordChar c = true) →
      ¬ IsSelect o → Inserted l r true (l ++ "FROM".toList :: ("DUAL".toList ++ o) :: r')
  | hidden {t e : List Text} : l ++ r = t ++ e → (e = [] ∨ r = [] ∧ ∃ q : Quote, e = [[q.char]]) →
      Inserted l r false t

theorem isOther_from : IsOther "FROM".toList := isOther_of_ne (by decide) (by decide) (by decide)

theorem isOther_dual : IsOther "DUAL".toList := isOther_of_ne (by decide) (by decide) (by decide)

theorem isSetOperator_dual_append (o : Text) : isSetOperator ("DUAL".toList ++ o) = false := by
  by_contra h
  rw [Bool.not_eq_false] at h
  exact absurd (head_of_isSetOperator h) (by decide)

theorem isOther_dual_append (o : Text) : IsOther ("DUAL".toList ++ o) := by
  refine isOther_of_ne ?_ ?_ (isSetOperator_dual_append o) <;>
  · intro h
    have := congrArg List.head? h
    simp at this

/-- A quote counts for nothing. -/
theorem hasFrom_append_quote (ts : List Text) (q : Quote) :
    HasFrom (ts ++ [[q.char]]) ↔ HasFrom ts := by
  have hother : IsOther [q.char] := by
    cases q <;> exact isOther_of_ne (by decide) (by decide) (by decide)
  have hspelled : ¬ Spelled "FROM".toList [q.char] := by cases q <;> decide
  cases hw : walk 0 ts with
  | none => exact hasFrom_append_of_walk_eq_none hw _
  | some k =>
    rw [hasFrom_append_of_walk hw, surface_other hother]
    split_ifs
    · simp only [surface, List.mem_singleton, exists_eq_left, hspelled, or_false]
    · simp only [surface, List.not_mem_nil, false_and, exists_false, or_false]

/-- A block into which a `FROM` is put has one if it had one before, or if the place belongs to
its surface. -/
theorem Inserted.hasFrom {l r t : List Text} {live : Bool} (h : Inserted l r live t)
    (hl : live = true) : HasFrom t ↔ HasFrom (l ++ r) ∨ walk 0 l = some 0 := by
  have hfrom : Spelled "FROM".toList "FROM".toList := by decide
  cases hw : walk 0 l with
  | none =>
    have hiff : ∀ qs, HasFrom (l ++ qs) ↔ HasFrom l := hasFrom_append_of_walk_eq_none hw
    cases h with
    | apart => simp [hiff]
    | joined ho hword hselect => simp [hiff]
    | hidden he hq => simp at hl
  | some k =>
    by_cases hk : k = 0
    · -- the new `FROM` itself is on the surface
      subst hk
      refine ⟨fun _ => .inr rfl, fun _ => ?_⟩
      cases h with
      | apart =>
        rw [hasFrom_append_of_walk hw, surface_other isOther_from]
        exact .inr ⟨_, by simp, hfrom⟩
      | joined ho hword hselect =>
        rw [hasFrom_append_of_walk hw, surface_other isOther_from]
        exact .inr ⟨_, by simp, hfrom⟩
      | hidden he hq => simp at hl
    · have hnot : ¬ (some k = some 0) := by simpa using hk
      cases h with
      | apart =>
        rw [hasFrom_append_of_walk hw, hasFrom_append_of_walk hw, surface_other isOther_from,
          surface_other isOther_dual]
        simp [hk]
      | @joined o r' ho hword hselect =>
        have hother : through k o = some k := by
          have h1 : o ≠ ['('] := by rintro rfl; exact absurd (hword '(' (by simp)) (by decide)
          have h2 : o ≠ [')'] := by rintro rfl; exact absurd (hword ')' (by simp)) (by decide)
          simp [through, h1, h2, hk]
        rw [ho, hasFrom_append_of_walk hw, hasFrom_append_of_walk hw, surface_other isOther_from,
          surface_other (isOther_dual_append o)]
        simp [surface, hother, hk]
      | hidden he hq => simp at hl

/-- Where nothing is shown, nothing changes for a block. -/
theorem hasFrom_of_hidden {t e : List Text} (he : e = [] ∨ ∃ q : Quote, e = [[q.char]]) :
    HasFrom (t ++ e) ↔ HasFrom t := by
  rcases he with rfl | ⟨q, rfl⟩
  · simp
  · exact hasFrom_append_quote t q

/-! ## The headings before and after an insertion -/

theorem not_isSelect_dual_append (o : Text) : ¬ IsSelect ("DUAL".toList ++ o) := by
  intro hs
  have hs : Spelled ('S' :: "ELECT".toList) ('D' :: ("UAL".toList ++ o)) := hs
  cases hs with
  | cons hd _ => exact absurd hd (by decide)

theorem not_isSelect_quote (q : Quote) : ¬ IsSelect [q.char] := by cases q <;> decide

/-- How the place of a heading `ps` before and `ps'` after relates to an insertion at `l`: both
stand before it, or both behind it. -/
def SameSide (l ps ps' : List Text) : Prop :=
  (ps' = ps ∧ ps.length < l.length) ∨ (l.length ≤ ps.length ∧ l.length ≤ ps'.length)

theorem append_eq_append_cons {l r ps qs : List Text} {s : Text} (h : l ++ r = ps ++ s :: qs) :
    (∃ m, l = ps ++ s :: m ∧ qs = m ++ r) ∨ ∃ as, ps = l ++ as ∧ r = as ++ s :: qs := by
  rcases List.append_eq_append_iff.1 h with ⟨as, hps, hr⟩ | ⟨as, hl, hr⟩
  · exact .inr ⟨as, hps, hr⟩
  · cases as with
    | nil => exact .inr ⟨[], by simpa using hl.symm, by simpa using hr.symm⟩
    | cons a as =>
      obtain ⟨rfl, rfl⟩ := List.cons.inj hr
      exact .inl ⟨as, hl, rfl⟩

/-- What stands before a heading is not touched by an insertion behind it. -/
theorem Inserted.of_cons {ps m r t : List Text} {s : Text} {live : Bool} (hs : IsSelect s)
    (h : Inserted (ps ++ s :: m) r live t) :
    ∃ qs', t = ps ++ s :: qs' ∧ Inserted m r live qs' := by
  cases h with
  | apart => exact ⟨_, by simp, .apart⟩
  | joined ho hword hselect => exact ⟨_, by simp, .joined ho hword hselect⟩
  | @hidden t e he hq =>
    have hq' := hq
    rcases hq with rfl | ⟨rfl, q, rfl⟩
    · exact ⟨m ++ r, by simpa using he.symm, .hidden (List.append_nil _).symm hq'⟩
    · rw [List.append_nil] at he
      rcases append_eq_append_cons he.symm with ⟨m', rfl, rfl⟩ | ⟨as, rfl, hr⟩
      · exact ⟨m', rfl, .hidden (List.append_nil _) hq'⟩
      · obtain ⟨rfl, -⟩ : as = [] ∧ _ := by
          cases as <;> simp at hr
          exact ⟨rfl, hr⟩
        obtain ⟨rfl, -⟩ := List.cons.inj hr
        exact absurd hs (not_isSelect_quote q)

theorem Inserted.hasFrom_iff {m r qs : List Text} {live : Bool} (h : Inserted m r live qs) :
    HasFrom qs ↔ HasFrom (m ++ r) ∨ live = true ∧ walk 0 m = some 0 := by
  cases live with
  | true => simpa using h.hasFrom rfl
  | false =>
    cases h with
    | @hidden t e he hq =>
      rw [he, hasFrom_of_hidden (hq.imp id And.right)]
      simp

/-- A heading is still there after an insertion. -/
theorem Inserted.forward {l r t ps qs : List Text} {s : Text} {live : Bool}
    (h : Inserted l r live t) (hs : IsSelect s) (hsplit : l ++ r = ps ++ s :: qs) :
    ∃ ps' qs', t = ps' ++ s :: qs' ∧ SameSide l ps ps' ∧
      (HasFrom qs' ↔ HasFrom qs ∨ live = true ∧ ∃ m, l = ps ++ s :: m ∧ walk 0 m = some 0) := by
  rcases append_eq_append_cons hsplit with ⟨m, rfl, rfl⟩ | ⟨as, rfl, hr⟩
  · obtain ⟨qs', ht, hins⟩ := h.of_cons hs
    refine ⟨ps, qs', ht, .inl ⟨rfl, by simp⟩, ?_⟩
    rw [hins.hasFrom_iff]
    simp
  · -- the heading stands behind the place
    have hlen : l.length ≤ (l ++ as).length := by simp
    have hnot : ¬ ∃ m, l = l ++ as ++ s :: m ∧ walk 0 m = some 0 := by
      rintro ⟨m, hm, -⟩
      have := congrArg List.length hm
      simp at this
    simp only [hnot, and_false, or_false]
    cases h with
    | apart =>
      exact ⟨l ++ "FROM".toList :: "DUAL".toList :: as, qs, by simp [hr],
        .inr ⟨hlen, by simp⟩, Iff.rfl⟩
    | @joined o r' ho hword hselect =>
      rw [hr] at ho
      cases as with
      | nil =>
        obtain ⟨rfl, -⟩ := List.cons.inj ho
        exact absurd hs hselect
      | cons a as =>
        obtain ⟨rfl, rfl⟩ := List.cons.inj ho
        exact ⟨l ++ "FROM".toList :: ("DUAL".toList ++ a) :: as, qs, by simp,
          .inr ⟨hlen, by simp⟩, Iff.rfl⟩
    | @hidden t e he hq =>
      rcases hq with rfl | ⟨rfl, -⟩
      · exact ⟨l ++ as, qs, by rw [← List.append_nil t, ← he, hr, List.append_assoc],
          .inr ⟨hlen, hlen⟩, Iff.rfl⟩
      · simp at hr

/-- A heading after an insertion was there before. -/
theorem Inserted.backward {l r t ps' qs' : List Text} {s : Text} {live : Bool}
    (h : Inserted l r live t) (hs : IsSelect s) (hsplit : t = ps' ++ s :: qs') :
    ∃ ps qs, l ++ r = ps ++ s :: qs ∧ SameSide l ps ps' ∧
      (HasFrom qs' ↔ HasFrom qs ∨ live = true ∧ ∃ m, l = ps ++ s :: m ∧ walk 0 m = some 0) := by
  -- a heading before the place
  have before : ∀ m, l = ps' ++ s :: m →
      ∃ ps qs, l ++ r = ps ++ s :: qs ∧ SameSide l ps ps' ∧
        (HasFrom qs' ↔ HasFrom qs ∨ live = true ∧ ∃ m, l = ps ++ s :: m ∧ walk 0 m = some 0) := by
    rintro m rfl
    obtain ⟨qs, ht, hins⟩ := h.of_cons hs
    rw [hsplit, List.append_cancel_left_eq] at ht
    obtain ⟨-, rfl⟩ := List.cons.inj ht
    refine ⟨ps', m ++ r, by simp, .inl ⟨rfl, by simp⟩, ?_⟩
    rw [hins.hasFrom_iff]
    simp
  -- a heading behind it, with the same tokens behind itself
  have behind : ∀ as, l.length ≤ ps'.length → r = as ++ s :: qs' →
      ∃ ps qs, l ++ r = ps ++ s :: qs ∧ SameSide l ps ps' ∧
        (HasFrom qs' ↔ HasFrom qs ∨ live = true ∧ ∃ m, l = ps ++ s :: m ∧ walk 0 m = some 0) := by
    intro as hlen hr
    refine ⟨l ++ as, qs', by rw [hr, List.append_assoc], .inr ⟨by simp, hlen⟩, ?_⟩
    refine ⟨.inl, fun hor => hor.elim id ?_⟩
    rintro ⟨-, m, hm, -⟩
    have := congrArg List.length hm
    simp at this
  cases h with
  | apart =>
    rcases append_eq_append_cons hsplit with ⟨m, hl, -⟩ | ⟨as, rfl, hr⟩
    · exact before m hl
    · have hlen : l.length ≤ (l ++ as).length := by simp
      match as, hr with
      | [], hr =>
        obtain ⟨rfl, -⟩ := List.cons.inj hr
        exact absurd hs (by decide)
      | [_], hr =>
        obtain ⟨-, hr⟩ := List.cons.inj hr
        obtain ⟨rfl, -⟩ := List.cons.inj hr
        exact absurd hs (by decide)
      | _ :: _ :: as, hr =>
        obtain ⟨-, hr⟩ := List.cons.inj hr
        exact behind as hlen (List.cons.inj hr).2
  | @joined o r' ho hword hselect =>
    rcases append_eq_append_cons hsplit with ⟨m, hl, -⟩ | ⟨as, rfl, hr⟩
    · exact before m hl
    · have hlen : l.length ≤ (l ++ as).length := by simp
      match as, hr with
      | [], hr =>
        obtain ⟨rfl, -⟩ := List.cons.inj hr
        exact absurd hs (by decide)
      | [_], hr =>
        obtain ⟨-, hr⟩ := List.cons.inj hr
        obtain ⟨rfl, -⟩ := List.cons.inj hr
        exact absurd hs (not_isSelect_dual_append o)
      | _ :: _ :: as, hr =>
        obtain ⟨-, hr⟩ := List.cons.inj hr
        refine behind (o :: as) hlen ?_
        rw [ho, (List.cons.inj hr).2]
        rfl
  | @hidden t e he hq =>
    have hfrom : HasFrom (qs' ++ e) ↔ HasFrom qs' := hasFrom_of_hidden (hq.imp id And.right)
    rw [hsplit, List.append_assoc, List.cons_append] at he
    rcases append_eq_append_cons he with ⟨m, hl, -⟩ | ⟨as, rfl, hr⟩
    · exact ⟨ps', qs' ++ e, he, .inl ⟨rfl, by simp [hl]⟩, by simp [hfrom]⟩
    · exact ⟨l ++ as, qs' ++ e, he, .inr ⟨by simp, by simp⟩, by simp [hfrom]⟩

/-! ## Insertions into a query -/

open LexState

def dualBefore : Text := "FROM DUAL "

def dualAtEnd : Text := " FROM DUAL"

/-- Whether `x` can be put in between `a` and `b`: before a clause, or at the end of a block, where
no `SELECT` follows without a blank. -/
structure Gap (x a b : Text) : Prop where
  plain : ∀ c ∈ b.head?, isPlain c = true
  form : (x = dualBefore ∧ (code.after a).live = true ∧ endsInWord (mask a) = false) ∨
    (x = dualAtEnd ∧ (beginsInWord b = false ∨
      (code.after a).live = true ∧ endsInWord (mask a) = false ∧
        ¬ IsSelect (b.takeWhile Unicode.isWordChar)))

theorem Gap.ne_nil {x a b : Text} (h : Gap x a b) : x ≠ [] := by
  rcases h.form with ⟨rfl, -⟩ | ⟨rfl, -⟩ <;> decide

theorem Gap.joins {x a b : Text} (h : Gap x a b) (ha : (code.after a).live = true) :
    (code.after a).joins b = true := joins_of_head?_isPlain ha h.plain

theorem Gap.apart {x a b : Text} (h : Gap x a b) (b' : Text) (hb : beginsInWord b' = beginsInWord b) :
    Apart (mask a) (mask b') := by
  rcases h.form with ⟨-, -, hend⟩ | ⟨-, hbegin | ⟨-, hend, -⟩⟩
  · exact .of_ends hend _
  · exact .of_begins (by rw [beginsInWord_mask, hb, hbegin]) _
  · exact .of_ends hend _

/-- Around a place in code the tokens are those of the two sides. -/
theorem Gap.tokens_eq {x a b : Text} (h : Gap x a b) (ha : (code.after a).live = true) :
    tokens (mask (a ++ b)) = tokens (mask a) ++ tokens (mask b) :=
  tokens_mask_append (h.joins ha) (h.apart b rfl)

/-- Word characters in front of a text that begins in a word prolong its first token. -/
theorem tokens_append_first_word {x b : Text} (hx : ∀ c ∈ x, Unicode.isWordChar c = true)
    (hb : beginsInWord b = true) :
    tokens (x ++ mask b) =
      (x ++ b.takeWhile Unicode.isWordChar) :: tokens (mask (b.dropWhile Unicode.isWordChar)) := by
  have hword : ∀ c ∈ b.takeWhile Unicode.isWordChar, Unicode.isWordChar c = true :=
    List.all_eq_true.1 List.all_takeWhile
  have hne : x ++ b.takeWhile Unicode.isWordChar ≠ [] :=
    List.append_ne_nil_of_right_ne_nil _ (takeWhile_ne_nil_of_beginsInWord hb)
  have hrest : beginsInWord (mask (b.dropWhile Unicode.isWordChar)) = false := by
    rw [beginsInWord_mask, beginsInWord_dropWhile]
  rw [mask_eq_first_word b, ← List.append_assoc, tokens_append (.of_begins hrest _),
    tokens_word hne (List.forall_mem_append.2 ⟨hx, hword⟩)]
  rfl

/-- What an insertion in code shows. -/
theorem Gap.inserted_of_live {x a b : Text} (h : Gap x a b) (ha : (code.after a).live = true) :
    Inserted (tokens (mask a)) (tokens (mask b)) true (tokens (mask (a ++ (x ++ b)))) := by
  rcases h.form with ⟨rfl, -, hend⟩ | ⟨rfl, hback⟩
  · have htokens : tokens dualBefore = ["FROM".toList, "DUAL".toList] := by decide
    rw [mask_plain_between ha (List.all_eq_true.1 (by decide)) (by decide), tokens_append (.of_ends hend _),
      tokens_append (.of_ends (by decide) _), htokens]
    exact .apart
  · have htokens : tokens dualAtEnd = ["FROM".toList, "DUAL".toList] := by decide
    have hbegin : ∀ t, beginsInWord (dualAtEnd ++ t) = false := fun _ => rfl
    rw [mask_plain_between ha (List.all_eq_true.1 (by decide)) (by decide), tokens_append (.of_begins (hbegin _) _)]
    by_cases hb : beginsInWord b = false
    · rw [tokens_append (.of_begins (by rw [beginsInWord_mask, hb]) _), htokens]
      exact .apart
    · -- the insertion runs into a word
      have hselect : ¬ IsSelect (b.takeWhile Unicode.isWordChar) := by
        rcases hback with hback | ⟨-, -, hback⟩
        · exact absurd hback hb
        · exact hback
      have hall : ∀ c ∈ b.takeWhile Unicode.isWordChar, Unicode.isWordChar c = true :=
        List.all_eq_true.1 List.all_takeWhile
      have hbegins : beginsInWord b = true := by simpa using hb
      have hr := tokens_append_first_word (x := []) (by simp) hbegins
      have hdual := tokens_append_first_word (x := "DUAL".toList) (List.all_eq_true.1 (by decide)) hbegins
      have hfrom : tokens " FROM ".toList = ["FROM".toList] := by decide
      have hsplit : dualAtEnd ++ mask b = " FROM ".toList ++ ("DUAL".toList ++ mask b) := rfl
      rw [List.nil_append, List.nil_append] at hr
      rw [hsplit, tokens_append (.of_ends (by decide) _), hdual, hfrom, hr]
      exact .joined rfl hall hselect

/-- An insertion that is not in code shows nothing. -/
theorem Gap.inserted_of_not_live {x a b : Text} (h : Gap x a b)
    (ha : (code.after a).live = false) :
    Inserted (tokens (mask (a ++ b))) [] false (tokens (mask (a ++ (x ++ b)))) := by
  rcases h.form with ⟨-, hlive, -⟩ | ⟨rfl, hbegin | ⟨hlive, -⟩⟩
  · simp [ha] at hlive
  · have hplain : ∀ c ∈ dualAtEnd, isPlain c = true := List.all_eq_true.1 (by decide)
    have hline : '\n' ∉ dualAtEnd := by decide
    have hdull : ∀ c ∈ dualAtEnd, isDull (code.after a) c = true := fun c hc =>
      isDull_of_ne (hplain c hc) (fun h => hline (h ▸ hc)) _
    obtain ⟨e, he, hq⟩ := tokens_mask_dull ha hdull (by decide) h.plain hbegin
    refine .hidden (by rw [List.append_nil, he]) ?_
    exact hq.imp id fun hq => ⟨rfl, hq⟩
  · simp [ha] at hlive

theorem beginsInWord_dualAtEnd (t : Text) : beginsInWord (dualAtEnd ++ t) = false := rfl

theorem takeWhile_dualAtEnd (t : Text) : (dualAtEnd ++ t).takeWhile Unicode.isWordChar = [] := rfl

theorem takeWhile_dualBefore (t : Text) :
    (dualBefore ++ t).takeWhile Unicode.isWordChar = "FROM".toList := by
  have hsplit : dualBefore ++ t = "FROM".toList ++ (' ' :: ("DUAL ".toList ++ t)) := rfl
  rw [hsplit, List.takeWhile_append_of_pos (List.all_eq_true.1 (by decide))]
  rfl

/-- A place stays good when something is put in further right. -/
theorem Gap.of_insert {x y a m b : Text} (hy : Gap y a (m ++ b)) (hx : Gap x (a ++ m) b) :
    Gap y a (m ++ (x ++ b)) := by
  have hdual : x = dualBefore ∨ x = dualAtEnd := hx.form.imp And.left And.left
  cases m with
  | nil =>
    rw [List.append_nil] at hx
    refine ⟨?_, ?_⟩
    · have hplain : ∀ c ∈ x, isPlain c = true := by
        rcases hdual with h | h <;> subst h <;> exact List.all_eq_true.1 (by decide)
      have hne : x ≠ [] := by rcases hdual with h | h <;> subst h <;> decide
      cases x with
      | nil => exact absurd rfl hne
      | cons c x =>
        intro d hd
        obtain rfl : c = d := by simpa using hd
        exact hplain c (by simp)
    · rcases hy.form with hfront | ⟨hy', -⟩
      · exact .inl hfront
      · refine .inr ⟨hy', ?_⟩
        rcases hx.form with ⟨hx', hlive, hend⟩ | ⟨hx', -⟩
        · refine .inr ⟨hlive, hend, ?_⟩
          rw [List.nil_append, hx', takeWhile_dualBefore]
          decide
        · rw [List.nil_append, hx', beginsInWord_dualAtEnd]
          exact .inl rfl
  | cons c m =>
    refine ⟨hy.plain, ?_⟩
    rcases hy.form with hfront | ⟨hy', hbegin | ⟨hlive, hend, hselect⟩⟩
    · exact .inl hfront
    · exact .inr ⟨hy', .inl hbegin⟩
    · refine .inr ⟨hy', .inr ⟨hlive, hend, ?_⟩⟩
      by_cases hlen : ((c :: m).takeWhile Unicode.isWordChar).length = (c :: m).length
      · -- the place further right is inside or at the end of the word that stands here
        have hall : ∀ d ∈ c :: m, Unicode.isWordChar d = true := by
          rw [← (List.takeWhile_prefix Unicode.isWordChar).eq_of_length hlen]
          exact List.all_eq_true.1 List.all_takeWhile
        have hends : endsInWord (mask (a ++ (c :: m))) = true := by
          have hmask := mask_plain_between (b := []) hlive
            (fun d hd => isPlain_of_isWordChar (hall d hd)) (List.cons_ne_nil c m)
          rw [List.append_nil, mask_nil, List.append_nil] at hmask
          rw [hmask, endsInWord_append (by simp), endsInWord_of_all (List.cons_ne_nil c m) hall]
        rcases hx.form with ⟨-, -, hend'⟩ | ⟨hx', hbegin | ⟨-, hend', -⟩⟩
        · simp [hends] at hend'
        · rw [hx', List.takeWhile_append_of_pos hall, takeWhile_dualAtEnd]
          rw [List.takeWhile_append_of_pos hall] at hselect
          cases b with
          | nil => exact hselect
          | cons d b =>
            have hd : Unicode.isWordChar d = false := hbegin
            rwa [List.takeWhile_cons_of_neg (by simp [hd])] at hselect
        · simp [hends] at hend'
      · rw [List.takeWhile_append, if_neg hlen]
        rwa [List.takeWhile_append, if_neg hlen] at hselect

/-! ## All the insertions -/

/-- A place of `t` where the text of an insertion can be put in. -/
def Fits (t : Text) (i : Insertion) : Prop :=
  ∃ a b, t = a ++ b ∧ Text.width a = i.place ∧ Gap i.text a b

/-- An insertion in code, on the surface of the block that `s` heads behind the tokens `ps`. -/
def Reaches (t : Text) (i : Insertion) (ps : List Text) (s : Text) : Prop :=
  ∃ a b m, t = a ++ b ∧ Text.width a = i.place ∧ (code.after a).live = true ∧
    tokens (mask a) = ps ++ s :: m ∧ walk 0 m = some 0

/-- Every block of `t` has a `FROM` or gets one from the insertions `is`. -/
def Covered (t : Text) (is : List Insertion) : Prop :=
  ∀ ps s qs, tokens (mask t) = ps ++ s :: qs → IsSelect s →
    HasFrom qs ∨ ∃ i ∈ is, Reaches t i ps s

theorem covered_nil {t : Text} : Covered t [] ↔ Complete t := by
  simp [Covered, Complete]

theorem Gap.mask_append {y a m b : Text} (h : Gap y a (m ++ b))
    (ha : (code.after a).live = true) : mask (a ++ m) = mask a ++ mask m := by
  cases m with
  | nil => simp [mask_nil]
  | cons c m =>
    have hplain : ∀ d ∈ (c :: m).head?, isPlain d = true := h.plain
    exact DialectBridge.mask_append (joins_of_head?_isPlain ha hplain)

/-- The tokens of a text up to a place are those up to a place further left, and more. -/
theorem Gap.tokens_append {y a m b : Text} (h : Gap y a (m ++ b))
    (ha : (code.after a).live = true) :
    tokens (mask (a ++ m)) = tokens (mask a) ++ tokens (mask m) := by
  rw [h.mask_append ha]
  cases m with
  | nil => simp [mask_nil]
  | cons c m => exact DialectBridge.tokens_append (h.apart _ rfl)

section Step
variable {x a b : Text} {j : Insertion}

theorem Fits.of_insert (hx : Gap x a b) (hle : j.place ≤ Text.width a) (h : Fits (a ++ b) j) :
    Fits (a ++ (x ++ b)) j := by
  obtain ⟨a', b', hab, hw, hj⟩ := h
  obtain ⟨m, rfl, rfl⟩ := Text.exists_of_width_le hab.symm (hw ▸ hle)
  exact ⟨a', m ++ (x ++ b), by simp, hw, hj.of_insert hx⟩

/-- Which insertions reach a heading depends on the text before the place of the insertion only. -/
theorem reaches_append_iff (hle : j.place ≤ Text.width a) {ps : List Text} {s : Text} :
    Reaches (a ++ b) j ps s ↔
      ∃ a' c m, a = a' ++ c ∧ Text.width a' = j.place ∧ (code.after a').live = true ∧
        tokens (mask a') = ps ++ s :: m ∧ walk 0 m = some 0 := by
  constructor
  · rintro ⟨a', b', m, hab, hw, hlive, htokens, hwalk⟩
    obtain ⟨c, rfl, rfl⟩ := Text.exists_of_width_le hab.symm (hw ▸ hle)
    exact ⟨a', c, m, rfl, hw, hlive, htokens, hwalk⟩
  · rintro ⟨a', c, m, rfl, hw, hlive, htokens, hwalk⟩
    exact ⟨a', c ++ b, m, by simp, hw, hlive, htokens, hwalk⟩

/-- A heading behind the place of an insertion is not reached by it. -/
theorem not_reaches_of_le (hle : j.place ≤ Text.width a) (h : Fits (a ++ b) j) {ps : List Text}
    {s : Text} (hps : (tokens (mask a)).length ≤ ps.length) : ¬ Reaches (a ++ b) j ps s := by
  rintro ⟨a', b', m, hab, hw, hlive, htokens, -⟩
  obtain ⟨c, rfl, rfl⟩ := Text.exists_of_width_le hab.symm (hw ▸ hle)
  obtain ⟨a'', b'', hab', hw', hgap⟩ := h
  rw [List.append_assoc] at hab'
  obtain ⟨rfl, rfl⟩ := Text.append_inj_of_width hab' (hw.trans hw'.symm)
  rw [hgap.tokens_append hlive, htokens] at hps
  simp only [List.length_append, List.length_cons] at hps
  omega

/-- An insertion as a cut of the tokens of the query. -/
theorem Gap.exists_inserted (hx : Gap x a b) :
    ∃ l r, tokens (mask (a ++ b)) = l ++ r ∧
      Inserted l r (code.after a).live (tokens (mask (a ++ (x ++ b)))) ∧
      ((code.after a).live = true ∧ l = tokens (mask a) ∨
        (code.after a).live = false ∧ r = []) := by
  cases hlive : (code.after a).live with
  | true => exact ⟨_, _, hx.tokens_eq hlive, hx.inserted_of_live hlive, .inl ⟨rfl, rfl⟩⟩
  | false => exact ⟨_, [], (List.append_nil _).symm, hx.inserted_of_not_live hlive, .inr ⟨rfl, rfl⟩⟩

/-- The next insertion covers the blocks that it reaches. -/
theorem covered_insert_iff {i : Insertion} {is : List Insertion} (hi : i.place = Text.width a)
    (hx : Gap x a b) (his : ∀ j ∈ is, j.place ≤ Text.width a ∧ Fits (a ++ b) j) :
    Covered (a ++ (x ++ b)) is ↔ Covered (a ++ b) (i :: is) := by
  obtain ⟨l, r, htokens, hins, hcut⟩ := hx.exists_inserted
  -- the insertions to come reach a heading as they did before
  have hothers : ∀ {ps qs ps' : List Text} {s : Text}, l ++ r = ps ++ s :: qs →
      SameSide l ps ps' → ((∃ j ∈ is, Reaches (a ++ (x ++ b)) j ps' s) ↔
        ∃ j ∈ is, Reaches (a ++ b) j ps s) := by
    intro ps qs ps' s hsplit hside
    refine exists_congr fun j => and_congr_right fun hj => ?_
    obtain ⟨hle, hfits⟩ := his j hj
    rcases hside with ⟨rfl, -⟩ | ⟨hps, hps'⟩
    · rw [reaches_append_iff hle, reaches_append_iff hle]
    · rcases hcut with ⟨-, rfl⟩ | ⟨-, rfl⟩
      · exact iff_of_false (not_reaches_of_le hle (hfits.of_insert hx hle) hps')
          (not_reaches_of_le hle hfits hps)
      · have := congrArg List.length hsplit
        simp only [List.append_nil, List.length_append, List.length_cons] at this
        omega
  -- and this one reaches what it completes
  have hthis : ∀ {ps : List Text} {s : Text}, Reaches (a ++ b) i ps s ↔
      (code.after a).live = true ∧ ∃ m, l = ps ++ s :: m ∧ walk 0 m = some 0 := by
    intro ps s
    constructor
    · rintro ⟨a', b', m, hab, hw, hlive, ha, hwalk⟩
      obtain ⟨rfl, rfl⟩ := Text.append_inj_of_width hab.symm (hw.trans hi)
      rcases hcut with ⟨-, rfl⟩ | ⟨hdead, -⟩
      · exact ⟨hlive, m, ha, hwalk⟩
      · simp [hlive] at hdead
    · rintro ⟨hlive, m, hl, hwalk⟩
      rcases hcut with ⟨-, rfl⟩ | ⟨hdead, -⟩
      · exact ⟨a, b, m, rfl, hi.symm, hlive, hl, hwalk⟩
      · simp [hlive] at hdead
  have hstatus : ∀ {ps qs ps' qs' : List Text} {s : Text}, l ++ r = ps ++ s :: qs →
      SameSide l ps ps' →
      (HasFrom qs' ↔ HasFrom qs ∨ (code.after a).live = true ∧
        ∃ m, l = ps ++ s :: m ∧ walk 0 m = some 0) →
      ((HasFrom qs' ∨ ∃ j ∈ is, Reaches (a ++ (x ++ b)) j ps' s) ↔
        HasFrom qs ∨ ∃ j ∈ i :: is, Reaches (a ++ b) j ps s) := by
    intro ps qs ps' qs' s hsplit hside hfrom
    rw [hfrom, hothers hsplit hside, ← hthis]
    simp [or_assoc]
  constructor
  · intro h ps s qs hsplit hs
    rw [htokens] at hsplit
    obtain ⟨ps', qs', ht, hside, hfrom⟩ := hins.forward hs hsplit
    exact (hstatus hsplit hside hfrom).1 (h ps' s qs' ht hs)
  · intro h ps' s qs' ht hs
    obtain ⟨ps, qs, hsplit, hside, hfrom⟩ := hins.backward hs ht
    exact (hstatus hsplit hside hfrom).2 (h ps s qs (htokens.trans hsplit) hs)

end Step

/-- Insertions from the right to the left, each at a place of `t` for it. -/
def Ready (t : Text) (is : List Insertion) : Prop :=
  is.Pairwise (fun i j => j.place ≤ i.place) ∧ ∀ i ∈ is, Fits t i

def insertAll (t : Text) (is : List Insertion) : Reporting Text :=
  is.foldlM (fun out i => Text.insert? out i.place i.text) t

/-- The text with all the insertions is complete just if they cover it. -/
theorem complete_insertAll_iff {t : Text} {is : List Insertion} (h : Ready t is) (raised) :
    ∃ out, (insertAll t is).run raised = some (out, raised) ∧ (Complete out ↔ Covered t is) ∧
      Text.width t + is.length ≤ Text.width out := by
  induction is generalizing t with
  | nil => exact ⟨t, rfl, covered_nil.symm, by simp⟩
  | cons i is ih =>
    obtain ⟨hpair, hfits⟩ := h
    obtain ⟨hle, hpair⟩ := List.pairwise_cons.1 hpair
    obtain ⟨a, b, rfl, hw, hgap⟩ := hfits i (by simp)
    have his : ∀ j ∈ is, j.place ≤ Text.width a ∧ Fits (a ++ b) j := fun j hj =>
      ⟨hw ▸ hle j hj, hfits j (by simp [hj])⟩
    obtain ⟨out, hrun, hcomplete, hwidth⟩ := ih (t := a ++ (i.text ++ b))
      ⟨hpair, fun j hj => (his j hj).2.of_insert hgap (his j hj).1⟩
    refine ⟨out, ?_, hcomplete.trans (covered_insert_iff hw.symm hgap his), ?_⟩
    · have hinsert : Text.insert? (a ++ b) i.place i.text = some (a ++ (i.text ++ b)) := by
        rw [← hw, Text.insert?_append]
      have hlift : ((Text.insert? (a ++ b) i.place i.text : Option Text) : Reporting Text).run
          raised = some (a ++ (i.text ++ b), raised) := by
        rw [hinsert]
        rfl
      rw [insertAll, List.foldlM_cons, StateT.run_bind, hlift]
      exact hrun
    · have hpos := Text.width_pos hgap.ne_nil
      simp only [Text.width_append, List.length_cons] at hwidth ⊢
      omega

end DialectBridge.ToOracle
