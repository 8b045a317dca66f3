import DialectBridge.Proofs.CallHeads
import DialectBridge.Proofs.MaskedTokens
/-!
# Replacing calls from right to left

`sweep` is the replacing of calls at a moment when the text `b` at the end is done and the text `a`
in front of it is not. A text without calls is passed (`sweep_append`), such as plain text behind a
place in code (`sweep_plain`). What becomes of a text wherever it stands is `Settles`.
-/
namespace DialectBridge
open Pattern Cursor LexState

variable {σ : Type} {name : Text} {f : Call → Editing σ (Option (Text × Nat))}

/-! ## One round -/

theorem replaceCallsBefore_of_none {limit : Nat} {sql : Text}
    (h : Call.lastBefore? name (mask sql) limit = none) :
    replaceCallsBefore name f limit sql = pure sql := by
  rw [replaceCallsBefore]
  split
  · rfl
  · rename_i m hm
    rw [h] at hm
    cases hm

theorem replaceCallsBefore_of_some {limit : Nat} {sql : Text} {m : Match}
    (h : Call.lastBefore? name (mask sql) limit = some m) :
    replaceCallsBefore name f limit sql =
      (match matchingParen? (mask sql) (m.stop - 1) with
      | none => replaceCallsBefore name f m.start sql
      | some closing => do
        let call ← Call.read? sql (mask sql) m closing
        match ← f call with
        | none => replaceCallsBefore name f m.start sql
        | some (replacement, consumed) => do
          let next ← Text.splice? sql call.start (call.stop + consumed) replacement
          replaceCallsBefore name f m.start next) := by
  rw [replaceCallsBefore]
  split
  · rename_i hm
    rw [h] at hm
    cases hm
  · rename_i m' hm
    rw [h] at hm
    cases hm
    rfl

theorem replaceCallsBefore_congr {i j : Nat} {sql : Text}
    (h : Call.lastBefore? name (mask sql) i = Call.lastBefore? name (mask sql) j) :
    replaceCallsBefore name f i sql = replaceCallsBefore name f j sql := by
  cases hi : Call.lastBefore? name (mask sql) i with
  | none => rw [replaceCallsBefore_of_none hi, replaceCallsBefore_of_none (h ▸ hi)]
  | some m =>
    have hj := h ▸ hi
    rw [replaceCallsBefore_of_some hi, replaceCallsBefore_of_some hj]

/-! ## Passing text without calls -/

/-- The replacing of calls, when `a` is still to be looked at and `b` is done. -/
def sweep (name : Text) (f : Call → Editing σ (Option (Text × Nat))) (a b : Text) : Editing σ Text :=
  replaceCallsBefore name f (Text.width a) (a ++ b)

theorem sweep_nil (b : Text) : sweep name f [] b = pure b := by
  refine replaceCallsBefore_of_none ?_
  rw [Call.lastBefore?, List.find?_eq_none]
  simp

/-- To replace calls is to sweep over the whole text: no head begins at its very end. -/
theorem replaceCallsWithTail_eq_sweep (hname : isName name = true) (sql : Text) :
    replaceCallsWithTail sql name f = sweep name f sql [] := by
  rw [replaceCallsWithTail, sweep, List.append_nil]
  refine replaceCallsBefore_congr (lastBefore?_congr fun m hm => ?_)
  obtain ⟨u, n, b, v, hsplit, -, -, -, hstart, -⟩ := exists_headAt hname hm
  have hwidth := congrArg Text.width hsplit
  have hopen : '('.utf8Size = 1 := by decide
  simp only [width_mask, Text.width_append, Text.width_cons, hopen] at hwidth
  omega

/-- Text in whose mask no word is the name is passed. -/
theorem sweep_append (hname : isName name = true) {a u b : Text}
    (hmask : mask (a ++ (u ++ b)) = mask a ++ (mask u ++ mask b)) (hb : Apart (mask u) b)
    (hu : ∀ p ∈ pieces (mask u), ¬ Spelled name p) :
    sweep name f (a ++ u) b = sweep name f a (u ++ b) := by
  rw [sweep, sweep, List.append_assoc]
  refine replaceCallsBefore_congr (lastBefore?_congr fun m hm => ?_)
  obtain ⟨x, n, k, v, hsplit, hn, hk, hx, hstart, -⟩ := exists_headAt hname hm
  rw [hstart]
  refine ⟨fun hlt => ?_, fun hlt => by rw [Text.width_append]; omega⟩
  by_contra hle
  rw [hmask] at hsplit
  -- the head begins in `u`
  obtain ⟨y, rfl, hrest⟩ := Text.exists_of_width_le hsplit (by rw [width_mask]; omega)
  rw [Text.width_append, width_mask, Text.width_append] at hlt
  obtain ⟨z, hz, hrest⟩ := Text.exists_of_width_le hrest.symm (by rw [width_mask]; omega)
  -- its name is a word of `u`
  have hend : beginsInWord (k ++ '(' :: v) = false := beginsInWord_blanks hk rfl
  obtain ⟨r, rfl, hr⟩ : ∃ r, z = n ++ r ∧ k ++ '(' :: v = r ++ mask b := by
    rcases List.append_eq_append_iff.1 hrest with ⟨c, hz, hr⟩ | ⟨c, hn', hb'⟩
    · exact ⟨c, hz, hr⟩
    have hnil : c = [] := by
      by_contra hc
      have hne : z ≠ [] := by
        rintro rfl
        rw [List.append_nil] at hz
        rw [← hz, width_mask] at hlt
        omega
      have hend : endsInWord (mask u) = true := by
        rw [hz, endsInWord_append hne]
        exact endsInWord_of_all hne fun d hd => hn.isWordChar hname d (by simp [hn', hd])
      have hbegin : beginsInWord (mask b) = true := by
        rw [hb', beginsInWord_append hc]
        obtain ⟨d, c, rfl⟩ := List.exists_cons_of_ne_nil hc
        exact hn.isWordChar hname d (by simp [hn'])
      rw [beginsInWord_mask, hb hend] at hbegin
      exact absurd hbegin (by decide)
    subst hnil
    exact ⟨[], by simpa using hn'.symm, by simpa using hb'.symm⟩
  have hbehind : beginsInWord r = false := by
    by_cases hnil : r = []
    · rw [hnil]
      rfl
    · rw [← beginsInWord_append hnil (mask b), ← hr]
      exact hend
  have hleft : y = [] ∨ endsInWord y = false := by
    refine or_iff_not_imp_left.2 fun hy => ?_
    rwa [endsInWord_append hy] at hx
  have hmem : n ∈ pieces (mask u) := by
    have hapart : Apart y (n ++ r) := by
      rcases hleft with rfl | h
      · exact apart_nil_left _
      · exact .of_ends h _
    rw [hz, pieces_append hapart, pieces_append (.of_begins hbehind n),
      pieces_word (hn.ne_nil hname) (hn.isWordChar hname)]
    simp
  exact hu n hmem hn

/-! ## Texts that settle -/

/-- A place at which a word or a literal can begin. -/
structure Front (a : Text) : Prop where
  code : code.after a = code
  left : endsInWord a = false

/-- A text that can stand behind a word or a literal. -/
structure Behind (b : Text) : Prop where
  plain : ∀ c ∈ b.head?, isPlain c = true
  right : beginsInWord b = false

theorem Front.of_plain {a u : Text} (ha : (LexState.code.after a).live = true)
    (hu : ∀ c ∈ u, isPlain c = true) (hne : u ≠ []) (hend : endsInWord u = false) : Front (a ++ u) := by
  refine ⟨?_, by rwa [endsInWord_append hne]⟩
  rw [after_append, after_of_all_isPlain ha hu hne]

theorem Behind.of_plain {u : Text} (hu : ∀ c ∈ u, isPlain c = true) (hne : u ≠ [])
    (hbegin : beginsInWord u = false) (b : Text) : Behind (u ++ b) := by
  refine ⟨fun c hc => ?_, by rwa [beginsInWord_append hne]⟩
  rw [List.head?_append_of_ne_nil _ hne] at hc
  exact hu c (List.mem_of_head? hc)

theorem mask_between {a t b : Text} (ha : Front a) (ht : (code.after t).live = true) (hb : Behind b) :
    mask (a ++ (t ++ b)) = mask a ++ (mask t ++ mask b) := by
  rw [mask_append (by rw [ha.code]; exact joins_code _), mask_append (joins_of_head?_isPlain ht hb.plain)]

/-- Text without calls is passed down to the beginning. -/
theorem sweep_front (hname : isName name = true) {a : Text} (ha : Front a)
    (hp : ∀ p ∈ pieces (mask a), ¬ Spelled name p) (b : Text) : sweep name f a b = pure (a ++ b) := by
  have hmask : mask ([] ++ (a ++ b)) = mask [] ++ (mask a ++ mask b) := by
    rw [List.nil_append, mask_append (by rw [ha.code]; exact joins_code b), mask_nil, List.nil_append]
  have hends : endsInWord (mask a) = false := by
    rw [endsInWord_mask (by rw [ha.code]; rfl)]
    exact ha.left
  have hpass := sweep_append (f := f) hname hmask (.of_ends hends b) hp
  rwa [List.nil_append, sweep_nil] at hpass

/-- Text without calls is passed from the very end. -/
theorem sweep_behind (hname : isName name = true) {a t b : Text} (ha : Front a) (ht : (code.after t).live = true)
    (hb : Behind b) (hp : ∀ p ∈ pieces (mask b), ¬ Spelled name p) :
    sweep name f (a ++ (t ++ b)) [] = sweep name f (a ++ t) b := by
  have hmask : mask (a ++ t ++ (b ++ [])) = mask (a ++ t) ++ (mask b ++ mask []) := by
    have hlive : (code.after (a ++ t)).live = true := by rwa [after_append, ha.code]
    rw [List.append_nil, mask_append (joins_of_head?_isPlain hlive hb.plain), mask_nil, List.append_nil]
  rw [← List.append_assoc, sweep_append hname hmask (apart_nil_right _) hp, List.append_nil]

/-- Passing `t` replaces it by `t'`, wherever it stands. -/
def Settles (name : Text) (f : Call → Editing σ (Option (Text × Nat))) (t t' : Text) : Prop :=
  ∀ a b, Front a → Behind b → sweep name f (a ++ t) b = sweep name f a (t' ++ b)

theorem settles_self {t : Text} (hname : isName name = true) (ht : (code.after t).live = true)
    (hp : ∀ p ∈ pieces (mask t), ¬ Spelled name p) : Settles name f t t := fun _ _ ha hb =>
  sweep_append hname (mask_between ha ht hb) (.of_begins hb.right _) hp

/-- Plain text behind a place in code is passed. -/
theorem sweep_plain (hname : isName name = true) {a u b : Text} (ha : (code.after a).live = true)
    (hu : ∀ c ∈ u, isPlain c = true) (hne : u ≠ []) (hb : Apart u b)
    (hp : ∀ p ∈ pieces u, ¬ Spelled name p) : sweep name f (a ++ u) b = sweep name f a (u ++ b) := by
  have hmask := mask_of_all_isPlain hu
  refine sweep_append hname ?_ (by rwa [hmask]) (by rwa [hmask])
  rw [mask_plain_between ha hu hne, hmask]

end DialectBridge
