import DialectBridge.Proofs.Operands
/-!
# Texts patched at offsets

A text is patched from left to right: an edit at an offset says what is put in there and where the text goes
on. `Edited` says of two texts, read from a place in code or elsewhere, that the second is the first one patched,
where each part that is taken out or put in is code on its own, begins in a word and opens as many parentheses
as the other. Such texts close their parentheses at the same places (`Edited.close`).
-/
namespace DialectBridge
open Pattern Text LexState

/-- The text from offset `i` on, patched. An edit at an offset gives the offset at which the text goes on and
what is put in up to there. What stands before offset `skip` is passed. -/
def patched (edits : Nat → Option (Nat × Text)) : (skip i : Nat) → Text → Text
  | _, _, [] => []
  | skip, i, c :: t =>
    if i < skip then patched edits skip (i + c.utf8Size) t
    else match edits i with
      | some (stop, r) => r ++ patched edits stop (i + c.utf8Size) t
      | none => c :: patched edits skip (i + c.utf8Size) t

section
variable {E : Nat → Option (Nat × Text)} {s : LexState} {i d e : Nat} {c : Char} {a k r t t' u v x y : Text}

theorem patched_of_le {skip : Nat} (h : skip ≤ i) : patched E skip i t = patched E 0 i t := by
  induction t generalizing i with
  | nil => rfl
  | cons c t ih =>
    have hnext : skip ≤ i + c.utf8Size := by omega
    rw [patched, patched, if_neg (by omega), if_neg (by omega)]
    cases E i with
    | none => rw [ih hnext]
    | some edit => rfl

theorem patched_skip (E : Nat → Option (Nat × Text)) (i : Nat) (a t : Text) :
    patched E (i + width a) i (a ++ t) = patched E 0 (i + width a) t := by
  induction a generalizing i with
  | nil => exact patched_of_le (Nat.le_refl _)
  | cons c a ih =>
    have hpos := c.utf8Size_pos
    rw [List.cons_append, patched, width_cons, if_pos (by omega), ← Nat.add_assoc, ih]

/-- A part of a text is taken out where an edit says so. -/
theorem patched_of_some (hk : k ≠ []) (h : E i = some (i + width k, r)) (t : Text) :
    patched E 0 i (k ++ t) = r ++ patched E 0 (i + width k) t := by
  obtain ⟨c, k, rfl⟩ := List.exists_cons_of_ne_nil hk
  rw [List.cons_append, patched, if_neg (by omega), h]
  have hskip := patched_skip E (i + c.utf8Size) k t
  rw [Nat.add_assoc, ← width_cons] at hskip
  exact congrArg (r ++ ·) hskip

/-! ## Parts that can be exchanged -/

/-- A part of a query that begins in a word and ends in code. -/
structure Part (k : Text) : Prop where
  begins : beginsInWord k = true
  code : code.after k = code

theorem exists_cons_of_beginsInWord (h : beginsInWord t = true) :
    ∃ c u, t = c :: u ∧ Unicode.isWordChar c = true := by
  cases t with
  | nil => exact absurd h (by decide)
  | cons c u => exact ⟨c, u, rfl, h⟩

theorem Part.ne_nil (h : Part k) : k ≠ [] := by
  obtain ⟨c, u, rfl, -⟩ := exists_cons_of_beginsInWord h.begins
  simp

theorem joins_of_beginsInWord (hs : s.live = true) (ht : beginsInWord t = true) : s.joins t = true := by
  obtain ⟨c, u, rfl, hc⟩ := exists_cons_of_beginsInWord ht
  exact joins_of_live hs (isPlain_of_isWordChar hc)

theorem Part.joins (h : Part k) (hs : s.live = true) (t : Text) : s.joins (k ++ t) = true :=
  joins_of_beginsInWord hs (by rw [beginsInWord_append h.ne_nil]; exact h.begins)

theorem Part.after (h : Part k) (hs : s.live = true) : s.after k = LexState.code := by
  rw [after_of_joins (joins_of_beginsInWord hs h.begins) h.ne_nil, h.code]

theorem Part.maskFrom (h : Part k) (hs : s.live = true) (t : Text) : maskFrom s (k ++ t) = mask k ++ mask t := by
  rw [maskFrom_of_joins (h.joins hs t), maskFrom_code, mask_append (by rw [h.code]; exact joins_code t)]

/-- The second text is the first one, read from state `s` and offset `i` on, with edits. -/
inductive Edited (E : Nat → Option (Nat × Text)) : LexState → Nat → Text → Text → Prop
  | nil (s : LexState) (i : Nat) : Edited E s i [] []
  | keep {s : LexState} {i : Nat} {c : Char} {t t' : Text} :
    E i = none → Edited E (s.step c) (i + c.utf8Size) t t' → Edited E s i (c :: t) (c :: t')
  | swap {s : LexState} {i e : Nat} {k r t t' : Text} :
    E i = some (i + width k, r) → s.live = true → Part k → Part r →
      nest 0 (mask k) = some e → nest 0 (mask r) = some e →
      Edited E .code (i + width k) t t' → Edited E s i (k ++ t) (r ++ t')

theorem Edited.eq_patched (h : Edited E s i t t') : t' = patched E 0 i t := by
  induction h with
  | nil => rfl
  | keep hE _ ih => rw [patched, if_neg (by omega), hE, ← ih]
  | swap hE _ hk _ _ _ _ ih => rw [patched_of_some hk.ne_nil hE, ← ih]

theorem Edited.keep_append (hE : ∀ j, i ≤ j → j < i + width a → E j = none)
    (h : Edited E (s.after a) (i + width a) t t') : Edited E s i (a ++ t) (a ++ t') := by
  induction a generalizing s i with
  | nil => exact h
  | cons c a ih =>
    have hpos := c.utf8Size_pos
    rw [width_cons] at hE
    refine .keep (hE i (by omega) (by omega)) (ih (fun j hij hj => hE j (by omega) (by omega)) ?_)
    rwa [width_cons, ← Nat.add_assoc] at h

/-- A text is itself, with no edits. -/
theorem edited_self (s : LexState) (i : Nat) (t : Text) : Edited (fun _ => none) s i t t := by
  have h : Edited (fun _ => none) s i (t ++ []) (t ++ []) := .keep_append (fun _ _ _ => rfl) (.nil _ _)
  rwa [List.append_nil] at h

/-- The two texts begin alike, up to the first edit; and from any place before it on, one is the other with edits. -/
theorem Edited.exists_kept (h : Edited E s i t t') :
    ∃ a o o', t = a ++ o ∧ t' = a ++ o' ∧
      (∀ x y, a = x ++ y → Edited E (s.after x) (i + width x) (y ++ o) (y ++ o')) ∧
      (o = [] ∧ o' = [] ∨ E (i + width a) ≠ none ∧ (s.after a).live = true ∧ beginsInWord o = true ∧
        beginsInWord o' = true) := by
  induction h with
  | nil s i =>
    refine ⟨[], [], [], rfl, rfl, ?_, .inl ⟨rfl, rfl⟩⟩
    intro x y hxy
    obtain ⟨rfl, rfl⟩ := List.append_eq_nil_iff.1 hxy.symm
    exact .nil _ _
  | @keep s i c t t' hE h ih =>
    obtain ⟨a, o, o', rfl, rfl, hedited, hbehind⟩ := ih
    rw [Nat.add_assoc, ← width_cons] at hbehind
    refine ⟨c :: a, o, o', rfl, rfl, ?_, hbehind⟩
    intro x y hxy
    cases x with
    | nil =>
      obtain rfl : c :: a = y := hxy
      exact .keep hE h
    | cons d x =>
      obtain ⟨rfl, rfl⟩ := List.cons.inj hxy
      rw [width_cons, ← Nat.add_assoc]
      exact hedited x y rfl
  | @swap s i e k r t t' hE hs hk hr hnest hnest' h =>
    have hswap : Edited E s i (k ++ t) (r ++ t') := .swap hE hs hk hr hnest hnest' h
    refine ⟨[], k ++ t, r ++ t', rfl, rfl, ?_, .inr ?_⟩
    · intro x y hxy
      obtain ⟨rfl, rfl⟩ := List.append_eq_nil_iff.1 hxy.symm
      exact hswap
    · rw [beginsInWord_append hk.ne_nil, beginsInWord_append hr.ne_nil]
      exact ⟨by simp [hE], hs, hk.begins, hr.begins⟩

/-- Both texts are empty, or begin with the same character, or with a word. -/
theorem Edited.begins (h : Edited E s i t t') :
    t.head? = t'.head? ∨ beginsInWord t = true ∧ beginsInWord t' = true := by
  cases h with
  | nil => exact .inl rfl
  | keep => exact .inl rfl
  | swap _ _ hk hr =>
    rw [beginsInWord_append hk.ne_nil, beginsInWord_append hr.ne_nil]
    exact .inr ⟨hk.begins, hr.begins⟩

theorem hides_of_beginsInWord (h : beginsInWord t = true) (h' : beginsInWord t' = true) :
    s.hides c t = s.hides c t' := by
  obtain ⟨d, u, rfl, hd⟩ := exists_cons_of_beginsInWord h
  obtain ⟨d', u', rfl, hd'⟩ := exists_cons_of_beginsInWord h'
  have hplain := isPlain_of_isWordChar hd
  have hplain' := isPlain_of_isWordChar hd'
  simp only [isPlain, bne, Bool.and_eq_true, Bool.not_eq_true'] at hplain hplain'
  cases s with
  | quoted q => cases q <;> simp [hides, Quote.char, hplain, hplain']
  | code | minus | slash | closed | line | block | star => simp [hides, beginsComment, hplain, hplain']

/-- In front of the two texts the mask shows the same. -/
theorem Edited.hides_eq (h : Edited E s i t t') (l : LexState) (c : Char) : l.hides c t = l.hides c t' := by
  rcases h.begins with hhead | ⟨ht, ht'⟩
  · have hempty : t.isEmpty = t'.isEmpty := by cases t <;> cases t' <;> simp_all
    cases l <;> simp [hides, beginsComment, hhead, hempty]
  · exact hides_of_beginsInWord ht ht'

/-! ## Where parentheses close -/

/-- Behind `x`, read from state `s`, a parenthesis in code would close the last of `d + 1` open ones. -/
structure Shuts (s : LexState) (d : Nat) (x : Text) : Prop where
  live : (s.after x).live = true
  nested : nest d (maskFrom s x) = some 0

/-- No parenthesis of `x` closes the last of `d + 1` open ones. -/
def Unshut (s : LexState) (d : Nat) (x : Text) : Prop := ∀ u v, maskFrom s x = u ++ ')' :: v → nest d u ≠ some 0

/-- The parenthesis that closes what is open stands behind what closes nothing of it. -/
theorem exists_behind {g m : Text} (hg : nest d g = some e) (hu : nest d u = some 0) (h : g ++ m = u ++ ')' :: v) :
    ∃ u', m = u' ++ ')' :: v ∧ nest e u' = some 0 := by
  rcases List.append_eq_append_iff.1 h with ⟨u', rfl, hm⟩ | ⟨w, rfl, hw⟩
  · rw [nest_append, hg] at hu
    exact ⟨u', hm, hu⟩
  · rw [nest_append, hu] at hg
    cases w with
    | nil =>
      obtain rfl : e = 0 := (Option.some.inj hg).symm
      exact ⟨[], hw.symm, rfl⟩
    | cons c w =>
      obtain rfl : ')' = c := (List.cons.inj hw).1
      exact absurd hg (by simp [nest])

theorem nest_glance (s : LexState) (d : Nat) (c : Char) (t : Text) :
    (∃ e, nest d (s.glance c t) = some e) ∨ s.hides c t = false ∧ c = ')' ∧ d = 0 := by
  rw [glance]
  split_ifs with hhide
  · have hspace : ∀ x ∈ spaces c.utf8Size, x = ' ' := fun x => List.eq_of_mem_replicate
    exact .inl ⟨d, nest_of_not_mem (fun h => absurd (hspace _ h) (by decide)) (fun h => absurd (hspace _ h) (by decide)) d⟩
  · by_cases hopen : c = '('
    · exact .inl ⟨d + 1, by simp [nest, hopen]⟩
    by_cases hclose : c = ')'
    · cases d with
      | zero => exact .inr ⟨by simpa using hhide, hclose, rfl⟩
      | succ d => exact .inl ⟨d, by simp [nest, hclose]⟩
    · exact .inl ⟨d, by simp [nest, hopen, hclose]⟩

theorem Shuts.cons (h : Shuts (s.step c) e x) (hc : nest d (s.glance c (x ++ ')' :: y)) = some e) :
    Shuts s d (c :: x) := by
  have hjoins : ((s.step c).after x).joins (')' :: y) = true := joins_of_live h.live (by decide)
  refine ⟨h.live, ?_⟩
  rw [glance, hides_append hjoins] at hc
  rw [maskFrom_cons, nest_append, glance, hc]
  exact h.nested

theorem Unshut.cons (h : Unshut (s.step c) e t) (hc : nest d (s.glance c t) = some e) : Unshut s d (c :: t) := by
  intro u v hmask hu
  obtain ⟨u', hmask', hu'⟩ := exists_behind hc hu hmask
  exact h u' v hmask' hu'

theorem Shuts.part (hk : Part k) (hs : s.live = true) (hnest : nest 0 (mask k) = some e) (h : Shuts code (d + e) x) :
    Shuts s d (k ++ x) := by
  refine ⟨by rw [after_append, hk.after hs]; exact h.live, ?_⟩
  have hadd := nest_add hnest d
  rw [Nat.zero_add, Nat.add_comm] at hadd
  rw [hk.maskFrom hs, nest_append, hadd, ← maskFrom_code]
  exact h.nested

theorem Unshut.part (hk : Part k) (hs : s.live = true) (hnest : nest 0 (mask k) = some e) (h : Unshut code (d + e) t) :
    Unshut s d (k ++ t) := by
  intro u v hmask hu
  have hadd := nest_add hnest d
  rw [Nat.zero_add, Nat.add_comm] at hadd
  rw [hk.maskFrom hs] at hmask
  obtain ⟨u', hmask', hu'⟩ := exists_behind hadd hu hmask
  exact h u' v (by rw [maskFrom_code, hmask']) hu'

/-- What is open is closed in both texts, with the same edits before and behind, or in none of them. -/
theorem Edited.close (h : Edited E s i t t') (d : Nat) :
    (∃ x y x' y', t = x ++ ')' :: y ∧ t' = x' ++ ')' :: y' ∧ Edited E s i x x' ∧
      Edited E code (i + width x + 1) y y' ∧ Shuts s d x ∧ Shuts s d x') ∨ Unshut s d t ∧ Unshut s d t' := by
  induction h generalizing d with
  | nil s i => exact .inr ⟨by simp [Unshut], by simp [Unshut]⟩
  | @keep s i c t t' hE h ih =>
    have hglance : s.glance c t' = s.glance c t := by rw [glance, glance, h.hides_eq]
    rcases nest_glance s d c t with ⟨e, he⟩ | ⟨hshown, rfl, rfl⟩
    · rcases ih e with ⟨x, y, x', y', rfl, rfl, hx, hy, hshut, hshut'⟩ | ⟨ht, ht'⟩
      · refine .inl ⟨c :: x, y, c :: x', y', rfl, rfl, .keep hE hx, ?_, hshut.cons he, hshut'.cons (hglance ▸ he)⟩
        rwa [width_cons, ← Nat.add_assoc]
      · exact .inr ⟨ht.cons he, ht'.cons (hglance ▸ he)⟩
    · -- the parenthesis itself is kept
      have hjoins : s.joins (')' :: t) = true := joins_of_hides_eq_false (by decide) hshown
      have hclose : ')'.utf8Size = 1 := by decide
      have hlive := live_of_joins hjoins (by decide)
      rw [step_of_joins hjoins, hclose] at h
      exact .inl ⟨[], t, [], t', rfl, rfl, .nil s i, h, ⟨hlive, rfl⟩, ⟨hlive, rfl⟩⟩
  | @swap s i e k r t t' hE hs hk hr hnest hnest' h ih =>
    rcases ih (d + e) with ⟨x, y, x', y', rfl, rfl, hx, hy, hshut, hshut'⟩ | ⟨ht, ht'⟩
    · refine .inl ⟨k ++ x, y, r ++ x', y', by simp, by simp, .swap hE hs hk hr hnest hnest' hx, ?_,
        .part hk hs hnest hshut, .part hr hs hnest' hshut'⟩
      rwa [width_append, ← Nat.add_assoc]
    · exact .inr ⟨.part hk hs hnest ht, .part hr hs hnest' ht'⟩

theorem Shuts.not_unshut (h : Shuts s d x) (y : Text) : ¬ Unshut s d (x ++ ')' :: y) := by
  intro hunshut
  have hclose : isPlain ')' = true := by decide
  refine hunshut (maskFrom s x) (mask y) ?_ h.nested
  rw [maskFrom_append (joins_of_live h.live hclose), maskFrom_code, mask_cons_of_isPlain hclose]

theorem Edited.unshut_iff (h : Edited E s i t t') : Unshut s d t ↔ Unshut s d t' := by
  rcases h.close d with ⟨x, y, x', y', rfl, rfl, -, -, hshut, hshut'⟩ | ⟨ht, ht'⟩
  · exact ⟨fun hunshut => absurd hunshut (hshut.not_unshut y), fun hunshut => absurd hunshut (hshut'.not_unshut y')⟩
  · exact ⟨fun _ => ht', fun _ => ht⟩

end

end DialectBridge
