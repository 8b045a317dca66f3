import DialectBridge.Proofs.Blocks
/-!
# Nested parentheses

`nest` reads the parentheses of a text from left to right. A text is well-nested if all of them are
closed at its end (`wellNested_iff`). Only the tokens of the text matter (`nest_tokens`), so that a
change to a query can be followed token by token.
-/
namespace DialectBridge

/-- The number of open parentheses behind a text, if none is closed that is not open. -/
def nest : Nat → Text → Option Nat
  | d, [] => some d
  | d, c :: t =>
    if c = '(' then nest (d + 1) t
    else if c = ')' then if d = 0 then none else nest (d - 1) t
    else nest d t

@[simp] theorem nest_nil (d : Nat) : nest d [] = some d := rfl

theorem nest_append (d : Nat) (a b : Text) :
    nest d (a ++ b) = (nest d a).bind fun k => nest k b := by
  induction a generalizing d with
  | nil => rfl
  | cons c a ih =>
    simp only [List.cons_append, nest]
    split_ifs
    · exact ih _
    · rfl
    · exact ih _
    · exact ih _

theorem nest_flatten_append (d : Nat) (ps qs : List Text) :
    nest d (ps ++ qs).flatten = (nest d ps.flatten).bind fun k => nest k qs.flatten := by
  rw [List.flatten_append, nest_append]

theorem nest_open (d : Nat) (t : Text) : nest d ('(' :: t) = nest (d + 1) t := rfl

theorem nest_close (d : Nat) (t : Text) : nest (d + 1) (')' :: t) = nest d t := rfl

/-- What opens nothing and closes nothing can be left out. -/
theorem nest_append_of_neutral {w : Text} (hw : ∀ d, nest d w = some d) (d : Nat) (t : Text) :
    nest d (w ++ t) = nest d t := by
  rw [nest_append, hw, Option.bind_some]

theorem nest_of_not_mem {t : Text} (h1 : '(' ∉ t) (h2 : ')' ∉ t) (d : Nat) : nest d t = some d := by
  induction t with
  | nil => rfl
  | cons c t ih =>
    have hc1 : c ≠ '(' := fun h => h1 (by simp [h])
    have hc2 : c ≠ ')' := fun h => h2 (by simp [h])
    rw [nest, if_neg hc1, if_neg hc2]
    exact ih (fun h => h1 (by simp [h])) fun h => h2 (by simp [h])

theorem nest_of_isWordChar_or_isBlank {t : Text}
    (h : ∀ c ∈ t, Unicode.isWordChar c = true ∨ Unicode.isBlank c = true) (d : Nat) :
    nest d t = some d := by
  refine nest_of_not_mem (fun hm => ?_) (fun hm => ?_) d <;>
  · rcases h _ hm with hc | hc <;> exact absurd hc (by decide)

theorem depth_singleton {c : Char} (h1 : c ≠ '(') (h2 : c ≠ ')') : depth [c] = 0 :=
  depth_of_not_mem (by simpa using Ne.symm h1) (by simpa using Ne.symm h2)

/-- One more open parenthesis stays open. -/
theorem nest_succ {d k : Nat} {t : Text} (h : nest d t = some k) :
    nest (d + 1) t = some (k + 1) := by
  induction t generalizing d with
  | nil =>
    obtain rfl : d = k := by simpa using h
    rfl
  | cons c t ih =>
    rw [nest] at h
    rw [nest]
    by_cases h1 : c = '('
    · rw [if_pos h1] at h ⊢
      exact ih h
    rw [if_neg h1] at h ⊢
    by_cases h2 : c = ')'
    · rw [if_pos h2] at h ⊢
      split_ifs at h with h3
      rw [if_neg (Nat.succ_ne_zero d)]
      have := ih h
      rwa [Nat.sub_add_cancel (Nat.pos_of_ne_zero h3)] at this
    · rw [if_neg h2] at h ⊢
      exact ih h

theorem nest_eq_some {d k : Nat} {t : Text} (h : nest d t = some k) :
    (k : Int) = d + depth t ∧ ∀ u v, t = u ++ v → 0 ≤ (d : Int) + depth u := by
  have hpre : ∀ {d k : Nat} {t : Text}, nest d t = some k → (k : Int) = d + depth t := by
    intro d k t h
    induction t generalizing d with
    | nil =>
      obtain rfl : d = k := by simpa using h
      simp [depth]
    | cons c t ih =>
      rw [nest] at h
      rw [← List.singleton_append, depth_append]
      split_ifs at h with h1 h2 h3
      · have := ih h
        simp only [h1, depth, List.count_singleton] at this ⊢
        simp
        omega
      · have := ih h
        simp only [h2, depth, List.count_singleton] at this ⊢
        simp
        omega
      · rw [ih h, depth_singleton h1 h2]
        omega
  refine ⟨hpre h, ?_⟩
  rintro u v rfl
  rw [nest_append] at h
  obtain ⟨j, hj, -⟩ := Option.bind_eq_some_iff.1 h
  have := hpre hj
  omega

theorem nest_ne_none {d : Nat} {t : Text} (h : ∀ u v, t = u ++ v → 0 ≤ (d : Int) + depth u) :
    nest d t ≠ none := by
  induction t generalizing d with
  | nil => simp
  | cons c t ih =>
    have hstep : ∀ k : Nat, (k : Int) = d + depth [c] → nest k t ≠ none := by
      intro k hk
      refine ih fun u v huv => ?_
      have := h (c :: u) v (by rw [huv]; rfl)
      rw [← List.singleton_append, depth_append] at this
      omega
    rw [nest]
    split_ifs with h1 h2 h3
    · exact hstep _ (by simp [h1, depth])
    · have := h [c] t rfl
      simp [h2, h3, depth] at this
    · refine hstep _ ?_
      simp [h2, depth]
      omega
    · refine hstep _ ?_
      rw [depth_singleton h1 h2]
      simp

theorem nest_add {d k : Nat} {t : Text} (h : nest d t = some k) (i : Nat) :
    nest (d + i) t = some (k + i) := by
  induction i with
  | zero => exact h
  | succ i ih => exact nest_succ ih

/-- What a block goes on through is nested. -/
theorem nest_of_walk {t : Text} {ps : List Text} (hps : ps ⊆ pieces t) {d k : Nat}
    (h : walk d ps = some k) : nest d ps.flatten = some k := by
  induction ps generalizing d with
  | nil => exact h
  | cons p ps ih =>
    obtain ⟨j, hj, hw⟩ := Option.bind_eq_some_iff.1 h
    have hmem : p ∈ pieces t := hps List.mem_cons_self
    have hp : nest d p = some j := by
      rw [through] at hj
      split_ifs at hj with h1 h2 h3 h4
      · rw [h1, ← hj]
        rfl
      · rw [h2, ← hj]
        simp [nest, h3]
      · obtain rfl := Option.some.inj hj
        rcases mem_pieces hmem with ⟨c, rfl⟩ | hword
        · exact nest_of_not_mem (fun hm => h1 (by rw [List.mem_singleton.1 hm]))
            (fun hm => h2 (by rw [List.mem_singleton.1 hm])) d
        · exact nest_of_isWordChar_or_isBlank (fun c hc => .inl (hword c hc)) d
    rw [List.flatten_cons, nest_append, hp, Option.bind_some]
    exact ih (fun q hq => hps (List.mem_cons_of_mem p hq)) hw

/-- A text is well-nested just if nothing is left open or closed too early. -/
theorem wellNested_iff {t : Text} : WellNested t ↔ nest 0 t = some 0 := by
  constructor
  · rintro ⟨hpre, hall⟩
    cases h : nest 0 t with
    | none => exact absurd h (nest_ne_none (by simpa using hpre))
    | some k =>
      have := (nest_eq_some h).1
      obtain rfl : k = 0 := by omega
      rfl
  · intro h
    obtain ⟨hall, hpre⟩ := nest_eq_some h
    exact ⟨fun u v huv => by simpa using hpre u v huv, by simpa using hall.symm⟩

/-- White space does not count. -/
theorem nest_tokens (d : Nat) (t : Text) : nest d (tokens t).flatten = nest d t := by
  have key : ∀ (ps : List Text) (d : Nat),
      nest d (ps.filter (!isBlankText ·)).flatten = nest d ps.flatten := by
    intro ps
    induction ps with
    | nil => exact fun _ => rfl
    | cons p ps ih =>
      intro d
      rw [List.flatten_cons, nest_append]
      cases hp : isBlankText p with
      | true =>
        have hblank := List.all_eq_true.1 hp
        rw [nest_of_not_mem (fun h => absurd (hblank _ h) (by decide)) fun h =>
          absurd (hblank _ h) (by decide)]
        simp [hp, ih]
      | false =>
        simp only [List.filter_cons, hp, Bool.not_false, if_true, List.flatten_cons, nest_append]
        congr 1
        funext k
        exact ih k
  rw [tokens, key, flatten_pieces]

end DialectBridge
