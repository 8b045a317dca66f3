import DialectBridge.Proofs.Matching
/-!
# What a search finds

The matches that `findAll` lists follow one another in the text (`pairwise_findAll`) and are
matches where they start (`exists_of_mem_findAll`). A match that is not listed begins inside one
that is (`mem_findAll_or_exists`); a pattern of which no match begins inside another one is found
wherever it matches (`mem_findAll_iff`).
-/
namespace DialectBridge.Pattern
open Cursor

/-- No match is empty. -/
def Consuming (p : Pattern) : Prop := ∀ u w v, Matches p u w v → w ≠ []

/-- No match begins inside another one. -/
def Isolated (p : Pattern) : Prop :=
  ∀ u a b v, a ≠ [] → b ≠ [] → Matches p u (a ++ b) v →
    ∀ w v', b ++ v = w ++ v' → ¬ Matches p (u ++ a) w v'

variable {p : Pattern}

theorem width_of_matchAt? {u x : Text} {m : Match} (h : p.matchAt? (between u x) = some m) :
    ∃ w v, x = w ++ v ∧ m.first = between u (w ++ v) ∧ m.last = between (u ++ w) v ∧
      m.width = Text.width w := by
  obtain ⟨w, v, rfl, hf, hl, -⟩ := matchAt?_eq_some h
  refine ⟨w, v, rfl, hf, hl, ?_⟩
  simp [Match.width, Match.start, Match.stop, hf, hl]

theorem width_le_of_matchAt? {u x : Text} {m : Match} (h : p.matchAt? (between u x) = some m) :
    m.width ≤ Text.width x := by
  obtain ⟨w, v, rfl, -, -, hw⟩ := width_of_matchAt? h
  simp [hw]

/-! ## The list of matches -/

/-- A match found from a place on is a match at a place behind what is skipped. -/
theorem exists_of_mem_findAllFrom {skip : Nat} {touching middle : Bool} {l r : Text} {m : Match}
    (hs : skip ≤ Text.width r)
    (h : m ∈ p.findAllFrom p.leading? skip touching middle (.of l) r) :
    ∃ a b, r = a ++ b ∧ p.matchAt? (between (l ++ a) b) = some m ∧ skip ≤ Text.width a := by
  induction r generalizing l skip touching middle with
  | nil =>
    have hskip : skip = 0 := by simpa using hs
    refine ⟨[], [], rfl, ?_, by simp [hskip]⟩
    simp only [findAllFrom] at h
    split at h
    · rename_i m' hm
      split at hm
      · simp at hm
      · split at h
        · simp at h
        · rw [List.mem_singleton.1 h, List.append_nil]
          exact hm
    · simp at h
  | cons c r ih =>
    have later : ∀ {skip' : Nat} {touching middle : Bool}, skip' ≤ Text.width r →
        m ∈ p.findAllFrom p.leading? skip' touching middle (.of (l ++ [c])) r →
        ∃ a b, c :: r = a ++ b ∧ p.matchAt? (between (l ++ a) b) = some m ∧
          skip' + c.utf8Size ≤ Text.width a := by
      intro skip' touching middle hs' hm
      obtain ⟨a, b, rfl, hmatch, hle⟩ := ih hs' hm
      exact ⟨c :: a, b, rfl, by simpa using hmatch, by simp; omega⟩
    rw [Text.width_cons] at hs
    cases skip with
    | succ n =>
      rw [findAllFrom, Passed.add_of] at h
      obtain ⟨a, b, hr, hm, hle⟩ := later (by omega) h
      exact ⟨a, b, hr, hm, by omega⟩
    | zero =>
      simp only [findAllFrom, Passed.add_of] at h
      split at h
      · obtain ⟨a, b, hr, hm, -⟩ := later (by simp) h
        exact ⟨a, b, hr, hm, by simp⟩
      · rename_i m' hm'
        have hat : p.matchAt? (between l (c :: r)) = some m' := by
          split at hm'
          · simp at hm'
          · exact hm'
        have hwidth := width_le_of_matchAt? hat
        rw [Text.width_cons] at hwidth
        have here : m = m' → ∃ a b, c :: r = a ++ b ∧
            p.matchAt? (between (l ++ a) b) = some m ∧ 0 ≤ Text.width a :=
          fun he => ⟨[], c :: r, rfl, by simpa [he] using hat, by simp⟩
        split at h
        · split at h
          · obtain ⟨a, b, hr, hm, -⟩ := later (by simp) h
            exact ⟨a, b, hr, hm, by simp⟩
          · rcases List.mem_cons.1 h with h | h
            · exact here h
            · obtain ⟨a, b, hr, hm, -⟩ := later (by simp) h
              exact ⟨a, b, hr, hm, by simp⟩
        · rcases List.mem_cons.1 h with h | h
          · exact here h
          · obtain ⟨a, b, hr, hm, -⟩ := later (by omega) h
            exact ⟨a, b, hr, hm, by simp⟩

/-- What is listed is a match where it starts. -/
theorem exists_of_mem_findAll {t : Text} {m : Match} (h : m ∈ p.findAll t) :
    ∃ u x, t = u ++ x ∧ p.matchAt? (between u x) = some m := by
  obtain ⟨a, b, rfl, hm, -⟩ := exists_of_mem_findAllFrom (l := []) (by simp) h
  exact ⟨a, b, rfl, by simpa using hm⟩

theorem exists_of_findFrom? {l r : Text} {m : Match}
    (h : p.findFrom? p.leading? false (.of l) r = some m) :
    ∃ a b, r = a ++ b ∧ p.matchAt? (between (l ++ a) b) = some m := by
  induction r generalizing l with
  | nil => exact ⟨[], [], rfl, by simpa [findFrom?, between] using h⟩
  | cons c r ih =>
    rw [findFrom?_cons, Option.orElse_eq_or, Option.or_eq_some_iff] at h
    rcases h with h | h
    · exact ⟨[], c :: r, rfl, by simpa [between] using h⟩
    · rw [Passed.add_of] at h
      obtain ⟨a, b, rfl, hm⟩ := ih h.2
      exact ⟨c :: a, b, rfl, by simpa using hm⟩

/-- The first match is a match where it starts. -/
theorem exists_of_find? {t : Text} {m : Match} (h : p.find? t = some m) :
    ∃ u x, t = u ++ x ∧ p.matchAt? (between u x) = some m := by
  obtain ⟨a, b, rfl, hm⟩ := exists_of_findFrom? (l := []) h
  exact ⟨a, b, rfl, by simpa using hm⟩

/-- A match where the text starts is the first one. -/
theorem find?_of_matchAt? {x : Text} {m : Match} (h : p.matchAt? (between [] x) = some m) : p.find? x = some m := by
  have hstart : between [] x = ⟨.nil, x⟩ := rfl
  rw [hstart] at h
  cases x with
  | nil => simpa [find?, findFrom?] using h
  | cons c x => simp [find?, findFrom?, h]

theorem isSome_findFrom? {l a b : Text} (h : (p.matchAt? (between (l ++ a) b)).isSome = true) :
    (p.findFrom? p.leading? false (.of l) (a ++ b)).isSome = true := by
  induction a generalizing l with
  | nil =>
    rw [List.append_nil] at h
    cases b with
    | nil => simpa [findFrom?, between] using h
    | cons c b =>
      obtain ⟨m, hm⟩ := Option.isSome_iff_exists.1 h
      rw [List.nil_append, findFrom?_cons]
      exact Option.isSome_iff_exists.2 ⟨m, by rw [← between, hm]; rfl⟩
  | cons c a ih =>
    rw [List.cons_append, findFrom?_cons, Passed.add_of]
    cases p.matchAt? ⟨.of l, c :: (a ++ b)⟩ with
    | some m => rfl
    | none => exact ih (by simpa using h)

/-- A pattern occurs where it matches. -/
theorem occursIn_of_matches {u w v : Text} (h : Matches p u w v) :
    p.occursIn (u ++ (w ++ v)) = true := by
  obtain ⟨g, g', hw⟩ := h
  exact isSome_findFrom? (l := []) (isSome_matchAt?_iff.2 ⟨w, v, g, g', rfl, hw⟩)

theorem pairwise_findAllFrom {skip : Nat} {touching middle : Bool} {l r : Text}
    (hs : skip ≤ Text.width r) :
    (p.findAllFrom p.leading? skip touching middle (.of l) r).Pairwise
      fun m m' => m.stop ≤ m'.start := by
  induction r generalizing l skip touching middle with
  | nil =>
    simp only [findAllFrom]
    split
    · split <;> simp
    · simp
  | cons c r ih =>
    rw [Text.width_cons] at hs
    cases skip with
    | succ n =>
      rw [findAllFrom, Passed.add_of]
      exact ih (by omega)
    | zero =>
      simp only [findAllFrom, Passed.add_of]
      split
      · exact ih (by simp)
      · rename_i m hm
        have hat : p.matchAt? (between l (c :: r)) = some m := by
          split at hm
          · simp at hm
          · exact hm
        obtain ⟨w, v, hx, hfirst, hlast, hwidth⟩ := width_of_matchAt? hat
        have hle := width_le_of_matchAt? hat
        rw [Text.width_cons] at hle
        have hstop : m.stop = Text.width l + m.width := by simp [Match.stop, hlast, hwidth]
        have hlater : ∀ {skip' : Nat} {touching middle : Bool}, skip' ≤ Text.width r →
            m.width ≤ skip' + c.utf8Size →
            ∀ m' ∈ p.findAllFrom p.leading? skip' touching middle (.of (l ++ [c])) r,
              m.stop ≤ m'.start := by
          intro skip' touching middle hs' hw m' hm'
          obtain ⟨a, b, -, hmatch, ha⟩ := exists_of_mem_findAllFrom hs' hm'
          obtain ⟨w', v', -, hfirst', -, -⟩ := width_of_matchAt? hmatch
          simp only [Match.start, hfirst', offset_between, Text.width_append, Text.width_cons,
            Text.width_nil, hstop]
          omega
        split
        · split
          · exact ih (by simp)
          · exact List.pairwise_cons.2 ⟨hlater (by simp) (by omega), ih (by simp)⟩
        · exact List.pairwise_cons.2 ⟨hlater (by omega) (by omega), ih (by omega)⟩

/-- The listed matches follow one another. -/
theorem pairwise_findAll (p : Pattern) (t : Text) :
    (p.findAll t).Pairwise fun m m' => m.stop ≤ m'.start :=
  pairwise_findAllFrom (l := []) (by simp)

/-- Nothing is found where nothing matches. -/
theorem findAll_eq_nil {t : Text} (h : ∀ u w v, t = u ++ (w ++ v) → ¬ Matches p u w v) :
    p.findAll t = [] := by
  rw [List.eq_nil_iff_forall_not_mem]
  intro m hm
  obtain ⟨u, x, rfl, hat⟩ := exists_of_mem_findAll hm
  obtain ⟨w, v, rfl, -, -, hw⟩ := matchAt?_eq_some hat
  exact h u w v rfl ⟨_, _, hw⟩

/-! ## No match is missed -/

theorem Consuming.width_ne_zero (hp : p.Consuming) {u x : Text} {m : Match}
    (h : p.matchAt? (between u x) = some m) : m.width ≠ 0 := by
  obtain ⟨w, v, rfl, hfirst, hlast, hw⟩ := matchAt?_eq_some h
  have hpos := Text.width_pos (hp u w v ⟨_, _, hw⟩)
  simp only [Match.width, Match.start, Match.stop, hfirst, hlast, offset_between,
    Text.width_append]
  omega

/-- A match at a place that another match has passed begins inside that one. -/
theorem start_mem_of_width_lt {l a b : Text} {m m' : Match} (hm' : p.matchAt? (between l (a ++ b)) = some m')
    (hm : p.matchAt? (between (l ++ a) b) = some m) (ha : a ≠ []) (hw : Text.width a < m'.width) :
    m'.start < m.start ∧ m.start < m'.stop := by
  obtain ⟨w, v, -, hfirst, hlast, hwidth⟩ := width_of_matchAt? hm'
  obtain ⟨w', v', -, hfirst', -, -⟩ := width_of_matchAt? hm
  have := Text.width_pos ha
  rw [hwidth] at hw
  simp only [Match.start, Match.stop, hfirst, hlast, hfirst', offset_between, Text.width_append]
  omega

theorem mem_findAllFrom_or_exists (hp : p.Consuming) {skip : Nat} {touching middle : Bool}
    {l a b : Text} {m : Match} (hm : p.matchAt? (between (l ++ a) b) = some m)
    (hs : skip ≤ Text.width a)
    (hmid : middle = true → skip = 0 ∧ p.matchAt? (between l (a ++ b)) = none) :
    m ∈ p.findAllFrom p.leading? skip touching middle (.of l) (a ++ b) ∨
      ∃ m' ∈ p.findAllFrom p.leading? skip touching middle (.of l) (a ++ b),
        m'.start < m.start ∧ m.start < m'.stop := by
  have hne := hp.width_ne_zero hm
  induction a generalizing l skip touching middle with
  | nil =>
    rw [List.append_nil] at hm
    obtain rfl : skip = 0 := by simpa using hs
    have hfalse : middle = false := by
      by_contra hmiddle
      rw [Bool.not_eq_false] at hmiddle
      have hnone := (hmid hmiddle).2
      rw [List.nil_append] at hnone
      simp [hnone] at hm
    have hle := width_le_of_matchAt? hm
    cases b with
    | nil =>
      rw [Text.width_nil] at hle
      omega
    | cons c b =>
      refine .inl ?_
      simp only [List.nil_append, findAllFrom, hfalse, Bool.false_eq_true, if_false]
      rw [show p.matchAt? ⟨.of l, c :: b⟩ = some m from hm]
      cases hw : m.width with
      | zero => exact absurd hw hne
      | succ n => simp [hw]
  | cons c a ih =>
    have hm' : p.matchAt? (between (l ++ [c] ++ a) b) = some m := by simpa using hm
    rw [Text.width_cons] at hs
    cases skip with
    | succ n =>
      have hfalse : middle = false := by
        by_contra hmiddle
        exact absurd (hmid (by simpa using hmiddle)).1 (by omega)
      rw [List.cons_append, findAllFrom, Passed.add_of]
      exact ih hm' (by omega) (by simp [hfalse])
    | zero =>
      simp only [List.cons_append, findAllFrom, Passed.add_of]
      have hif : (if middle = true then none else p.matchAt? ⟨.of l, c :: (a ++ b)⟩) =
          p.matchAt? (between l (c :: (a ++ b))) := by
        split
        · rename_i hmiddle
          exact (hmid hmiddle).2.symm
        · rfl
      rw [hif]
      cases hat : p.matchAt? (between l (c :: (a ++ b))) with
      | none =>
        refine ih hm' (by simp) fun hmiddle => ⟨rfl, ?_⟩
        have := matchAt?_eq_none_of_isMiddle hmiddle hat
        rwa [Passed.add_of] at this
      | some m₀ =>
        cases hw : m₀.width with
        | zero => exact absurd hw (hp.width_ne_zero hat)
        | succ n =>
          simp only [hw, List.mem_cons, exists_eq_or_imp]
          by_cases hinside : n + 1 ≤ Text.width (c :: a)
          · rw [Text.width_cons] at hinside
            rcases @ih (n + 1 - c.utf8Size) true false _ hm' (by omega) (by simp) with h | h
            · exact .inl (.inr h)
            · exact .inr (.inr h)
          · exact .inr (.inl (start_mem_of_width_lt (a := c :: a) hat hm (by simp) (by omega)))

/-- A match that is not listed begins inside one that is. -/
theorem mem_findAll_or_exists (hp : p.Consuming) {u x : Text} {m : Match}
    (hm : p.matchAt? (between u x) = some m) :
    m ∈ p.findAll (u ++ x) ∨
      ∃ m' ∈ p.findAll (u ++ x), m'.start < m.start ∧ m.start < m'.stop :=
  mem_findAllFrom_or_exists (l := []) hp (by simpa using hm) (by simp) (by simp)

/-- An isolated pattern is found wherever it matches. -/
theorem mem_findAll_iff (hp : p.Consuming) (hi : p.Isolated) {t : Text} {m : Match} :
    m ∈ p.findAll t ↔ ∃ u x, t = u ++ x ∧ p.matchAt? (between u x) = some m := by
  refine ⟨exists_of_mem_findAll, ?_⟩
  rintro ⟨u, x, rfl, hm⟩
  rcases mem_findAll_or_exists hp hm with h | ⟨m', hm', hlt, hgt⟩
  · exact h
  obtain ⟨u', x', ht, hat⟩ := exists_of_mem_findAll hm'
  obtain ⟨w', v', rfl, hfirst', hlast', hw'⟩ := matchAt?_eq_some hat
  obtain ⟨w, v, rfl, hfirst, hlast, hw⟩ := matchAt?_eq_some hm
  simp only [Match.start, Match.stop, hfirst, hfirst', hlast', offset_between,
    Text.width_append] at hlt hgt
  -- the place of `m` cuts `m'` in two parts
  rcases List.append_eq_append_iff.1 ht with ⟨a, rfl, hx⟩ | ⟨a, rfl, hx⟩
  · rw [Text.width_append] at hlt
    omega
  · rcases List.append_eq_append_iff.1 hx with ⟨b, rfl, hv⟩ | ⟨b, rfl, hv⟩
    · rw [Text.width_append, Text.width_append] at hgt
      omega
    · refine absurd ⟨_, _, hw⟩ (hi u' a b v' ?_ ?_ ⟨_, _, hw'⟩ w v hv.symm)
      · rintro rfl
        simp at hlt
      · rintro rfl
        simp at hgt

end DialectBridge.Pattern
