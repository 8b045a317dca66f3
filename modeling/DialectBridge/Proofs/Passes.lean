import DialectBridge.Proofs.Outcomes
import Mathlib.Order.WellFounded
/-!
# Steps until nothing is left to do

A step that makes every query smaller comes to an end, and a repetition follows it for as many
passes as it has. So the repetition reaches the end just when there are no more steps than passes
(`Shrinks.exists_fixpoint`).
-/
namespace DialectBridge

variable {σ : Type} {step : Text → Editing σ (Option Text)} {size : Text → Nat}
  {sql next out out' : Text} {k k' : Nat}

/-- From `sql` the step is made `k` times; then, at `out`, there is nothing left to do. -/
inductive Reaches (step : Text → Editing σ (Option Text)) : Nat → Text → Text → Prop where
  | done {sql : Text} : Gives (step sql) none → Reaches step 0 sql sql
  | more {k : Nat} {sql next out : Text} : Gives (step sql) (some next) → next ≠ sql →
      Reaches step k next out → Reaches step (k + 1) sql out

/-- The step makes `next` of the query `sql`. -/
def Makes (step : Text → Editing σ (Option Text)) (sql next : Text) : Prop :=
  ∃ log log', (step sql).run log = some (some next, log')

theorem Yields.of_makes {P : Text → Prop} (h : Yields (step sql) fun r => ∀ next ∈ r, P next)
    (hnext : Makes step sql next) : P next := by
  obtain ⟨r, hr, hP⟩ := h
  obtain ⟨log, log', hrun⟩ := hnext
  obtain ⟨log₁, hrun'⟩ := hr log
  rw [hrun] at hrun'
  exact hP next (congrArg Prod.fst (Option.some.inj hrun')).symm

/-! ## The texts on the way -/

/-- The texts that a step changes, one pass after the other. -/
def passTexts (step : Text → Reporting (Option Text)) : Nat → Text → List Text
  | 0, _ => []
  | passes + 1, sql =>
    match (step sql).run [] with
    | some (some next, _) => if next = sql then [] else sql :: passTexts step passes next
    | _ => []

/-- From `sql` to `out` the step makes of each of some texts the next one. -/
inductive Passes (step : Text → Editing σ (Option Text)) : List Text → Text → Text → Prop where
  | nil {sql : Text} : Passes step [] sql sql
  | cons {texts : List Text} {sql next out : Text} : Makes step sql next → Passes step texts next out →
      Passes step (sql :: texts) sql out

theorem exists_passes {step : Text → Reporting (Option Text)} (h : ∀ sql, Total (step sql)) (passes : Nat) (sql : Text) :
    ∃ out, Gives (repeatStep step passes sql) out ∧ Passes step (passTexts step passes sql) sql out := by
  induction passes generalizing sql with
  | zero => exact ⟨sql, gives_pure sql, .nil⟩
  | succ passes ih =>
    obtain ⟨r, hr⟩ := h sql
    obtain ⟨log, hrun⟩ := hr []
    cases r with
    | none =>
      refine ⟨sql, hr.bind (gives_pure sql), ?_⟩
      simp only [passTexts, hrun]
      exact .nil
    | some next =>
      by_cases hsame : next = sql
      · refine ⟨sql, hr.bind ?_, ?_⟩
        · simp only [if_pos hsame]
          exact gives_pure sql
        · simp only [passTexts, hrun, if_pos hsame]
          exact .nil
      · obtain ⟨out, hout, hpasses⟩ := ih next
        refine ⟨out, hr.bind ?_, ?_⟩
        · simp only [if_neg hsame]
          exact hout
        · simp only [passTexts, hrun, if_neg hsame]
          exact .cons ⟨[], log, hrun⟩ hpasses

/-! ## Measures -/

/-- Steps that go down in a well-founded order come to an end. -/
theorem not_endless {α : Type} {r : α → α → Prop} (hr : WellFounded r) {measure : Text → α}
    (h : ∀ sql next, Makes step sql next → r (measure next) (measure sql)) :
    ¬ ∃ texts : Nat → Text, ∀ i, Makes step (texts i) (texts (i + 1)) := by
  rintro ⟨texts, hsteps⟩
  exact (wellFounded_iff_isEmpty_descending_chain.1 hr).false
    ⟨fun i => measure (texts i), fun i => h _ _ (hsteps i)⟩

/-- Whether a step makes every query that it changes smaller. -/
def Shrinks (step : Text → Editing σ (Option Text)) (size : Text → Nat) : Prop :=
  ∀ sql, Yields (step sql) fun r => ∀ next ∈ r, size next < size sql

theorem Shrinks.exists_reaches (h : Shrinks step size) (sql : Text) :
    ∃ k out, k ≤ size sql ∧ Reaches step k sql out := by
  induction hsize : size sql using Nat.strongRecOn generalizing sql with
  | ind n ih =>
    obtain ⟨r, hr, hless⟩ := h sql
    cases r with
    | none => exact ⟨0, sql, Nat.zero_le n, .done hr⟩
    | some next =>
      have hlt : size next < n := hsize ▸ hless next rfl
      obtain ⟨k, out, hk, hreaches⟩ := ih _ hlt next rfl
      refine ⟨k + 1, out, by omega, .more hr ?_ hreaches⟩
      rintro rfl
      omega

/-- What is left to do behind a bounded number of passes. -/
theorem Reaches.exists_repeatStep (h : Reaches step k sql out) (passes : Nat) :
    ∃ res, Gives (repeatStep step passes sql) res ∧ Reaches step (k - passes) res out := by
  induction h generalizing passes with
  | @done sql hnone =>
    refine ⟨sql, ?_, by rw [Nat.zero_sub]; exact .done hnone⟩
    cases passes with
    | zero => exact gives_pure sql
    | succ passes => exact hnone.bind (gives_pure sql)
  | @more k sql next out hnext hne hrest ih =>
    cases passes with
    | zero => exact ⟨sql, gives_pure sql, .more hnext hne hrest⟩
    | succ passes =>
      obtain ⟨res, hres, hreaches⟩ := ih passes
      refine ⟨res, hnext.bind ?_, by rwa [Nat.add_sub_add_right]⟩
      simp only [if_neg hne]
      exact hres

/-- The repetition reaches an end that is near enough. -/
theorem Reaches.gives_fixpoint (h : Reaches step k sql out) (hk : k ≤ maxPasses) : Gives (fixpoint step sql) out := by
  obtain ⟨res, hres, hrest⟩ := h.exists_repeatStep maxPasses
  rw [Nat.sub_eq_zero_of_le hk] at hrest
  cases hrest
  exact hres

section
variable [Inhabited σ]

/-- The number of steps that are left is unique. -/
theorem Reaches.unique (h : Reaches step k sql out) (h' : Reaches step k' sql out') : k = k' := by
  induction h generalizing k' with
  | done hnone =>
    cases h' with
    | done _ => rfl
    | more hsome _ _ => exact absurd (hnone.unique hsome default) (by simp)
  | more hsome _ _ ih =>
    cases h' with
    | done hnone => exact absurd (hnone.unique hsome default) (by simp)
    | more hsome' _ hrest =>
      obtain rfl := Option.some.inj (hsome.unique hsome' default)
      rw [ih hrest]

/-- Nothing is left to do just where no step is left. -/
theorem Reaches.gives_none_iff (h : Reaches step k sql out) : Gives (step sql) none ↔ k = 0 :=
  ⟨fun hnone => h.unique (.done hnone), fun hk => by subst hk; cases h; assumption⟩

/-- The repetition changes nothing just where no step is left. -/
theorem Reaches.gives_fixpoint_self_iff (h : Reaches step k sql out) :
    Gives (fixpoint step sql) sql ↔ k = 0 := by
  obtain ⟨res, hres, hrest⟩ := h.exists_repeatStep maxPasses
  have hpasses : 0 < maxPasses := by decide
  constructor
  · intro hself
    obtain rfl := hres.unique hself default
    have := h.unique hrest
    omega
  · rintro rfl
    rw [Nat.zero_sub] at hrest
    have hsame : res = out := by cases hrest; rfl
    have hsame' : sql = out := by cases h; rfl
    rwa [hsame', ← hsame] at hres ⊢

/-- The repetition of a step that makes every query smaller. -/
theorem Shrinks.exists_fixpoint (h : Shrinks step size) (sql : Text) :
    ∃ k out res, k ≤ size sql ∧ Reaches step k sql out ∧ Gives (fixpoint step sql) res ∧
      (Gives (step res) none ↔ k ≤ maxPasses) ∧ (Gives (fixpoint step res) res ↔ k ≤ maxPasses) := by
  obtain ⟨k, out, hk, hreaches⟩ := h.exists_reaches sql
  obtain ⟨res, hres, hrest⟩ := hreaches.exists_repeatStep maxPasses
  refine ⟨k, out, res, hk, hreaches, hres, ?_, ?_⟩
  · rw [hrest.gives_none_iff, Nat.sub_eq_zero_iff_le]
  · rw [hrest.gives_fixpoint_self_iff, Nat.sub_eq_zero_iff_le]

end

end DialectBridge
