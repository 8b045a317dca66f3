import DialectBridge.Proofs.Blocks
import DialectBridge.Proofs.Framing
import DialectBridge.Warning
/-!
# Results of edits

An edit has no result where it would cut a character in two. `Gives x a` says that `x` has the
result `a`, whatever is in the log, and `Total x` that it has some result. Edits put together from
total ones are total; for the replacement of matches `gives_replaceSpans` says what the result is.
-/
namespace DialectBridge
open Pattern Text

variable {σ α β : Type}

/-- Whether an edit has the result `a` whatever is in the log. -/
def Gives (x : Editing σ α) (a : α) : Prop := ∀ s, ∃ s', x.run s = some (a, s')

/-- Whether an edit always has the same result. -/
def Total (x : Editing σ α) : Prop := ∃ a, Gives x a

theorem gives_pure (a : α) : Gives (pure a : Editing σ α) a := fun s => ⟨s, rfl⟩

theorem Gives.bind {x : Editing σ α} {f : α → Editing σ β} {a : α} {b : β} (hx : Gives x a)
    (hf : Gives (f a) b) : Gives (x >>= f) b := by
  intro s
  obtain ⟨s₁, h₁⟩ := hx s
  obtain ⟨s₂, h₂⟩ := hf s₁
  exact ⟨s₂, by rw [StateT.run_bind, h₁]; exact h₂⟩

theorem gives_lift {x : Option α} {a : α} (h : x = some a) : Gives (liftM x : Editing σ α) a := by
  intro s
  exact ⟨s, by rw [Editing.run_lift, h]; rfl⟩

/-- Steps without a log, with the log of what goes on. -/
theorem Editing.run_foldlM_lift (f : β → α → Option β) (l : List α) (b : β) (s : σ) :
    (l.foldlM (fun b a => (liftM (f b a) : Editing σ β)) b).run s = (l.foldlM f b).map (·, s) := by
  induction l generalizing b with
  | nil => rfl
  | cons a l ih =>
    rw [List.foldlM_cons, List.foldlM_cons, Editing.run_lift_bind, Option.bind_eq_bind]
    cases f b a with
    | none => rfl
    | some b' => exact ih b'

theorem gives_modify (f : σ → σ) : Gives (modify f : Editing σ Unit) () := fun s => ⟨f s, rfl⟩

theorem gives_warn (category : Category) (message : Text) : Gives (warn category message) () :=
  gives_modify _

theorem gives_warnOnce (category : Category) (message : Text) :
    Gives (warnOnce category message) () :=
  gives_modify _

/-- An edit has one result. -/
theorem Gives.unique {x : Editing σ α} {a b : α} (ha : Gives x a) (hb : Gives x b) (s : σ) : a = b := by
  obtain ⟨s₁, h₁⟩ := ha s
  obtain ⟨s₂, h₂⟩ := hb s
  rw [h₁] at h₂
  exact congrArg Prod.fst (Option.some.inj h₂)

theorem Gives.total {x : Editing σ α} {a : α} (h : Gives x a) : Total x := ⟨a, h⟩

/-- Whether an edit always has the same result and this satisfies `P`. -/
def Yields (x : Editing σ α) (P : α → Prop) : Prop := ∃ a, Gives x a ∧ P a

theorem yields_pure {a : α} {P : α → Prop} (h : P a) : Yields (pure a : Editing σ α) P :=
  ⟨a, gives_pure a, h⟩

theorem Gives.yields_bind {x : Editing σ α} {f : α → Editing σ β} {a : α} {P : β → Prop}
    (hx : Gives x a) (hf : Yields (f a) P) : Yields (x >>= f) P := by
  obtain ⟨b, hb, hP⟩ := hf
  exact ⟨b, hx.bind hb, hP⟩

theorem Yields.bind {x : Editing σ α} {f : α → Editing σ β} {P : α → Prop} {Q : β → Prop}
    (hx : Yields x P) (hf : ∀ a, P a → Yields (f a) Q) : Yields (x >>= f) Q := by
  obtain ⟨a, ha, hP⟩ := hx
  exact ha.yields_bind (hf a hP)

theorem Yields.total {x : Editing σ α} {P : α → Prop} (h : Yields x P) : Total x := by
  obtain ⟨a, ha, -⟩ := h
  exact ⟨a, ha⟩

theorem total_pure (a : α) : Total (pure a : Editing σ α) := ⟨a, gives_pure a⟩

theorem Total.bind {x : Editing σ α} {f : α → Editing σ β} (hx : Total x)
    (hf : ∀ a, Total (f a)) : Total (x >>= f) := by
  obtain ⟨a, ha⟩ := hx
  obtain ⟨b, hb⟩ := hf a
  exact ⟨b, ha.bind hb⟩

theorem total_lift {x : Option α} (h : ∃ a, x = some a) : Total (liftM x : Editing σ α) := by
  obtain ⟨a, ha⟩ := h
  exact ⟨a, gives_lift ha⟩

theorem total_ite {p : Prop} [Decidable p] {x y : Editing σ α} (hx : Total x) (hy : Total y) :
    Total (if p then x else y) := by
  split_ifs <;> assumption

theorem total_foldlM {f : β → α → Editing σ β} {l : List α} (hf : ∀ a ∈ l, ∀ b, Total (f b a)) (b : β) :
    Total (l.foldlM f b) := by
  induction l generalizing b with
  | nil => exact total_pure b
  | cons a l ih => exact (hf a (by simp) b).bind (ih fun a' ha' => hf a' (by simp [ha']))

theorem total_forM {f : α → Editing σ Unit} (hf : ∀ a, Total (f a)) (l : List α) :
    Total (l.forM f) := by
  induction l with
  | nil => exact total_pure ()
  | cons a l ih => exact (hf a).bind fun _ => ih

theorem total_findSomeM? {f : α → Editing σ (Option β)} {l : List α} (hf : ∀ a ∈ l, Total (f a)) :
    Total (l.findSomeM? f) := by
  induction l with
  | nil => exact total_pure none
  | cons a l ih =>
    rw [List.findSomeM?]
    refine (hf a (by simp)).bind fun r => ?_
    cases r with
    | none => exact ih fun a' ha' => hf a' (by simp [ha'])
    | some b => exact total_pure (some b)

/-- What each of some edits finds, if it finds something, the first one finds that does. -/
theorem yields_findSomeM? {f : α → Editing σ (Option β)} {l : List α} {P : β → Prop}
    (hf : ∀ a ∈ l, Yields (f a) fun r => ∀ b ∈ r, P b) :
    Yields (l.findSomeM? f) fun r => ∀ b ∈ r, P b := by
  induction l with
  | nil => exact yields_pure (by simp)
  | cons a l ih =>
    obtain ⟨r, hr, hP⟩ := hf a (by simp)
    rw [List.findSomeM?]
    refine hr.yields_bind ?_
    cases r with
    | none => exact ih fun a' ha' => hf a' (by simp [ha'])
    | some b => exact yields_pure hP

/-- What finds nothing each time finds nothing. -/
theorem gives_findSomeM?_none {f : α → Editing σ (Option β)} {l : List α} (hf : ∀ a ∈ l, Gives (f a) none) :
    Gives (l.findSomeM? f) none := by
  induction l with
  | nil => exact gives_pure none
  | cons a l ih => exact (hf a (by simp)).bind (ih fun a' ha' => hf a' (by simp [ha']))

/-- The first of some edits decides if it finds something. -/
theorem gives_findSomeM?_some {f : α → Editing σ (Option β)} {l : List α} {b : β} (hne : l ≠ [])
    (hf : ∀ a ∈ l, Gives (f a) (some b)) : Gives (l.findSomeM? f) (some b) := by
  obtain ⟨a, l, rfl⟩ := List.exists_cons_of_ne_nil hne
  exact (hf a (by simp)).bind (gives_pure _)

/-! ## Steps until nothing changes -/

theorem total_repeatStep {step : Text → Editing σ (Option Text)} (h : ∀ sql, Total (step sql))
    (passes : Nat) (sql : Text) : Total (repeatStep step passes sql) := by
  induction passes generalizing sql with
  | zero => exact total_pure sql
  | succ passes ih =>
    refine (h sql).bind fun r => ?_
    cases r with
    | none => exact total_pure sql
    | some next => exact total_ite (total_pure sql) (ih next)

theorem total_fixpoint {step : Text → Editing σ (Option Text)} (h : ∀ sql, Total (step sql))
    (sql : Text) : Total (fixpoint step sql) :=
  total_repeatStep h maxPasses sql

/-! ## Matches that are replaced -/

/-- The text `out` is `t`, which starts at offset `k`, with the matches `ms` replaced. -/
inductive Replaced (g : Match → Option Text) : Nat → List Match → Text → Text → Prop where
  | nil (k : Nat) (t : Text) : Replaced g k [] t t
  | cons {k : Nat} {m : Match} {ms : List Match} {a w rest out : Text}
      (hstart : m.start = k + width a) (hstop : m.stop = m.start + width w)
      (hrest : Replaced g m.stop ms rest out) :
      Replaced g k (m :: ms) (a ++ w ++ rest) (a ++ (g m).getD w ++ out)

theorem Replaced.le_start {g : Match → Option Text} {k : Nat} {ms : List Match} {t out : Text}
    (h : Replaced g k ms t out) : ∀ m ∈ ms, k ≤ m.start := by
  induction h with
  | nil => simp
  | cons hstart hstop _ ih =>
    refine List.forall_mem_cons.2 ⟨by omega, fun m hm => ?_⟩
    have := ih m hm
    omega

/-- Where nothing is put in the place of a match, the text stays. -/
theorem Replaced.eq_self {g : Match → Option Text} {k : Nat} {ms : List Match} {t out : Text}
    (h : Replaced g k ms t out) (hg : ∀ m ∈ ms, g m = none) : out = t := by
  induction h with
  | nil => rfl
  | @cons k m ms a w rest out _ _ _ ih =>
    rw [hg m (by simp), Option.getD_none, ih fun m' hm' => hg m' (by simp [hm'])]

theorem exists_replaced {f : Match → Editing σ (Option Text)} {g : Match → Option Text}
    {ms : List Match} (pre t : Text)
    (hms : ∀ m ∈ ms, IsBoundary (pre ++ t) m.start ∧ IsBoundary (pre ++ t) m.stop ∧ m.start < m.stop)
    (hpair : ms.Pairwise fun m m' => m.stop ≤ m'.start) (hpre : ∀ m ∈ ms, width pre ≤ m.start)
    (hf : ∀ m ∈ ms, Gives (f m) (g m)) :
    ∃ out, Gives (ms.foldrM (fun m out => do
        match ← f m with
        | none => return out
        | some r => Text.splice? out m.start m.stop r) (pre ++ t)) (pre ++ out) ∧
      Replaced g (width pre) ms t out := by
  induction ms generalizing pre t with
  | nil => exact ⟨t, gives_pure _, .nil _ t⟩
  | cons m ms ih =>
    obtain ⟨hstart, hstop, hlt⟩ := hms m (by simp)
    obtain ⟨hnext, hpair⟩ := List.pairwise_cons.1 hpair
    -- the text before the match, the match, and the rest
    obtain ⟨a', w, rest, ht, ha', hw⟩ := exists_cuts hstart hstop (Nat.le_of_lt hlt)
    rw [List.append_assoc] at ht
    obtain ⟨a, rfl, ha⟩ := exists_of_width_le ht (by rw [ha']; exact hpre m (by simp))
    subst ha
    have hw' : m.start + width w = m.stop := by rw [← ha', hw]
    have hsame : pre ++ (a ++ (w ++ rest)) = pre ++ a ++ w ++ rest := by simp
    rw [hsame] at hms
    obtain ⟨out, hout, hreplaced⟩ := ih (pre ++ a ++ w) rest
      (fun m' hm' => hms m' (by simp [hm'])) hpair
      (fun m' hm' => by rw [width_append, ha', hw']; exact hnext m' hm')
      fun m' hm' => hf m' (by simp [hm'])
    have hwidth : width (pre ++ a ++ w) = m.stop := by rw [width_append, ha', hw']
    refine ⟨a ++ (g m).getD w ++ out, ?_, ?_⟩
    · rw [List.foldrM_cons, hsame]
      refine hout.bind ((hf m (by simp)).bind ?_)
      cases hg : g m with
      | none =>
        have hkept : pre ++ a ++ w ++ out = pre ++ (a ++ Option.getD none w ++ out) := by simp
        rw [← hkept]
        exact gives_pure _
      | some r =>
        refine gives_lift ?_
        rw [← hw, ← ha', splice?_append]
        simp
    · rw [← List.append_assoc]
      refine .cons (by rw [← ha', width_append]) hw'.symm ?_
      rwa [hwidth] at hreplaced

theorem gives_replaceSpans {sql : Text} {p : Pattern} {f : Match → Editing σ (Option Text)}
    {g : Match → Option Text} (hp : p.framed = true)
    (hf : ∀ m ∈ p.findAll (mask sql), Gives (f m) (g m)) :
    ∃ out, Gives (replaceSpans sql p f) out ∧ Replaced g 0 (p.findAll (mask sql)) sql out := by
  obtain ⟨out, hout, hreplaced⟩ := exists_replaced [] sql
    (fun m hm => isBoundary_of_mem_findAll hp hm) (pairwise_findAll p (mask sql)) (by simp) hf
  exact ⟨out, hout, hreplaced⟩

theorem total_replaceSpans {sql : Text} {p : Pattern} {f : Match → Editing σ (Option Text)}
    (hp : p.framed = true) (hf : ∀ m ∈ p.findAll (mask sql), Total (f m)) :
    Total (replaceSpans sql p f) := by
  choose! g hg using hf
  obtain ⟨out, hout, -⟩ := gives_replaceSpans hp hg
  exact ⟨out, hout⟩

end DialectBridge
