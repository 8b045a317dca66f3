import DialectBridge.Proofs.CallCuts
import DialectBridge.Proofs.Outcomes
/-!
# Logs of edits

`Leads x s P` says of the edit `x` and the log `s` that it starts from that its result and its log
satisfy `P`. A loop over calls keeps what each round keeps (`leads_replaceCallsBefore`); an edit made
of edits that raise no warning of some category raises none (`Silent`).
-/
namespace DialectBridge
open Pattern

variable {σ α β : Type}

/-- Whether the result of an edit and its log satisfy `P`, if it has a result. -/
def Leads (x : Editing σ α) (s : σ) (P : α → σ → Prop) : Prop := ∀ a s', x.run s = some (a, s') → P a s'

section
variable {s : σ} {P Q : α → σ → Prop} {R : β → σ → Prop} {x : Editing σ α} {f : α → Editing σ β}

theorem leads_pure {a : α} (h : P a s) : Leads (pure a) s P := by
  rintro _ _ ⟨⟩
  exact h

theorem Leads.mono (h : Leads x s P) (hPQ : ∀ a s', P a s' → Q a s') : Leads x s Q := fun a s' hrun =>
  hPQ a s' (h a s' hrun)

theorem Leads.and (hP : Leads x s P) (hQ : Leads x s Q) : Leads x s fun a s' => P a s' ∧ Q a s' := fun a s' hrun =>
  ⟨hP a s' hrun, hQ a s' hrun⟩

theorem Leads.bind (h : Leads x s fun a s' => Leads (f a) s' R) : Leads (x >>= f) s R := by
  intro b s₂ hrun
  rw [StateT.run_bind, Option.bind_eq_bind, Option.bind_eq_some_iff] at hrun
  obtain ⟨⟨a, s₁⟩, hx, hf⟩ := hrun
  exact h a s₁ hx b s₂ hf

theorem leads_lift {o : Option α} (h : ∀ a, o = some a → P a s) : Leads (liftM o) s P := by
  intro a s' hrun
  rw [Editing.run_lift, Option.map_eq_some_iff] at hrun
  obtain ⟨a, ha, heq⟩ := hrun
  obtain ⟨rfl, rfl⟩ := Prod.mk.inj heq
  exact h a ha

theorem leads_modify {g : σ → σ} {P : Unit → σ → Prop} (h : P () (g s)) : Leads (modify g) s P := by
  rintro _ _ ⟨⟩
  exact h

/-- What each step keeps, the steps one after the other keep. -/
theorem leads_foldlM {f : β → α → Editing σ β} {I : β → σ → Prop} {l : List α}
    (hf : ∀ a ∈ l, ∀ b s, I b s → Leads (f b a) s I) {b : β} (h : I b s) : Leads (l.foldlM f b) s I := by
  induction l generalizing b s with
  | nil => exact leads_pure h
  | cons a l ih =>
    exact .bind ((hf a (by simp) b s h).mono fun b' s' h' => ih (fun a' ha' => hf a' (by simp [ha'])) h')

theorem leads_foldrM {f : α → β → Editing σ β} {I : β → σ → Prop} {l : List α}
    (hf : ∀ a ∈ l, ∀ b s, I b s → Leads (f a b) s I) {b : β} (h : I b s) : Leads (l.foldrM f b) s I := by
  induction l with
  | nil => exact leads_pure h
  | cons a l ih =>
    rw [List.foldrM_cons]
    exact .bind ((ih fun a' ha' => hf a' (by simp [ha'])).mono fun b' s' h' => hf a (by simp) b' s' h')

/-- An edit with a known result leaves some log. -/
theorem Gives.leads {a : α} (h : Gives x a) (hP : ∀ s', P a s') : Leads x s P := by
  intro b s' hrun
  obtain ⟨s₁, h₁⟩ := h s
  rw [h₁] at hrun
  obtain ⟨rfl, rfl⟩ := Prod.mk.inj (Option.some.inj hrun)
  exact hP s₁

end

/-- Where what is put in the place of a match does not depend on the log, the log stays. -/
theorem exists_replaceSpans_of_pure {sql : Text} {p : Pattern} {f : Match → Editing σ (Option Text)}
    {g : Match → Option Text} (hp : p.framed = true) (hf : ∀ m ∈ p.findAll (mask sql), f m = pure (g m)) :
    ∃ out, Gives (replaceSpans sql p f) out ∧ (∀ s, Leads (replaceSpans sql p f) s fun _ s' => s' = s) ∧
      Replaced g 0 (p.findAll (mask sql)) sql out := by
  obtain ⟨out, hout, hreplaced⟩ := gives_replaceSpans hp fun m hm => hf m hm ▸ gives_pure (g m)
  refine ⟨out, hout, fun s => leads_foldrM (fun m hm out s' hs' => ?_) rfl, hreplaced⟩
  rw [hf m hm, pure_bind]
  cases g m with
  | none => exact leads_pure hs'
  | some r => exact leads_lift fun _ _ => hs'

/-! ## Loops over calls -/

/-- A splice that takes `n` bytes more than `w` takes them from the text behind `w`. -/
theorem exists_of_splice?_behind {x w y t out : Text} {n : Nat}
    (h : Text.splice? (x ++ w ++ y) (Text.width x) (Text.width (x ++ w) + n) t = some out) :
    ∃ k z, y = k ++ z ∧ Text.width k = n ∧ out = x ++ (t ++ z) := by
  obtain ⟨-, ⟨a, z, hsplit, hwidth⟩, -⟩ := Text.isBoundary_of_splice? h
  obtain ⟨k, rfl, rfl⟩ := Text.exists_of_width_le hsplit (by omega)
  have hk : Text.width k = n := by
    rw [Text.width_append] at hwidth
    omega
  have hsplice := Text.splice?_append x (w ++ k) z t
  have hstop : Text.width (x ++ w) + n = Text.width x + Text.width (w ++ k) := by
    simp only [Text.width_append]
    omega
  rw [hstop, ← List.append_assoc, List.append_assoc x, hsplice] at h
  exact ⟨k, z, rfl, hk, by simpa using (Option.some.inj h).symm⟩

/-- What each call that is found keeps, whether it is replaced or not, the loop over the calls keeps. -/
theorem leads_replaceCallsBefore {name : Text} (hname : isName name = true)
    {f : Call → Editing σ (Option (Text × Nat))} {I : Text → σ → Prop}
    (hf : ∀ {sql s m closing x h inside y ps}, CallCut name sql m closing x h inside y ps → I sql s →
      Leads (f ⟨Text.width x, Text.width (x ++ h ++ '(' :: inside) + 1, inside,
          if ps.map Text.trim = [[]] then [] else ps.map Text.trim, y⟩) s fun r s' =>
        match r with
        | none => I sql s'
        | some (t, n) => ∀ k z, y = k ++ z → Text.width k = n → I (x ++ (t ++ z)) s')
    (limit : Nat) {sql : Text} {s : σ} (h : I sql s) : Leads (replaceCallsBefore name f limit sql) s I := by
  induction limit using Nat.strongRecOn generalizing sql s with
  | ind limit ih =>
    rw [replaceCallsBefore]
    split
    · exact leads_pure h
    rename_i m hlast
    have hlt := Call.start_lt_of_lastBefore? hlast
    have hm := List.mem_reverse.1 (List.mem_of_find?_eq_some hlast)
    split
    · exact ih _ hlt h
    rename_i closing hclosing
    obtain ⟨x, a, inside, y, ps, hcut⟩ := exists_callCut hname hm hclosing
    refine .bind (leads_lift fun call hcall => ?_)
    rw [hcut.read] at hcall
    obtain rfl := Option.some.inj hcall
    refine .bind ((hf hcut h).mono fun r s' hr => ?_)
    rcases r with _ | ⟨t, n⟩
    · exact ih _ hlt hr
    refine .bind (leads_lift fun next hnext => ih _ hlt ?_)
    have hsplit : sql = x ++ (a ++ '(' :: (inside ++ [')'])) ++ y := by rw [hcut.split]; simp
    have hstop : Text.width (x ++ a ++ '(' :: inside) + 1 = Text.width (x ++ (a ++ '(' :: (inside ++ [')']))) := by
      have hclose : ')'.utf8Size = 1 := by decide
      simp only [Text.width_append, Text.width_cons, Text.width_nil, hclose]
      omega
    rw [hstop, hsplit] at hnext
    obtain ⟨k, z, hy, hk, rfl⟩ := exists_of_splice?_behind hnext
    exact hr k z hy hk

/-! ## Categories that are not raised -/

/-- Whether an edit raises no warning of category `k`. -/
def Silent (k : Category) (x : Reporting α) : Prop :=
  ∀ log, Leads x log fun _ log' => ∀ w ∈ log', w.category = k → w ∈ log

section
variable {k : Category} {x : Reporting α}

/-- A category that has not been raised has not been raised behind a silent edit either. -/
theorem Silent.not_mem (h : Silent k x) {log : List Warning} (hlog : k ∉ log.map Warning.category) :
    Leads x log fun _ log' => k ∉ log'.map Warning.category := by
  refine (h log).mono fun _ log' hsub hmem => ?_
  obtain ⟨w, hw, hk⟩ := List.mem_map.1 hmem
  exact hlog (List.mem_map.2 ⟨w, hsub w hw hk, hk⟩)

theorem silent_pure (a : α) : Silent k (pure a) := fun _ => leads_pure fun _ hw _ => hw

theorem Silent.bind {f : α → Reporting β} (hx : Silent k x) (hf : ∀ a, Silent k (f a)) : Silent k (x >>= f) :=
  fun log => .bind ((hx log).mono fun a log' h => (hf a log').mono fun _ _ h' w hw hk => h w (h' w hw hk) hk)

theorem silent_lift (o : Option α) : Silent k (liftM o : Reporting α) := fun _ =>
  leads_lift fun _ _ _ hw _ => hw

theorem silent_warn {c : Category} (h : c ≠ k) (message : Text) : Silent k (warn c message) := fun log =>
  leads_modify fun w hw hk => by
    rcases List.mem_append.1 hw with hw | hw
    · exact hw
    · rw [List.mem_singleton.1 hw] at hk
      exact absurd hk h

theorem silent_warnOnce {c : Category} (h : c ≠ k) (message : Text) : Silent k (warnOnce c message) := fun log =>
  leads_modify fun w hw hk => by
    split_ifs at hw
    · exact hw
    rcases List.mem_append.1 hw with hw | hw
    · exact hw
    · rw [List.mem_singleton.1 hw] at hk
      exact absurd hk h

theorem silent_ite {p : Prop} [Decidable p] {y : Reporting α} (hx : Silent k x) (hy : Silent k y) :
    Silent k (if p then x else y) := by
  split_ifs <;> assumption

/-- A warning and then more. -/
theorem silent_warn_then {c : Category} (h : c ≠ k) (message : Text) (hx : Silent k x) :
    Silent k (do warn c message; x) := (silent_warn h message).bind fun _ => hx

theorem silent_warnOnce_then {c : Category} (h : c ≠ k) (message : Text) (hx : Silent k x) :
    Silent k (do warnOnce c message; x) := (silent_warnOnce h message).bind fun _ => hx

/-- A report that is made only in some cases. -/
theorem silent_report_then {p : Prop} [Decidable p] {report : Reporting Unit} (hreport : Silent k report)
    {f : Unit → Reporting α} (hf : Silent k (f ())) : Silent k (if p then report >>= f else f ()) :=
  silent_ite (hreport.bind fun _ => hf) hf

theorem silent_forM {f : α → Reporting Unit} {l : List α} (hf : ∀ a ∈ l, Silent k (f a)) : Silent k (l.forM f) := by
  induction l with
  | nil => exact silent_pure ()
  | cons a l ih => exact (hf a (by simp)).bind fun _ => ih fun a' ha' => hf a' (by simp [ha'])

theorem silent_foldlM {f : β → α → Reporting β} (hf : ∀ a b, Silent k (f b a)) (l : List α) (b : β) :
    Silent k (l.foldlM f b) := by
  induction l generalizing b with
  | nil => exact silent_pure b
  | cons a l ih => exact (hf a b).bind ih

theorem silent_foldrM {f : α → β → Reporting β} (hf : ∀ a b, Silent k (f a b)) (l : List α) (b : β) :
    Silent k (l.foldrM f b) := by
  induction l with
  | nil => exact silent_pure b
  | cons a l ih =>
    rw [List.foldrM_cons]
    exact ih.bind (hf a)

theorem silent_mapM {f : α → Reporting β} (hf : ∀ a, Silent k (f a)) (l : List α) : Silent k (l.mapM f) := by
  induction l with
  | nil => exact silent_pure []
  | cons a l ih =>
    rw [List.mapM_cons]
    exact (hf a).bind fun _ => ih.bind fun _ => silent_pure _

theorem silent_findSomeM? {f : α → Reporting (Option β)} (hf : ∀ a, Silent k (f a)) (l : List α) :
    Silent k (l.findSomeM? f) := by
  induction l with
  | nil => exact silent_pure none
  | cons a l ih =>
    rw [List.findSomeM?]
    refine (hf a).bind fun r => ?_
    cases r with
    | none => exact ih
    | some b => exact silent_pure (some b)

theorem silent_fixpoint {step : Text → Reporting (Option Text)} (hstep : ∀ sql, Silent k (step sql)) (sql : Text) :
    Silent k (fixpoint step sql) := by
  unfold fixpoint
  induction maxPasses generalizing sql with
  | zero => exact silent_pure sql
  | succ passes ih =>
    refine (hstep sql).bind fun r => ?_
    cases r with
    | none => exact silent_pure sql
    | some next => exact silent_ite (silent_pure sql) (ih next)

theorem silent_replaceSpans {f : Match → Reporting (Option Text)} (hf : ∀ m, Silent k (f m)) (sql : Text)
    (p : Pattern) : Silent k (replaceSpans sql p f) := by
  refine silent_foldrM (fun m out => (hf m).bind fun r => ?_) _ sql
  cases r with
  | none => exact silent_pure out
  | some r => exact silent_lift _

theorem silent_replaceCallsBefore {f : Call → Reporting (Option (Text × Nat))} (hf : ∀ call, Silent k (f call))
    (name : Text) (limit : Nat) (sql : Text) : Silent k (replaceCallsBefore name f limit sql) := by
  induction limit using Nat.strongRecOn generalizing sql with
  | ind limit ih =>
    rw [replaceCallsBefore]
    split
    · exact silent_pure sql
    rename_i m hlast
    have hlt := Call.start_lt_of_lastBefore? hlast
    split
    · exact ih _ hlt sql
    refine (silent_lift _).bind fun call => (hf call).bind fun r => ?_
    rcases r with _ | ⟨t, n⟩
    · exact ih _ hlt sql
    · exact (silent_lift _).bind fun next => ih _ hlt next

theorem silent_replaceCalls {f : Call → Reporting (Option Text)} (hf : ∀ call, Silent k (f call)) (sql name : Text) :
    Silent k (replaceCalls sql name f) :=
  silent_replaceCallsBefore (fun call => (hf call).bind fun _ => silent_pure _) _ _ _

theorem silent_renameCalls (sql old new : Text) : Silent k (renameCalls sql old new : Reporting Text) :=
  silent_replaceCalls (fun _ => silent_pure _) _ _

end

end DialectBridge
