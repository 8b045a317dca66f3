import DialectBridge.Proofs.Operands
/-!
# Replacing nested calls

What becomes of a call among whose arguments there are calls: its arguments are replaced first, one
by one from the right (`settles_join`), and then the call itself is read with the arguments that it
has by then (`Swept.call`). A call of another function keeps its name (`Swept.call_of_ne`).
-/
namespace DialectBridge
open Pattern LexState

variable {σ : Type} {name n r : Text} {f : Call → Editing σ (Option (Text × Nat))} {args args' : List Text}

/-- A replacing of calls makes the operand `t'` out of the operand `t`. -/
structure Swept (name : Text) (f : Call → Editing σ (Option (Text × Nat))) (t t' : Text) : Prop where
  before : Operand t
  after : Operand t'
  settles : Settles name f t t'

theorem Swept.self (hname : isName name = true) {t : Text} (ht : Operand t)
    (hp : ∀ p ∈ pieces (mask t), ¬ Spelled name p) : Swept name f t t :=
  ⟨ht, ht, settles_self hname ht.live hp⟩

theorem Swept.operands (h : List.Forall₂ (Swept name f) args args') :
    (∀ t ∈ args, Operand t) ∧ ∀ t ∈ args', Operand t := by
  induction h with
  | nil => simp
  | cons ht _ ih => exact ⟨by simpa using ⟨ht.before, ih.1⟩, by simpa using ⟨ht.after, ih.2⟩⟩

theorem not_spelled_singleton (hname : isName name = true) {c : Char} (hc : Unicode.isWordChar c = false) :
    ¬ Spelled name [c] := fun h => by
  rw [h.isWordChar hname c (by simp)] at hc
  exact absurd hc (by decide)

/-- The arguments of a call are replaced from the last one to the first. -/
theorem settles_join (hname : isName name = true) (h : List.Forall₂ (Swept name f) args args') :
    Settles name f (Text.join [',', ' '] args) (Text.join [',', ' '] args') := by
  induction h with
  | nil =>
    intro a b _ _
    simp [Text.join, List.intercalate]
  | @cons t t' args args' ht h ih =>
    intro a b ha hb
    by_cases hnil : args = []
    · obtain rfl : args' = [] := by
        subst hnil
        cases h
        rfl
      simpa [hnil, Text.join, List.intercalate] using ht.settles a b ha hb
    have hnil' : args' ≠ [] := by
      rintro rfl
      cases h
      exact hnil rfl
    have hlive : (code.after (a ++ t)).live = true := by
      rw [after_append, ha.code]
      exact ht.before.live
    rw [Text.join_cons hnil, Text.join_cons hnil', ← List.append_assoc, ← List.append_assoc a,
      ih _ b (.of_plain hlive (by decide) (by simp) (by decide)) hb,
      sweep_plain hname hlive (by decide) (by simp) (.of_ends (by decide) _),
      ht.settles a _ ha (.of_plain (by decide) (by simp) (by decide) _)]
    · simp
    · intro p hp
      have hpieces : pieces [',', ' '] = [[','], [' ']] := by decide
      rw [hpieces, List.mem_cons, List.mem_singleton] at hp
      rcases hp with rfl | rfl <;> exact not_spelled_singleton hname (by decide)

/-- What is left to look at when the arguments of a call are done. -/
theorem sweep_arguments (hname : isName name = true) (hn : IsWord n)
    (h : List.Forall₂ (Swept name f) args args') {a : Text} (b : Text) (ha : Front a) :
    sweep name f (a ++ callText n args) b =
      sweep name f (a ++ (n ++ ['('])) (Text.join [',', ' '] args' ++ ([')'] ++ b)) := by
  have hplain : ∀ c ∈ n ++ ['('], isPlain c = true := fun c hc => by
    rcases List.mem_append.1 hc with hc | hc
    · exact isPlain_of_isWordChar (hn.chars c hc)
    · obtain rfl := List.mem_singleton.1 hc
      decide
  have hfront : Front (a ++ (n ++ ['('])) :=
    .of_plain (by rw [ha.code]; rfl) hplain (by simp) (by rw [endsInWord_append (by simp)]; decide)
  have hlive : (code.after (a ++ (n ++ ['(']) ++ Text.join [',', ' '] args)).live = true := by
    rw [after_append, hfront.code]
    exact (mask_join fun t ht => ((Swept.operands h).1 t ht).live).2
  have hsplit : a ++ callText n args = a ++ (n ++ ['(']) ++ Text.join [',', ' '] args ++ [')'] := by
    simp [callText]
  rw [hsplit, sweep_plain hname hlive (by decide) (by simp) (.of_ends (by decide) _),
    settles_join hname h _ _ hfront (.of_plain (by decide) (by simp) (by decide) _)]
  intro p hp
  obtain rfl : p = [')'] := by simpa [show pieces [')'] = [[')']] by decide] using hp
  exact not_spelled_singleton hname (by decide)

/-- A call of another function keeps its name. -/
theorem Swept.call_of_ne (hname : isName name = true) (hn : IsWord n) (hne : ¬ Spelled name n)
    (h : List.Forall₂ (Swept name f) args args') : Swept name f (callText n args) (callText n args') := by
  refine ⟨operand_callText hn (Swept.operands h).1, operand_callText hn (Swept.operands h).2, ?_⟩
  intro a b ha hb
  have hplain : ∀ c ∈ n ++ ['('], isPlain c = true := fun c hc => by
    rcases List.mem_append.1 hc with hc | hc
    · exact isPlain_of_isWordChar (hn.chars c hc)
    · obtain rfl := List.mem_singleton.1 hc
      decide
  rw [sweep_arguments hname hn h b ha, sweep_plain hname (by rw [ha.code]; rfl) hplain (by simp)
    (.of_ends (by rw [endsInWord_append (by simp)]; decide) _)]
  · simp [callText]
  intro p hp
  rw [pieces_append (.of_begins (by decide) _), pieces_word hn.ne_nil hn.chars, List.mem_append] at hp
  rcases hp with hp | hp
  · rwa [List.mem_singleton.1 hp]
  obtain rfl : p = ['('] := by simpa [show pieces ['('] = [['(']] by decide] using hp
  exact not_spelled_singleton hname (by decide)

/-- A call whose arguments are done is read as it stands then, and is replaced. -/
theorem sweep_call (hname : isName name = true) (hn : Spelled name n) (hne : args ≠ [])
    (hargs : ∀ t ∈ args, Operand t) {e : Editing σ Unit}
    (hf : ∀ call : Call, call.inner = Text.join [',', ' '] args → call.args = args →
      f call = e >>= fun _ => pure (some (r, 0))) {a b : Text} (ha : Front a) (hb : Behind b) :
    sweep name f (a ++ (n ++ ['('])) (Text.join [',', ' '] args ++ ([')'] ++ b)) =
      e >>= fun _ => sweep name f a (r ++ b) := by
  have hword : IsWord n := ⟨hn.ne_nil hname, hn.isWordChar hname⟩
  have hopen : '('.utf8Size = 1 := by decide
  have hsql : a ++ (n ++ ['(']) ++ (Text.join [',', ' '] args ++ ([')'] ++ b)) = a ++ (callText n args ++ b) := by
    simp [callText]
  have hmask := mask_call_between hword hargs ha hb
  -- the head of the call is the last one that is left
  obtain ⟨m, hm, hstart, hstop⟩ := exists_mem_head hname (u := mask a) (b := [])
    (v := mask (Text.join [',', ' '] args) ++ ')' :: mask b) hn (by simp)
    (by rw [endsInWord_mask (by rw [ha.code]; rfl)]; exact ha.left)
  rw [width_mask] at hstart
  rw [Text.width_append, List.append_nil, width_mask, ← Text.width_append] at hstop
  have hlimit : Text.width (a ++ (n ++ ['('])) = m.stop := by
    rw [hstop]
    simp [hopen, Nat.add_assoc]
  rw [List.nil_append, ← hmask] at hm
  have hlt : m.start < m.stop := by
    rw [hstart, ← hlimit]
    simp [hopen]
  have hlast := lastBefore?_eq_some hm hlt (Nat.le_refl _)
  obtain ⟨closing, hclosing, hread⟩ := read?_callText hword hne hargs ha hb hstart hstop
  rw [sweep, hlimit, hsql, replaceCallsBefore_of_some hlast, hclosing]
  have hsplice := Text.splice?_append a (callText n args) b r
  rw [← Text.width_append, List.append_assoc, List.append_assoc] at hsplice
  simp only [hread, hf, hsplice, hstart, Nat.add_zero, Editing.lift_some_bind, pure_bind, bind_assoc]
  rfl

/-- A call of the function is replaced by what is made of it with its new arguments. -/
theorem Swept.call (hname : isName name = true) (hn : Spelled name n) (hne : args ≠ [])
    (h : List.Forall₂ (Swept name f) args args') (hr : Operand r)
    (hf : ∀ call : Call, call.inner = Text.join [',', ' '] args' → call.args = args' →
      f call = pure (some (r, 0))) : Swept name f (callText n args) r := by
  have hword : IsWord n := ⟨hn.ne_nil hname, hn.isWordChar hname⟩
  refine ⟨operand_callText hword (Swept.operands h).1, hr, ?_⟩
  intro a b ha hb
  have hne' : args' ≠ [] := by
    rintro rfl
    cases h
    exact hne rfl
  rw [sweep_arguments hname hword h b ha, sweep_call (e := pure ()) hname hn hne' (Swept.operands h).2
    (fun call hinner hcall => (hf call hinner hcall).trans (pure_bind _ _).symm) ha hb, pure_bind]

/-- The one call of the function in a text is replaced. -/
theorem replaceCalls_between {g : Call → Editing σ (Option Text)} (hname : isName name = true)
    (hn : Spelled name n) (hne : args ≠ []) {e : Editing σ Unit} {a b : Text} (ha : Front a) (hb : Behind b)
    (hargs : ∀ t ∈ args, Operand t) (hspares : ∀ t ∈ a :: b :: args, ∀ p ∈ pieces (mask t), ¬ Spelled name p)
    (hg : ∀ call : Call, call.inner = Text.join [',', ' '] args → call.args = args →
      g call = e >>= fun _ => pure (some r)) :
    replaceCalls (a ++ (callText n args ++ b)) name g = e >>= fun _ => pure (a ++ (r ++ b)) := by
  have hword : IsWord n := ⟨hn.ne_nil hname, hn.isWordChar hname⟩
  have hself : List.Forall₂ (Swept name fun call => do return (← g call).map fun r => (r, 0)) args args :=
    List.forall₂_same.2 fun t ht => .self hname (hargs t ht) (hspares t (by simp [ht]))
  have hcall : ∀ call : Call, call.inner = Text.join [',', ' '] args → call.args = args →
      (do return (← g call).map fun r => (r, 0)) = e >>= fun _ => pure (some (r, 0)) := fun call hinner hargs => by
    rw [hg call hinner hargs]
    simp only [bind_assoc, pure_bind]
    rfl
  rw [replaceCalls, replaceCallsWithTail_eq_sweep hname, sweep_behind hname ha (operand_callText hword hargs).live hb
    (hspares b (by simp)), sweep_arguments hname hword hself b ha, sweep_call hname hn hne hargs hcall ha hb]
  simp only [sweep_front hname ha (hspares a (by simp))]

end DialectBridge
