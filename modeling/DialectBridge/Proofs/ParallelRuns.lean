import DialectBridge.Proofs.Logs
import DialectBridge.Proofs.Outlines
/-!
# Runs side by side

Two edits run side by side if from one log they come to one log and to results that are related. Calls in
queries that are alike stand in the same places and have parts that are alike (`CallCut.paired`), so a loop
over calls keeps the queries alike if each call is replaced by texts that are stitched together from the same
seams and from parts that are alike (`parallel_replaceCallsBefore`).
-/
namespace DialectBridge
open Pattern LexState

variable {σ α β γ δ : Type}

/-- Whether two edits, started with one log, have results that are related and leave one log. -/
def Parallel (R : α → β → Prop) (x : Editing σ α) (y : Editing σ β) : Prop :=
  ∀ s, ∃ a b s', x.run s = some (a, s') ∧ y.run s = some (b, s') ∧ R a b

section
variable {R : α → β → Prop} {Q : γ → δ → Prop} {x : Editing σ α} {y : Editing σ β}

theorem parallel_pure {a : α} {b : β} (h : R a b) : Parallel R (pure a : Editing σ α) (pure b) := fun s =>
  ⟨a, b, s, rfl, rfl, h⟩

theorem Parallel.mono {R' : α → β → Prop} (h : Parallel R x y) (hR : ∀ a b, R a b → R' a b) : Parallel R' x y := by
  intro s
  obtain ⟨a, b, s', hx, hy, hab⟩ := h s
  exact ⟨a, b, s', hx, hy, hR a b hab⟩

theorem Parallel.bind {f : α → Editing σ γ} {g : β → Editing σ δ} (h : Parallel R x y)
    (hfg : ∀ a b, R a b → Parallel Q (f a) (g b)) : Parallel Q (x >>= f) (y >>= g) := by
  intro s
  obtain ⟨a, b, s₁, hx, hy, hR⟩ := h s
  obtain ⟨c, d, s₂, hf, hg, hQ⟩ := hfg a b hR s₁
  refine ⟨c, d, s₂, ?_, ?_, hQ⟩
  · rw [StateT.run_bind, hx]
    exact hf
  · rw [StateT.run_bind, hy]
    exact hg

theorem parallel_lift {a : α} {b : β} {o : Option α} {o' : Option β} (ho : o = some a) (ho' : o' = some b)
    (h : R a b) : Parallel R (liftM o : Editing σ α) (liftM o') := by
  subst ho ho'
  exact fun s => ⟨a, b, s, rfl, rfl, h⟩

/-- Two edits that keep no log. -/
theorem parallel_of_gives {a : α} {b : β} (hx : Gives x a) (hy : Gives y b) (hx' : ∀ s, Leads x s fun _ s' => s' = s)
    (hy' : ∀ s, Leads y s fun _ s' => s' = s) (h : R a b) : Parallel R x y := by
  intro s
  obtain ⟨s₁, h₁⟩ := hx s
  obtain ⟨s₂, h₂⟩ := hy s
  obtain rfl := hx' s _ _ h₁
  obtain rfl := hy' s₁ _ _ h₂
  exact ⟨a, b, s₂, h₁, h₂, h⟩

/-- An edit of the log alone, and then more. -/
theorem Parallel.after_modify {g : σ → σ} (h : Parallel R x y) :
    Parallel R (do modify g; x) (do modify g; y) := fun s => h (g s)

theorem parallel_foldlM {f : α → γ → Editing σ α} {R : α → α → Prop} {l : List γ}
    (hf : ∀ c ∈ l, ∀ a b, R a b → Parallel R (f a c) (f b c)) {a b : α} (h : R a b) :
    Parallel R (l.foldlM f a) (l.foldlM f b) := by
  induction l generalizing a b with
  | nil => exact parallel_pure h
  | cons c l ih =>
    refine (hf c (by simp) a b h).bind fun a' b' h' => ?_
    exact ih (fun c' hc' => hf c' (by simp [hc'])) h'

end

/-! ## Texts stitched together -/

/-- Whether a text can stand between parts: it begins with a plain character, and the lexer is never in a
comment to the end of the line and in code at the end. -/
structure Seam (u : Text) : Prop where
  head? : ∃ c ∈ u.head?, isPlain c = true
  code : code.after u = code
  unlined : Unlined u

instance (u : Text) : Decidable (Seam u) :=
  decidable_of_iff ((∃ c ∈ u.head?, isPlain c = true) ∧ LexState.code.after u = LexState.code ∧ Unlined u)
    ⟨fun ⟨hhead, hcode, hunlined⟩ => ⟨hhead, hcode, hunlined⟩, fun h => ⟨h.head?, h.code, h.unlined⟩⟩

/-- Two texts made of the same seams and of parts that are alike; the flag says whether they end with a part. -/
inductive Stitched : Bool → Text → Text → Prop where
  | seam {u : Text} (hu : Seam u) : Stitched false u u
  | part {t t' p p' : Text} (ht : Stitched false t t') (hp : Twin p p') : Stitched true (t ++ p) (t' ++ p')
  | sewn {b : Bool} {t t' u : Text} (ht : Stitched b t t') (hu : Seam u) : Stitched false (t ++ u) (t' ++ u)

section
variable {b : Bool} {s : LexState} {t t' u p p' y y' : Text}

theorem Seam.joins (h : Seam u) (hs : s.live = true) : s.joins u = true := by
  obtain ⟨c, hc, hplain⟩ := h.head?
  obtain ⟨u, rfl⟩ := List.head?_eq_some_iff.1 hc
  exact joins_of_live hs hplain

theorem Seam.after (h : Seam u) (hs : s.live = true) : s.after u = LexState.code := by
  have hne : u ≠ [] := by
    rintro rfl
    simpa using h.head?
  rw [after_of_joins (h.joins hs) hne, h.code]

theorem Seam.twin (h : Seam u) : Twin u u :=
  have hwhole : Whole u := ⟨h.unlined, by rw [h.code]; rfl⟩
  ⟨rfl, hwhole, hwhole⟩

theorem Stitched.around (h : Stitched false t t') (hp : Twin p p') (hu : Seam u) :
    Stitched false (t ++ p ++ u) (t' ++ p' ++ u) :=
  .sewn (.part h hp) hu

theorem Stitched.symm (h : Stitched b t t') : Stitched b t' t := by
  induction h with
  | seam hu => exact .seam hu
  | part _ hp ih => exact .part ih hp.symm
  | sewn _ hu ih => exact .sewn ih hu

theorem Stitched.head? (h : Stitched b t t') : ∃ c ∈ t.head?, isPlain c = true := by
  induction h with
  | seam hu => exact hu.head?
  | part _ _ ih | sewn _ _ ih =>
    obtain ⟨c, hc, hplain⟩ := ih
    exact ⟨c, by simp [List.head?_append, Option.mem_def.1 hc], hplain⟩

/-- Stitched texts are alike, and behind a seam the lexer is in code. -/
theorem Stitched.twin (h : Stitched b t t') :
    Twin t t' ∧ (b = false → code.after t = code ∧ code.after t' = code) := by
  induction h with
  | seam hu => exact ⟨hu.twin, fun _ => ⟨hu.code, hu.code⟩⟩
  | part _ hp ih =>
    obtain ⟨htwin, hcode⟩ := ih
    obtain ⟨hcode, hcode'⟩ := hcode rfl
    exact ⟨htwin.append hp (by rw [hcode, joins_code]) (by rw [hcode', joins_code]), by simp⟩
  | sewn _ hu ih =>
    have hlive := ih.1.left.live
    have hlive' := ih.1.right.live
    refine ⟨ih.1.append hu.twin (hu.joins hlive) (hu.joins hlive'), fun _ => ?_⟩
    rw [after_append, after_append, hu.after hlive, hu.after hlive']
    exact ⟨rfl, rfl⟩

theorem Stitched.joins (h : Stitched b t t') (hs : s.live = true) (r : Text) : s.joins (t ++ r) = true := by
  obtain ⟨c, hc, hplain⟩ := h.head?
  obtain ⟨t, rfl⟩ := List.head?_eq_some_iff.1 hc
  exact joins_of_live hs hplain

/-- Stitched texts in the place of others, behind texts that are alike and before texts that are. -/
theorem Stitched.between {x x' : Text} (h : Stitched false t t') (hx : Paired x x')
    (hlive : (code.after x).live = true) (hlive' : (code.after x').live = true) (hy : Paired y y') :
    Paired (x ++ (t ++ y)) (x' ++ (t' ++ y')) := by
  obtain ⟨htwin, hcode⟩ := h.twin
  obtain ⟨hcode, hcode'⟩ := hcode rfl
  refine hx.append (htwin.paired.append hy ?_ ?_) (h.joins hlive y) (h.symm.joins hlive' y')
  · rw [hcode, joins_code]
  · rw [hcode', joins_code]

end

/-! ## Calls -/

section
variable {name sql sql' : Text} {m : Match} {closing : Nat} {x h inside y x' h' inside' y' : Text} {ps ps' : List Text}

/-- The parts of two queries around and inside of a call. -/
theorem CallCut.paired (hcut : CallCut name sql m closing x h inside y ps)
    (hcut' : CallCut name sql' m closing x' h' inside' y' ps') (hsql : Paired sql sql') :
    Paired x x' ∧ Twin inside inside' ∧ Paired y y' := by
  have hstart := hcut.start.symm.trans hcut'.start
  have hstop := hcut.stop.symm.trans hcut'.stop
  have hshut := hcut.shut.symm.trans hcut'.shut
  have hopen : '('.utf8Size = 1 := by decide
  simp only [Text.width_append, Text.width_cons, hopen] at hstop hshut
  have hsplit : ∀ x h inside y : Text, x ++ (h ++ '(' :: (inside ++ ')' :: y)) =
      x ++ h ++ ['('] ++ (inside ++ ')' :: y) := fun x h inside y => by simp
  have houter := hsql
  rw [hcut.split, hcut'.split] at houter hsql
  obtain ⟨hx, -⟩ := houter.parts hcut.joins hstart
  rw [hsplit, hsplit] at hsql
  obtain ⟨-, hbehind⟩ := hsql.parts (by rw [hcut.opened, joins_code])
    (by simp only [Text.width_append, Text.width_cons, Text.width_nil, hopen]; omega)
  obtain ⟨hinside, hbehind⟩ := hbehind.parts (joins_of_live hcut.closed (by decide)) (by omega)
  exact ⟨hx, hinside.twin hcut.closed hcut'.closed, hbehind.of_cons (by decide)⟩

/-- The pieces between commas in the same places. -/
theorem twins_of_join (hps : ∀ p ∈ ps, (code.after p).live = true) (hps' : ∀ p ∈ ps', (code.after p).live = true)
    (hwidths : ps.map Text.width = ps'.map Text.width) (h : Paired (Text.join [','] ps) (Text.join [','] ps')) :
    List.Forall₂ Twin ps ps' := by
  induction ps generalizing ps' with
  | nil =>
    obtain rfl : ps' = [] := by simpa using hwidths.symm
    exact .nil
  | cons p ps ih =>
    match ps', hwidths with
    | p' :: ps', hwidths =>
    obtain ⟨hwidth, hwidths⟩ := List.cons.inj hwidths
    rw [List.forall_mem_cons] at hps hps'
    by_cases hnil : ps = []
    · subst hnil
      obtain rfl : ps' = [] := by simpa using hwidths.symm
      exact .cons (Paired.twin (by simpa [Text.join, List.intercalate] using h) hps.1 hps'.1) .nil
    have hnil' : ps' ≠ [] := by
      rintro rfl
      exact hnil (by simpa using hwidths)
    rw [Text.join_cons hnil, Text.join_cons hnil', List.append_assoc, List.append_assoc] at h
    obtain ⟨hp, h⟩ := h.parts (joins_of_live hps.1 (by decide)) hwidth
    exact .cons (hp.twin hps.1 hps'.1) (ih hps.2 hps'.2 hwidths (h.of_cons (by decide)))

/-- Two calls of which the arguments, the text between the parentheses and the text behind them are alike. -/
structure CallsAlike (c c' : Call) : Prop where
  inner : Twin c.inner c'.inner
  args : List.Forall₂ Twin c.args c'.args
  tail : Paired c.tail c'.tail

theorem CallCut.args_alike (hcut : CallCut name sql m closing x h inside y ps)
    (hcut' : CallCut name sql' m closing x' h' inside' y' ps') (hinside : Twin inside inside') :
    List.Forall₂ Twin (if ps.map Text.trim = [[]] then [] else ps.map Text.trim)
      (if ps'.map Text.trim = [[]] then [] else ps'.map Text.trim) := by
  have hwidths : ps.map Text.width = ps'.map Text.width := by
    rw [hcut.widths, hcut'.widths, hinside.alike.mask_eq]
  have hjoined := hinside.paired
  rw [hcut.arguments.joined, hcut'.arguments.joined] at hjoined
  have htrims : List.Forall₂ Twin (ps.map Text.trim) (ps'.map Text.trim) := by
    rw [List.forall₂_map_left_iff, List.forall₂_map_right_iff]
    exact (twins_of_join hcut.arguments.live hcut'.arguments.live hwidths hjoined).imp fun _ _ => Twin.trim
  have hblank : ∀ l l' : List Text, List.Forall₂ Twin l l' → l = [[]] → l' = [[]] := by
    rintro _ _ (_ | ⟨hp, _ | _⟩) hl
    · exact hl
    · obtain rfl : _ = [] := (List.cons.inj hl).1
      rw [hp.alike.eq_nil]
    · simp at hl
  have hiff : ps.map Text.trim = [[]] ↔ ps'.map Text.trim = [[]] :=
    ⟨hblank _ _ htrims, hblank _ _ (htrims.flip.imp fun _ _ => Twin.symm)⟩
  by_cases hnone : ps.map Text.trim = [[]]
  · rw [if_pos hnone, if_pos (hiff.1 hnone)]
    exact .nil
  · rwa [if_neg hnone, if_neg fun h => hnone (hiff.2 h)]

end

/-- What two calls, with `y` and `y'` behind them, may be replaced by: nothing, or stitched texts for the calls
and for as many bytes of what is behind them. -/
inductive Replacements (y y' : Text) : Option (Text × Nat) → Option (Text × Nat) → Prop where
  | none : Replacements y y' none none
  | some {t t' k k' z z' : Text} (ht : Stitched false t t') (hy : y = k ++ z) (hy' : y' = k' ++ z')
      (hwidth : Text.width k = Text.width k') (hz : Paired z z') :
      Replacements y y' (some (t, Text.width k)) (some (t', Text.width k'))

theorem replaceCallsBefore_eq_of_none {name : Text} {f : Call → Editing σ (Option (Text × Nat))} {limit : Nat}
    {sql : Text} (h : Call.lastBefore? name (mask sql) limit = none) :
    replaceCallsBefore name f limit sql = pure sql := by
  rw [replaceCallsBefore]
  split
  · rfl
  · simp_all

/-- One round of the loop over calls. -/
theorem replaceCallsBefore_eq_of_some {name : Text} {f : Call → Editing σ (Option (Text × Nat))} {limit : Nat}
    {sql : Text} {m : Match} (h : Call.lastBefore? name (mask sql) limit = some m) :
    replaceCallsBefore name f limit sql =
      (match matchingParen? (mask sql) (m.stop - 1) with
      | none => replaceCallsBefore name f m.start sql
      | some closing => do
        let call ← Call.read? sql (mask sql) m closing
        match ← f call with
        | none => replaceCallsBefore name f m.start sql
        | some (replacement, consumed) => do
          let next ← Text.splice? sql call.start (call.stop + consumed) replacement
          replaceCallsBefore name f m.start next) := by
  rw [replaceCallsBefore]
  split
  · simp_all
  · rename_i m' hm'
    obtain rfl : m' = m := Option.some.inj (hm'.symm.trans h)
    rfl

/-- The call, and the first bytes of what stands behind it, can be replaced. -/
theorem CallCut.splice_eq {name sql x h inside y t k z : Text} {m : Match} {closing : Nat} {ps : List Text}
    (hcut : CallCut name sql m closing x h inside y ps) (hy : y = k ++ z) :
    Text.splice? sql (Text.width x) (Text.width (x ++ h ++ '(' :: inside) + 1 + Text.width k) t =
      some (x ++ (t ++ z)) := by
  have hsplice := Text.splice?_append x (h ++ '(' :: (inside ++ ')' :: k)) z t
  have hsplit : sql = x ++ (h ++ '(' :: (inside ++ ')' :: k)) ++ z := by
    rw [hcut.split, hy]
    simp
  have hstop : Text.width x + Text.width (h ++ '(' :: (inside ++ ')' :: k)) =
      Text.width (x ++ h ++ '(' :: inside) + 1 + Text.width k := by
    have hclose : ')'.utf8Size = 1 := by decide
    simp only [Text.width_append, Text.width_cons, hclose]
    omega
  rw [← hsplit, hstop] at hsplice
  rw [hsplice, List.append_assoc]

/-- A loop over calls keeps queries alike if each round does. -/
theorem parallel_replaceCallsBefore {name : Text} (hname : isName name = true)
    {f : Call → Editing σ (Option (Text × Nat))}
    (hf : ∀ c c', CallsAlike c c' → Parallel (Replacements c.tail c'.tail) (f c) (f c')) (limit : Nat)
    {a b : Text} (h : Paired a b) :
    Parallel Paired (replaceCallsBefore name f limit a) (replaceCallsBefore name f limit b) := by
  induction limit using Nat.strongRecOn generalizing a b with
  | ind limit ih =>
    have hmask := h.alike.mask_eq
    cases hlast : Call.lastBefore? name (mask a) limit with
    | none =>
      rw [replaceCallsBefore_eq_of_none hlast, replaceCallsBefore_eq_of_none (by rwa [← hmask])]
      exact parallel_pure h
    | some m =>
    have hlt := Call.start_lt_of_lastBefore? hlast
    have hm := List.mem_reverse.1 (List.mem_of_find?_eq_some hlast)
    have hround := replaceCallsBefore_eq_of_some (f := f) hlast
    have hround' := replaceCallsBefore_eq_of_some (f := f) (hmask ▸ hlast)
    rw [hround, hround', ← hmask]
    cases hclosing : matchingParen? (mask a) (m.stop - 1) with
    | none => exact ih _ hlt h
    | some closing =>
    obtain ⟨x, g, inside, y, ps, hcut⟩ := exists_callCut hname hm hclosing
    obtain ⟨x', g', inside', y', ps', hcut'⟩ := exists_callCut hname (hmask ▸ hm) (hmask ▸ hclosing)
    obtain ⟨hx, hinside, hy⟩ := hcut.paired hcut' h
    refine (parallel_lift hcut.read (hmask ▸ hcut'.read) ⟨rfl, rfl⟩ :
      Parallel (fun c c' => c = _ ∧ c' = _) _ _).bind fun c c' ⟨hc, hc'⟩ => ?_
    have hcalls : CallsAlike c c' := by
      rw [hc, hc']
      exact ⟨hinside, hcut.args_alike hcut' hinside, hy⟩
    refine (hf c c' hcalls).bind fun r r' hr => ?_
    cases hr with
    | none => exact ih _ hlt h
    | @some t t' k k' z z' ht hk hk' hwidth hz =>
      rw [hc] at hk ⊢
      rw [hc'] at hk' ⊢
      refine (parallel_lift (hcut.splice_eq hk) (hcut'.splice_eq hk') ?_).bind fun _ _ => ih _ hlt
      exact ht.between hx hcut.live hcut'.live hz

theorem parallel_replaceCallsWithTail {name : Text} (hname : isName name = true)
    {f : Call → Editing σ (Option (Text × Nat))}
    (hf : ∀ c c', CallsAlike c c' → Parallel (Replacements c.tail c'.tail) (f c) (f c')) {a b : Text}
    (h : Paired a b) : Parallel Paired (replaceCallsWithTail a name f) (replaceCallsWithTail b name f) := by
  rw [replaceCallsWithTail, replaceCallsWithTail, h.alike.width_eq]
  exact parallel_replaceCallsBefore hname hf _ h

theorem parallel_replaceCalls {name : Text} (hname : isName name = true) {f : Call → Editing σ (Option Text)}
    (hf : ∀ c c', CallsAlike c c' → Parallel (Option.Rel (Stitched false)) (f c) (f c')) {a b : Text}
    (h : Paired a b) : Parallel Paired (replaceCalls a name f) (replaceCalls b name f) := by
  refine parallel_replaceCallsWithTail hname (fun c c' hc => (hf c c' hc).bind fun r r' hr => parallel_pure ?_) h
  cases hr with
  | none => exact .none
  | some ht =>
    have hput := Replacements.some ht (List.nil_append c.tail).symm (List.nil_append c'.tail).symm rfl hc.tail
    rwa [Text.width_nil] at hput

end DialectBridge
