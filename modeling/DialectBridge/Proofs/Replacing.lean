import DialectBridge.Pattern.Replacement
import DialectBridge.Proofs.Finding
/-!
# Replacing from left to right

The matches of a pattern are listed before any of them is replaced. For a pattern that takes some text in
each match this comes to one walk over the text (`walk_induction`): a character at which nothing matches stays
(`replaceFrom_cons_of_none`), and a match gives way to its replacement, behind which the walk goes on
(`replaceFrom_of_some`).
-/
namespace DialectBridge.Pattern
open Cursor

variable {p : Pattern} {f : Match → Text} {u w v t : Text} {c : Char} {m : Match}

/-! ## The walk over a text -/

/-- The matches in the text `t` that stands behind `u`. -/
def matchesFrom (p : Pattern) (u t : Text) : List Match := p.findAllFrom p.leading? 0 false false (.of u) t

theorem findAll_eq_matchesFrom (p : Pattern) (t : Text) : p.findAll t = p.matchesFrom [] t := rfl

/-- A text is read from one match to the next, and from one character to the next where nothing matches. -/
@[elab_as_elim]
theorem walk_induction (hp : p.Consuming) {motive : Text → Text → Prop} (nil : ∀ u, motive u [])
    (skip : ∀ u c t, p.matchAt? (between u (c :: t)) = none → motive (u ++ [c]) t → motive u (c :: t))
    (found : ∀ u w v m, p.matchAt? (between u (w ++ v)) = some m → m.first = between u (w ++ v) →
      m.last = between (u ++ w) v → motive (u ++ w) v → motive u (w ++ v)) (u t : Text) : motive u t := by
  induction hn : t.length using Nat.strongRecOn generalizing u t with
  | ind n ih =>
    cases t with
    | nil => exact nil u
    | cons c t =>
      cases hm : p.matchAt? (between u (c :: t)) with
      | none => exact skip u c t hm (ih _ (by simp [← hn]) _ t rfl)
      | some m =>
        obtain ⟨w, v, hsplit, hfirst, hlast, htakes⟩ := matchAt?_eq_some hm
        have hpos := List.length_pos_iff.2 (hp _ _ _ ⟨_, _, htakes⟩)
        rw [hsplit] at hm hn ⊢
        refine found u w v m hm hfirst hlast (ih _ ?_ _ v rfl)
        rw [← hn, List.length_append]
        omega

/-- Behind a match the search goes on as it does anywhere. -/
theorem findAllFrom_touching (hp : p.Consuming) (touching : Bool) (u t : Text) :
    p.findAllFrom p.leading? 0 touching false (.of u) t = p.findAllFrom p.leading? 0 false false (.of u) t := by
  cases t with
  | nil =>
    simp only [findAllFrom, Bool.false_eq_true, if_false]
    cases hm : p.matchAt? ⟨.of u, []⟩ with
    | none => rfl
    | some m =>
      have hle := width_le_of_matchAt? (p := p) (u := u) (x := []) hm
      exact absurd (Nat.le_zero.1 hle) (hp.width_ne_zero (u := u) hm)
  | cons c t =>
    simp only [findAllFrom, Bool.false_eq_true, if_false]
    cases hm : p.matchAt? ⟨.of u, c :: t⟩ with
    | none => rfl
    | some m =>
      cases hw : m.width with
      | zero => exact absurd hw (hp.width_ne_zero (u := u) hm)
      | succ n => simp [hw]

/-- The bytes of a match are skipped. -/
theorem findAllFrom_skip (touching : Bool) (u w t : Text) :
    p.findAllFrom p.leading? (Text.width w) touching false (.of u) (w ++ t) =
      p.findAllFrom p.leading? 0 touching false (.of (u ++ w)) t := by
  induction w generalizing u with
  | nil => rw [Text.width_nil, List.nil_append, List.append_nil]
  | cons c w ih =>
    obtain ⟨n, hn⟩ : ∃ n, Text.width (c :: w) = n + 1 :=
      ⟨_, (Nat.succ_pred_eq_of_pos (Text.width_pos (by simp))).symm⟩
    have hrest : n + 1 - c.utf8Size = Text.width w := by
      rw [← hn, Text.width_cons, Nat.add_sub_cancel_left]
    rw [hn, List.cons_append, findAllFrom, hrest, Passed.add_of, ih, List.append_assoc, List.singleton_append]

theorem matchesFrom_nil (hp : p.Consuming) (u : Text) : p.matchesFrom u [] = [] := by
  rw [List.eq_nil_iff_forall_not_mem]
  intro m hm
  obtain ⟨a, b, hab, hat, -⟩ := exists_of_mem_findAllFrom (p := p) (l := u) (by simp) hm
  obtain ⟨rfl, rfl⟩ := List.append_eq_nil_iff.1 hab.symm
  exact hp.width_ne_zero hat (Nat.le_zero.1 (width_le_of_matchAt? hat))

theorem matchesFrom_cons_of_none (h : p.matchAt? (between u (c :: t)) = none) :
    p.matchesFrom u (c :: t) = p.matchesFrom (u ++ [c]) t := by
  rw [matchesFrom, findAllFrom_cons_of_none h, Passed.add_of]
  rfl

theorem matchesFrom_of_some (hp : p.Consuming) (h : p.matchAt? (between u (w ++ v)) = some m)
    (hlast : m.last = between (u ++ w) v) : p.matchesFrom u (w ++ v) = m :: p.matchesFrom (u ++ w) v := by
  obtain ⟨w', v', hsplit, hfirst, hlast', -⟩ := matchAt?_eq_some h
  obtain ⟨hw', -⟩ := between_inj.1 (hlast'.symm.trans hlast)
  obtain rfl := List.append_cancel_left hw'
  obtain rfl := List.append_cancel_left hsplit
  have hwidth : m.width = Text.width w' := by simp [Match.width, Match.start, Match.stop, hfirst, hlast]
  have hne := hp.width_ne_zero h
  obtain ⟨c, w, rfl⟩ : ∃ c w, w' = c :: w := by
    refine List.exists_cons_of_ne_nil ?_
    rintro rfl
    exact hne hwidth
  obtain ⟨n, hn⟩ : ∃ n, m.width = n + 1 := Nat.exists_eq_succ_of_ne_zero hne
  have hskip : n + 1 - c.utf8Size = Text.width w := by
    rw [← hn, hwidth, Text.width_cons, Nat.add_sub_cancel_left]
  have hat : p.matchAt? ⟨.of u, c :: (w ++ v)⟩ = some m := h
  simp only [matchesFrom, List.cons_append, findAllFrom, Bool.false_eq_true, if_false, hat, hn]
  rw [hskip, Passed.add_of, findAllFrom_skip, findAllFrom_touching hp, List.append_assoc, List.singleton_append]

/-! ## What comes out -/

/-- What replacing makes of the text `t` that stands behind `u`. -/
def replaceFrom (p : Pattern) (f : Match → Text) (u t : Text) : Text :=
  replaceMatches f (between u t) (p.matchesFrom u t)

theorem replaceAllBy_eq_replaceFrom (p : Pattern) (f : Match → Text) (t : Text) :
    p.replaceAllBy f t = p.replaceFrom f [] t := rfl

theorem replaceFrom_nil (hp : p.Consuming) (f : Match → Text) (u : Text) : p.replaceFrom f u [] = [] := by
  rw [replaceFrom, matchesFrom_nil hp]
  rfl

/-- A character at which nothing matches stays. -/
theorem replaceFrom_cons_of_none (h : p.matchAt? (between u (c :: t)) = none) :
    p.replaceFrom f u (c :: t) = c :: p.replaceFrom f (u ++ [c]) t := by
  rw [replaceFrom, replaceFrom, matchesFrom_cons_of_none h]
  cases hms : p.matchesFrom (u ++ [c]) t with
  | nil => rfl
  | cons m ms =>
    obtain ⟨a, b, rfl, hm, -⟩ :=
      exists_of_mem_findAllFrom (p := p) (l := u ++ [c]) (by simp) (hms ▸ List.mem_cons_self)
    obtain ⟨w, v, rfl, hfirst, -, -⟩ := matchAt?_eq_some hm
    have hbefore : (between u (c :: (a ++ (w ++ v)))).upTo m.first = c :: a := by
      have := upTo_between u (c :: a) (w ++ v)
      rw [hfirst]
      simpa using this
    have hbehind : (between (u ++ [c]) (a ++ (w ++ v))).upTo m.first = a := by
      rw [hfirst]
      exact upTo_between _ _ _
    rw [replaceMatches, replaceMatches, hbefore, hbehind]
    rfl

/-- A text in which nothing begins to match stays. -/
theorem replaceFrom_append_of_none {s : Text}
    (h : ∀ a c b, s = a ++ c :: b → p.matchAt? (between (u ++ a) (c :: (b ++ t))) = none) :
    p.replaceFrom f u (s ++ t) = s ++ p.replaceFrom f (u ++ s) t := by
  induction s generalizing u with
  | nil => simp
  | cons c s ih =>
    have hnone : p.matchAt? (between u (c :: (s ++ t))) = none := by simpa using h [] c s rfl
    rw [List.cons_append, replaceFrom_cons_of_none hnone, ih fun a d b hs => ?_]
    · simp
    · simpa using h (c :: a) d b (by rw [hs]; rfl)

/-- A match is replaced, and what follows it too. -/
theorem replaceFrom_of_some (hp : p.Consuming) (h : p.matchAt? (between u (w ++ v)) = some m)
    (hlast : m.last = between (u ++ w) v) :
    p.replaceFrom f u (w ++ v) = f m ++ p.replaceFrom f (u ++ w) v := by
  obtain ⟨w', v', hsplit, hfirst, -, -⟩ := matchAt?_eq_some h
  have hnil : (between u (w ++ v)).upTo m.first = [] := by
    rw [hfirst, ← hsplit]
    simpa using upTo_between u [] (w ++ v)
  rw [replaceFrom, replaceFrom, matchesFrom_of_some hp h hlast, replaceMatches, hnil, hlast, List.nil_append]

/-- What comes out has only characters of the text and of the replacements. -/
theorem forall_mem_replaceFrom {P : Char → Prop} (hp : p.Consuming)
    (hf : ∀ u x m, p.matchAt? (between u x) = some m → (∀ c ∈ u ++ x, P c) → ∀ c ∈ f m, P c) (u t : Text)
    (h : ∀ c ∈ u ++ t, P c) : ∀ c ∈ p.replaceFrom f u t, P c := by
  induction u, t using walk_induction hp with
  | nil u => simp [replaceFrom_nil hp]
  | skip u c t hnone ih =>
    rw [replaceFrom_cons_of_none hnone, List.forall_mem_cons]
    exact ⟨h c (by simp), ih (by simpa using h)⟩
  | found u w v m hm hfirst hlast ih =>
    rw [replaceFrom_of_some hp hm hlast, List.forall_mem_append]
    exact ⟨hf u _ m hm h, ih (by simpa using h)⟩

theorem replaceFrom_ne_nil (hp : p.Consuming) (hf : ∀ m, f m ≠ []) (u : Text) (ht : t ≠ []) :
    p.replaceFrom f u t ≠ [] := by
  obtain ⟨c, t, rfl⟩ := List.exists_cons_of_ne_nil ht
  cases hm : p.matchAt? (between u (c :: t)) with
  | none => simp [replaceFrom_cons_of_none hm]
  | some m =>
    obtain ⟨w, v, hsplit, -, hlast, -⟩ := matchAt?_eq_some hm
    rw [hsplit] at hm ⊢
    simp [replaceFrom_of_some hp hm hlast, hf m]

/-- A text in which each match is replaced by a shorter text stays as long as it is only if nothing matches. -/
theorem length_replaceFrom (hp : p.Consuming)
    (hf : ∀ u w v m, p.matchAt? (between u (w ++ v)) = some m → m.last = between (u ++ w) v →
      (f m).length < w.length) (u t : Text) :
    (p.replaceFrom f u t).length ≤ t.length ∧
      ((p.replaceFrom f u t).length = t.length → p.matchesFrom u t = []) := by
  induction u, t using walk_induction hp with
  | nil u => simp [replaceFrom_nil hp, matchesFrom_nil hp]
  | skip u c t hnone ih =>
    simpa [replaceFrom_cons_of_none hnone, matchesFrom_cons_of_none hnone] using ih
  | found u w v m hm hfirst hlast ih =>
    have hshort := hf u w v m hm hlast
    rw [replaceFrom_of_some hp hm hlast, List.length_append, List.length_append]
    omega

/-- Where each match is replaced by a shorter text, a text stays as it is just if nothing matches. -/
theorem replaceAllBy_eq_self_iff (hp : p.Consuming)
    (hf : ∀ u w v m, p.matchAt? (between u (w ++ v)) = some m → m.last = between (u ++ w) v →
      (f m).length < w.length) : p.replaceAllBy f t = t ↔ p.findAll t = [] := by
  refine ⟨fun h => (length_replaceFrom hp hf [] t).2 (congrArg List.length h), fun h => ?_⟩
  rw [replaceAllBy, h]
  rfl

theorem findAll_eq_nil_iff (hp : p.Consuming) : p.findAll t = [] ↔ p.occursIn t = false := by
  constructor
  · intro h
    rw [Bool.eq_false_iff]
    intro hoccurs
    obtain ⟨m, hm⟩ := Option.isSome_iff_exists.1 hoccurs
    obtain ⟨u, x, rfl, hat⟩ := exists_of_find? hm
    rcases mem_findAll_or_exists hp hat with hmem | ⟨m', hmem, -⟩ <;> simp [h] at hmem
  · intro h
    refine findAll_eq_nil fun u w v hsplit hw => ?_
    rw [hsplit, occursIn_of_matches hw] at h
    cases h

end DialectBridge.Pattern
