import DialectBridge.Proofs.Tokens
/-!
# Marks in order

The skeleton of a subquery is known by its marks: three runs of pieces that stand in it one after the
other. An edit that takes out a filler, which is a run of pieces that cannot be a part of a mark, leaves
the marks where they are (`Marked.replace`). So does a call that is written anew around its arguments
(`Marked.resew`).
-/
namespace DialectBridge

/-- The marks stand in the pieces, one after the other. -/
def Marked : List (List Text) → List Text → Prop
  | [], _ => True
  | mark :: marks, l => ∃ a c, l = a ++ (mark ++ c) ∧ Marked marks c

/-- The pieces that are found in marks only, as far as this matters. -/
def markWords : List Text := ["SELECT", "STRING_AGG", "dv", "FROM", "DISTINCT", "<", "source_table", ">"]

/-- The other pieces of marks. -/
def markSeams : List Text := [" ", "("]

/-- A mark begins and ends with a piece of its own. -/
structure IsMark (mark : List Text) : Prop where
  first : ∃ p ∈ mark.head?, p ∈ markWords
  last : ∃ p ∈ mark.getLast?, p ∈ markWords
  pieces : ∀ p ∈ mark, p ∈ markWords ∨ p ∈ markSeams

/-- A run of pieces that is no part of a mark. -/
structure IsFiller (r : List Text) : Prop where
  spared : ∀ p ∈ r, p ∉ markWords
  foreign : ∃ p ∈ r, p ∉ markSeams

section
variable {marks : List (List Text)} {m l r t i a c : List Text}

/-- A filler and a mark do not overlap. -/
theorem IsFiller.before_or_behind (hr : IsFiller r) (hm : IsMark m) (h : l ++ (r ++ t) = a ++ (m ++ c)) :
    (∃ k, l = a ++ (m ++ k) ∧ c = k ++ (r ++ t)) ∨ ∃ k, t = k ++ (m ++ c) ∧ a = l ++ (r ++ k) := by
  rcases List.append_eq_append_iff.1 h with ⟨k, rfl, hk⟩ | ⟨k, rfl, hk⟩
  · rcases List.append_eq_append_iff.1 hk with ⟨k, rfl, rfl⟩ | ⟨e, rfl, he⟩
    · exact .inr ⟨k, rfl, rfl⟩
    · cases e with
      | nil => exact .inr ⟨[], by simpa using he.symm, by simp⟩
      | cons p e =>
        -- the mark would begin inside of the filler
        obtain ⟨q, hq, hword⟩ := hm.first
        obtain ⟨m, rfl⟩ := List.head?_eq_some_iff.1 hq
        obtain ⟨rfl, -⟩ := List.cons.inj he
        exact absurd hword (hr.spared _ (by simp))
  · rcases List.append_eq_append_iff.1 hk with ⟨k, rfl, rfl⟩ | ⟨e, rfl, he⟩
    · exact .inl ⟨k, rfl, rfl⟩
    · by_cases hnil : e = []
      · subst hnil
        exact .inl ⟨[], by simp, by simpa using he.symm⟩
      · rcases List.append_eq_append_iff.1 he with ⟨k', rfl, -⟩ | ⟨k', rfl, -⟩
        · -- the filler would be inside of the mark
          obtain ⟨p, hp, hforeign⟩ := hr.foreign
          rcases hm.pieces p (by simp [hp]) with hword | hseam
          · exact absurd hword (hr.spared p hp)
          · exact absurd hseam hforeign
        · -- the mark would end inside of the filler
          obtain ⟨q, hq, hword⟩ := hm.last
          rw [List.getLast?_append_of_ne_nil _ hnil] at hq
          exact absurd hword (hr.spared q (List.mem_append_left _ (List.mem_of_getLast? hq)))

theorem Marked.append_left (h : Marked marks l) (a : List Text) : Marked marks (a ++ l) := by
  cases marks with
  | nil => trivial
  | cons m marks =>
    obtain ⟨b, c, rfl, h⟩ := h
    exact ⟨a ++ b, c, by simp, h⟩

theorem Marked.append_right (h : Marked marks l) (a : List Text) : Marked marks (l ++ a) := by
  induction marks generalizing l with
  | nil => trivial
  | cons m marks ih =>
    obtain ⟨b, c, rfl, h⟩ := h
    exact ⟨b, c ++ a, by simp, ih h⟩

/-- A filler can be replaced. -/
theorem Marked.replace (hmarks : ∀ m ∈ marks, IsMark m) (hr : IsFiller r) (h : Marked marks (l ++ (r ++ t))) :
    Marked marks (l ++ (i ++ t)) := by
  induction marks generalizing l with
  | nil => trivial
  | cons m marks ih =>
    obtain ⟨a, c, hsplit, h⟩ := h
    have ih := fun {l} => ih (l := l) fun m hm => hmarks m (List.mem_cons_of_mem _ hm)
    rcases hr.before_or_behind (hmarks m (by simp)) hsplit with ⟨k, rfl, rfl⟩ | ⟨k, rfl, rfl⟩
    · exact ⟨a, k ++ (i ++ t), by simp, ih h⟩
    · exact ⟨l ++ (i ++ k), c, by simp, h⟩

/-- Pieces that are in no mark can be replaced one by one. -/
theorem Marked.flatMap {f : Text → List Text} (hf : ∀ m ∈ marks, ∀ p ∈ m, f p = [p]) (h : Marked marks l) :
    Marked marks (l.flatMap f) := by
  induction marks generalizing l with
  | nil => trivial
  | cons m marks ih =>
    obtain ⟨a, c, rfl, h⟩ := h
    refine ⟨a.flatMap f, c.flatMap f, ?_, ih (fun m hm => hf m (List.mem_cons_of_mem _ hm)) h⟩
    rw [List.flatMap_append, List.flatMap_append, List.flatMap_congr (hf m (by simp)), List.flatMap_singleton']

end

/-! ## Parts sewn together -/

/-- Pieces made of the given parts, in order, with a run that satisfies `Q` in front of each and at the
end. -/
inductive Sewn (Q : List Text → Prop) : List (List Text) → List Text → Prop
  | last {g : List Text} : Q g → Sewn Q [] g
  | part {g p l : List Text} {parts : List (List Text)} : Q g → Sewn Q parts l → Sewn Q (p :: parts) (g ++ (p ++ l))

section
variable {Q : List Text → Prop} {marks parts : List (List Text)} {a b l l' m : List Text}

theorem Sewn.mem_of_part {q : Text} (h : Sewn Q parts l) (hp : p ∈ parts) (hq : q ∈ p) : q ∈ l := by
  induction h with
  | last _ => simp at hp
  | part _ _ ih =>
    rcases List.mem_cons.1 hp with rfl | hp
    · simp [hq]
    · simp [ih hp]

/-- What is sewn with fillers can be sewn anew. -/
theorem Marked.resew (hmarks : ∀ m ∈ marks, IsMark m) (h : Sewn IsFiller parts l) (h' : Sewn Q parts l')
    (hl : Marked marks (a ++ (l ++ b))) : Marked marks (a ++ (l' ++ b)) := by
  induction h generalizing a l' with
  | last hg =>
    cases h' with
    | last _ => exact hl.replace hmarks hg
  | @part g p l parts hg _ ih =>
    cases h' with
    | @part g' _ k _ _ h' =>
      have hl : Marked marks (a ++ (g' ++ (p ++ (l ++ b)))) :=
        .replace hmarks hg (by simpa only [List.append_assoc] using hl)
      have hl := ih h' (a := a ++ (g' ++ p)) (by simpa only [List.append_assoc] using hl)
      simpa only [List.append_assoc] using hl

theorem IsFiller.append_left (h : IsFiller l) (ha : ∀ p ∈ a, p ∉ markWords) : IsFiller (a ++ l) := by
  obtain ⟨p, hp, hforeign⟩ := h.foreign
  refine ⟨fun q hq => (List.mem_append.1 hq).elim (ha q) (h.spared q), p, by simp [hp], hforeign⟩

theorem IsFiller.append_right (h : IsFiller l) (ha : ∀ p ∈ a, p ∉ markWords) : IsFiller (l ++ a) := by
  obtain ⟨p, hp, hforeign⟩ := h.foreign
  refine ⟨fun q hq => (List.mem_append.1 hq).elim (h.spared q) (ha q), p, by simp [hp], hforeign⟩

/-- What is sewn goes on with what is sewn. -/
theorem Sewn.append {parts' : List (List Text)} (h : Sewn IsFiller parts l) (h' : Sewn IsFiller parts' l') :
    Sewn IsFiller (parts ++ parts') (l ++ l') := by
  induction h with
  | @last g hg =>
    cases h' with
    | last hg' => exact .last (hg.append_right hg'.spared)
    | @part g' p k _ hg' h' =>
      have hsewn := Sewn.part (p := p) (hg.append_right hg'.spared) h'
      rwa [List.append_assoc] at hsewn
  | @part g p l _ hg _ ih => simpa only [List.append_assoc, List.cons_append] using Sewn.part (p := p) hg ih

/-- A run of pieces with a mark in it, in front of the other marks. -/
theorem Marked.cons (hm : m <:+: a) (h : Marked marks l) : Marked (m :: marks) (a ++ l) := by
  obtain ⟨b, c, rfl⟩ := hm
  exact ⟨b, c ++ l, by simp, h.append_left c⟩

end

end DialectBridge
