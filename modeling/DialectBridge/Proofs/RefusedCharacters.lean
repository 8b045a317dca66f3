import DialectBridge.Proofs.RegexRuns
/-!
# Characters that a regular expression does not have

A character that no set and no literal of a node has (`Node.Avoids`) is taken by no instruction of its program
(`not_canTake_ofNode`). The functions that build nodes add no characters.
-/
namespace DialectBridge.Regex

section
variable {d : Char} {n : Node} {ns : List Node}

def Node.Avoids (d : Char) : Node → Prop
  | .empty | .check _ => True
  | .literal t => d ∉ t
  | .set s _ => s.contains d = false
  | .rep _ _ _ n | .capture _ n => n.Avoids d
  | .cat a b | .alt a b => a.Avoids d ∧ b.Avoids d

def Program.Refuses (d : Char) (code : Array Instruction) : Prop :=
  ∀ s next, .take s next ∈ code → s.contains d = false

open Program
variable {code : Array Instruction} {i : Instruction} {body : Nat → Array Instruction → Program} {p : Program}

theorem refuses_push (hcode : Refuses d code) (hi : ∀ s next, i = .take s next → s.contains d = false) :
    Refuses d (code.push i) := by
  intro s next h
  rcases Array.mem_push.1 h with h | h
  · exact hcode s next h
  · exact hi s next h.symm

theorem again_ne_take (greedy : Bool) (round out : Nat) (s : CharSet) (next : Nat) :
    again greedy round out ≠ .take s next := by
  unfold again
  split <;> simp

/-- What `body` adds does not take `d`. -/
def AddsRefusing (d : Char) (body : Nat → Array Instruction → Program) : Prop :=
  ∀ next code, Refuses d code → Refuses d (body next code).code

theorem refuses_loop (hbody : AddsRefusing d body) (greedy : Bool) (out : Nat) (hcode : Refuses d code) :
    Refuses d (loop greedy body out code).code := by
  have hround := hbody code.size _ (refuses_push (i := again greedy out out) hcode fun s next h =>
    absurd h (again_ne_take greedy out out s next))
  intro s next h
  rcases Array.mem_or_eq_of_mem_setIfInBounds h with h | h
  · exact hround s next h
  · exact absurd h.symm (again_ne_take _ _ _ s next)

theorem refuses_copies (hbody : AddsRefusing d body) (n : Nat) (hp : Refuses d p.code) :
    Refuses d (copies body n p).code := by
  induction n generalizing p with
  | zero => exact hp
  | succ n ih => exact ih (hbody _ _ hp)

theorem refuses_upTo (hbody : AddsRefusing d body) (greedy : Bool) (out n : Nat) (hp : Refuses d p.code) :
    Refuses d (upTo greedy body out n p).code := by
  induction n generalizing p with
  | zero => exact hp
  | succ n ih =>
    exact ih (refuses_push (hbody _ _ hp) fun s next h => absurd h (again_ne_take greedy _ _ s next))

theorem refuses_repeated (hbody : AddsRefusing d body) (taking : Bool) (least : Nat) (most : Option Nat) (greedy : Bool)
    (out : Nat) (hcode : Refuses d code) : Refuses d (Program.repeated taking least most greedy body out code).code := by
  unfold Program.repeated
  split
  · exact refuses_copies hbody _ (refuses_upTo hbody greedy out _ hcode)
  · exact refuses_copies hbody _ (refuses_loop hbody greedy out hcode)
  · have hloop := refuses_loop hbody greedy out hcode
    cases taking with
    | true => exact hloop
    | false => exact refuses_push hloop fun s next h => absurd h (again_ne_take greedy _ _ s next)

/-- A node adds no instruction for a character that it does not have. -/
theorem refuses_addNode (hn : n.Avoids d) : AddsRefusing d (addNode n) := by
  induction n with
  | empty => exact fun _ _ hcode => hcode
  | literal t =>
    intro next code hcode
    rw [addNode]
    induction t with
    | nil => exact hcode
    | cons c t ih =>
      obtain ⟨hc, ht⟩ := not_or.1 (List.mem_cons.not.1 hn)
      refine refuses_push (ih ht) fun s next h => ?_
      obtain ⟨rfl, -⟩ := Instruction.take.inj h
      rw [CharSet.contains_single]
      exact beq_false_of_ne hc
  | set s ascii =>
    intro next code hcode
    refine refuses_push hcode fun s' next' h => ?_
    obtain ⟨rfl, -⟩ := Instruction.take.inj h
    exact hn
  | check a => exact fun _ _ hcode => refuses_push hcode (by simp)
  | rep least most greedy n ih => exact fun next _ hcode => refuses_repeated (ih hn) _ least most greedy next hcode
  | capture index n ih =>
    intro next code hcode
    refine refuses_push ?_ (by simp)
    exact ih hn _ _ (refuses_push hcode (by simp))
  | cat a b iha ihb => exact fun _ _ hcode => iha hn.1 _ _ (ihb hn.2 _ _ hcode)
  | alt a b iha ihb =>
    intro next code hcode
    exact refuses_push (iha hn.1 _ _ (ihb hn.2 _ _ hcode)) (by simp)

theorem not_canTake_ofNode (hn : n.Avoids d) : ¬ (ofNode n).CanTake d := by
  rintro ⟨i, s, next, hcode, hs⟩
  have hdone : Refuses d #[.done] := by
    intro s next h
    simp at h
  have := refuses_addNode hn 0 _ hdone s next (Array.mem_of_getElem? hcode)
  simp [hs] at this

/-! ## Building nodes -/

namespace Node

theorem avoids_parts (h : n.Avoids d) : ∀ m ∈ n.parts, m.Avoids d := by
  induction n with
  | empty => simp [parts]
  | cat a b _ ihb =>
    intro m hm
    rcases List.mem_cons.1 hm with rfl | hm
    · exact h.1
    · exact ihb h.2 m hm
  | _ =>
    intro m hm
    exact List.mem_singleton.1 hm ▸ h

theorem avoids_ofParts (h : ∀ n ∈ ns, n.Avoids d) : (ofParts ns).Avoids d := by
  induction ns with
  | nil => exact trivial
  | cons n ns ih =>
    obtain ⟨hn, hns⟩ := List.forall_mem_cons.1 h
    cases ns with
    | nil => exact hn
    | cons m ns => exact ⟨hn, ih hns⟩

theorem avoids_consPart (hn : n.Avoids d) (hns : ∀ m ∈ ns, m.Avoids d) : ∀ m ∈ consPart n ns, m.Avoids d := by
  unfold consPart
  split
  · rename_i s t ns
    obtain ⟨ht, hns⟩ := List.forall_mem_cons.1 hns
    refine List.forall_mem_cons.2 ⟨?_, hns⟩
    exact fun hmem => (List.mem_append.1 hmem).elim hn ht
  · exact List.forall_mem_cons.2 ⟨hn, hns⟩

theorem avoids_concat (h : ∀ n ∈ ns, n.Avoids d) : (concat ns).Avoids d := by
  have hparts : ∀ n ∈ ns.flatMap parts, n.Avoids d := by
    intro m hm
    obtain ⟨n, hn, hm⟩ := List.mem_flatMap.1 hm
    exact avoids_parts (h n hn) m hm
  refine avoids_ofParts ?_
  generalize ns.flatMap parts = all at hparts
  induction all with
  | nil => simp
  | cons n all ih =>
    obtain ⟨hn, hall⟩ := List.forall_mem_cons.1 hparts
    exact avoids_consPart hn (ih hall)

theorem avoids_repeated (h : n.Avoids d) (least : Nat) (most : Option Nat) (greedy : Bool) :
    (repeated least most greedy n).Avoids d := by
  simp only [repeated]
  split_ifs
  all_goals first | exact trivial | exact h

end Node

/-! ## Classes of single characters -/

open Unicode

/-- A range has a code point only if it stands in it. -/
theorem exists_of_has {rs : Ranges} {k : Nat} (h : rs.has k = true) : ∃ q ∈ rs, q.1 ≤ k ∧ k ≤ q.2 := by
  induction rs with
  | nil => simp [Ranges.has] at h
  | cons q rs ih =>
    simp only [Ranges.has] at h
    split at h
    · simp at h
    · rename_i hlo
      rcases Bool.or_eq_true_iff.1 h with h | h
      · exact ⟨q, by simp, Nat.not_lt.1 hlo, of_decide_eq_true h⟩
      · obtain ⟨q', hq', hk⟩ := ih h
        exact ⟨q', by simp [hq'], hk⟩

/-- Joined ranges begin where one of them does, and have nothing more than they have. -/
theorem mem_joinFrom {q r : Nat × Nat} {rs : Ranges} (h : q ∈ Ranges.joinFrom r rs) :
    (∃ s ∈ r :: rs, q.1 = s.1) ∧ ∀ k, q.1 ≤ k → k ≤ q.2 → ∃ s ∈ r :: rs, s.1 ≤ k ∧ k ≤ s.2 := by
  induction rs generalizing r with
  | nil =>
    obtain rfl := List.mem_singleton.1 h
    exact ⟨⟨q, by simp, rfl⟩, fun k hlo hhi => ⟨q, by simp, hlo, hhi⟩⟩
  | cons s rs ih =>
    unfold Ranges.joinFrom at h
    split at h
    · rename_i htouch
      obtain ⟨⟨p, hp, hfirst⟩, hall⟩ := ih h
      constructor
      · rcases List.mem_cons.1 hp with rfl | hp
        · exact ⟨r, by simp, hfirst⟩
        · exact ⟨p, by simp [hp], hfirst⟩
      · intro k hlo hhi
        obtain ⟨p, hp, hplo, hphi⟩ := hall k hlo hhi
        rcases List.mem_cons.1 hp with rfl | hp
        · by_cases hk : k ≤ r.2
          · exact ⟨r, by simp, hplo, hk⟩
          · exact ⟨s, by simp, by omega, by simp only at hphi; omega⟩
        · exact ⟨p, by simp [hp], hplo, hphi⟩
    · rcases List.mem_cons.1 h with rfl | h
      · exact ⟨⟨q, by simp, rfl⟩, fun k hlo hhi => ⟨q, by simp, hlo, hhi⟩⟩
      · obtain ⟨⟨p, hp, hfirst⟩, hall⟩ := ih h
        refine ⟨⟨p, List.mem_cons_of_mem _ hp, hfirst⟩, fun k hlo hhi => ?_⟩
        obtain ⟨p', hp', hk⟩ := hall k hlo hhi
        exact ⟨p', List.mem_cons_of_mem _ hp', hk⟩

theorem mem_ordered {q : Nat × Nat} {rs : Ranges} (h : q ∈ rs.ordered) :
    (∃ s ∈ rs, q.1 = s.1) ∧ ∀ k, q.1 ≤ k → k ≤ q.2 → ∃ s ∈ rs, s.1 ≤ k ∧ k ≤ s.2 := by
  unfold Ranges.ordered at h
  split at h
  · simp at h
  · rename_i r more hsort
    have hmem : ∀ s, s ∈ r :: more ↔ s ∈ rs := fun s => by rw [← hsort, List.mem_mergeSort]
    simpa only [hmem] using mem_joinFrom h

/-- The class of some characters has no other one. -/
theorem avoids_ofSet_ofRanges {cs : Text} (h : d ∉ cs) (ascii : Bool) :
    (Node.ofSet (.ofRanges (cs.map fun c => (c.toNat, c.toNat))) ascii).Avoids d := by
  have hall : ∀ q ∈ (CharSet.ofRanges (cs.map fun c => (c.toNat, c.toNat))).ranges,
      (∃ c ∈ cs, q.1 = c.toNat) ∧ ¬ (q.1 ≤ d.toNat ∧ d.toNat ≤ q.2) := by
    intro q hq
    obtain ⟨⟨s, hs, hfirst⟩, hin⟩ := mem_ordered hq
    obtain ⟨c, hc, rfl⟩ := List.mem_map.1 hs
    refine ⟨⟨c, hc, hfirst⟩, fun hd => ?_⟩
    obtain ⟨s, hs, hlo, hhi⟩ := hin _ hd.1 hd.2
    obtain ⟨c, hc, rfl⟩ := List.mem_map.1 hs
    exact h (Char.toNat_inj.1 (Nat.le_antisymm hlo hhi) ▸ hc)
  have hcontains : (CharSet.ofRanges (cs.map fun c => (c.toNat, c.toNat))).contains d = false := by
    rw [Bool.eq_false_iff]
    intro hd
    obtain ⟨q, hq, hin⟩ := exists_of_has hd
    exact (hall q hq).2 hin
  unfold Node.ofSet
  split
  · exact hcontains
  · rename_i lo hi hranges
    split_ifs
    · obtain ⟨c, hc, hlo⟩ := (hall (lo, hi) (by simp [hranges])).1
      simp only at hlo
      simp only [Node.Avoids, hlo, Char.ofNat_toNat, List.mem_singleton]
      rintro rfl
      exact h hc
    · exact hcontains
  · exact hcontains

/-- Only single characters become one class. -/
theorem eq_of_merged?_literals {a b : Text} (h : Node.merged? [.literal a, .literal b] = some n) : ∃ x y, a = [x] ∧
    b = [y] ∧ n = .ofSet (.ofRanges ([x, y].map fun c => (c.toNat, c.toNat))) false := by
  unfold Node.merged? at h
  rcases a with _ | ⟨x, _ | ⟨x', a⟩⟩
  · simp [Node.character?, Node.set?] at h
  · rcases b with _ | ⟨y, _ | ⟨y', b⟩⟩
    · simp [Node.character?, Node.set?] at h
    · exact ⟨x, y, rfl, rfl, (Option.some.inj h).symm⟩
    · simp [Node.character?, Node.set?] at h
  · simp [Node.character?, Node.set?] at h

theorem choice_literals (a b : Text) : Node.choice [.literal a, .literal b] =
    match Node.merged? [.literal a, .literal b] with
    | some n => n
    | none => .alt (.literal a) (.literal b) := rfl

/-- One literal or another one. -/
theorem avoids_choice_literals {a b : Text} (ha : d ∉ a) (hb : d ∉ b) :
    (Node.choice [.literal a, .literal b]).Avoids d := by
  rw [choice_literals]
  cases hmerged : Node.merged? [.literal a, .literal b] with
  | none => exact ⟨ha, hb⟩
  | some n =>
    obtain ⟨x, y, rfl, rfl, rfl⟩ := eq_of_merged?_literals hmerged
    have hnot : d ∉ [x, y] := by simp_all
    exact avoids_ofSet_ofRanges hnot false

end

end DialectBridge.Regex
