import DialectBridge.Proofs.Matching
import DialectBridge.Regex
/-!
# Runs of programs of regular expressions

What one step of a run keeps is said once (`follow_spec`): it holds of the threads that wait and of the match that
is found. From it, a match has only characters that some instruction of its program takes (`covers_of_find?`), and
the thread that began first stays the first: a program that takes one character of each of some sets finds a text
with just such characters as a whole (`find?_chain`).
-/
namespace DialectBridge.Regex.Program
open Cursor

section
variable {p : Program} {c : Cursor} {place fuel n : Nat} {threads : List (Nat × Thread)} {f : Front} {m : Match}
  {u right t : Text} {found : Option (Nat × Match)} {reached : Array Nat} {x : Char}

/-! ## One place -/

/-- What holds of threads on their way to the next character (`I`) holds of those that wait for it (`W`) and of a
match (`F`). -/
structure Closed (p : Program) (c : Cursor) (I : Nat → Thread → Prop) (W : CharSet → Nat → Thread → Prop)
    (F : Match → Prop) : Prop where
  take : ∀ {i t s next}, I i t → p.code[i]? = some (.take s next) → W s next t
  check : ∀ {i t a next}, I i t → p.code[i]? = some (.check a next) → I next t
  enter : ∀ {i t next}, I i t → p.code[i]? = some (.enter next) → I next ⟨t.first, c :: t.opened, t.groups⟩
  leave : ∀ {i t group next}, I i t → p.code[i]? = some (.leave group next) → I next (t.leave group c)
  either : ∀ {i t a b}, I i t → p.code[i]? = some (.either a b) → I a t ∧ I b t
  done : ∀ {i t}, I i t → p.code[i]? = some .done → F (t.found c)

/-- What comes to a front: threads in front of those that wait already, and a match in place of the one before. -/
structure Grown (place : Nat) (W : CharSet → Nat → Thread → Prop) (F : Match → Prop) (f f' : Front) : Prop where
  waiting : ∃ ws, f'.waiting = ws ++ f.waiting ∧ ∀ e ∈ ws, W e.1 e.2.1 e.2.2
  found : f'.found = f.found ∨ ∃ m, f'.found = some m ∧ F m
  reached : (∀ n ∈ f.reached, n ≤ place) → ∀ n ∈ f'.reached, n ≤ place

theorem Grown.refl {W : CharSet → Nat → Thread → Prop} {F : Match → Prop} (f : Front) : Grown place W F f f :=
  ⟨⟨[], rfl, by simp⟩, .inl rfl, id⟩

/-- More places are reached. -/
theorem Grown.of_reach {W : CharSet → Nat → Thread → Prop} {F : Match → Prop} {i : Nat}
    {waiting : List (CharSet × Nat × Thread)} {found : Option Match} {f' : Front}
    (h : Grown place W F ⟨reached.setIfInBounds i place, waiting, found⟩ f') :
    Grown place W F ⟨reached, waiting, found⟩ f' := by
  refine ⟨h.waiting, h.found, fun hreached => h.reached fun n hn => ?_⟩
  rcases Array.mem_or_eq_of_mem_setIfInBounds hn with hn | rfl
  · exact hreached n hn
  · exact Nat.le_refl _

/-- Another thread waits. -/
theorem Grown.of_wait {W : CharSet → Nat → Thread → Prop} {F : Match → Prop} {s : CharSet} {next : Nat} {t : Thread}
    {waiting : List (CharSet × Nat × Thread)} {found : Option Match} {f' : Front} (hw : W s next t)
    (h : Grown place W F ⟨reached, (s, next, t) :: waiting, found⟩ f') :
    Grown place W F ⟨reached, waiting, found⟩ f' := by
  obtain ⟨ws, hws, hall⟩ := h.waiting
  refine ⟨⟨ws ++ [(s, next, t)], by simp [hws], fun e he => ?_⟩, h.found, h.reached⟩
  rcases List.mem_append.1 he with he | he
  · exact hall e he
  · obtain rfl := List.mem_singleton.1 he
    exact hw

/-- Following threads keeps what holds of them. -/
theorem follow_spec {I : Nat → Thread → Prop} {W : CharSet → Nat → Thread → Prop} {F : Match → Prop}
    (hclosed : Closed p c I W F) (hthreads : ∀ e ∈ threads, I e.1 e.2) (place fuel : Nat) (f : Front) :
    Grown place W F f (follow p c place fuel threads f) := by
  fun_induction follow p c place fuel threads f with
  | case1 | case2 => exact .refl _
  | case3 fuel i t more reached waiting found hold ih => exact ih (List.forall_mem_cons.1 hthreads).2
  | case4 fuel i t more reached waiting found hnew reached' hcode ih =>
    exact .of_reach (ih (List.forall_mem_cons.1 hthreads).2)
  | case5 fuel i t more reached waiting found hnew reached' s next hcode ih =>
    obtain ⟨hhead, hmore⟩ := List.forall_mem_cons.1 hthreads
    exact .of_reach (.of_wait (hclosed.take hhead hcode) (ih hmore))
  | case6 fuel i t more reached waiting found hnew reached' a next hcode hholds ih =>
    obtain ⟨hhead, hmore⟩ := List.forall_mem_cons.1 hthreads
    exact .of_reach (ih (List.forall_mem_cons.2 ⟨hclosed.check hhead hcode, hmore⟩))
  | case7 fuel i t more reached waiting found hnew reached' a next hcode hholds ih =>
    exact .of_reach (ih (List.forall_mem_cons.1 hthreads).2)
  | case8 fuel i t more reached waiting found hnew reached' next hcode ih =>
    obtain ⟨hhead, hmore⟩ := List.forall_mem_cons.1 hthreads
    exact .of_reach (ih (List.forall_mem_cons.2 ⟨hclosed.enter hhead hcode, hmore⟩))
  | case9 fuel i t more reached waiting found hnew reached' group next hcode ih =>
    obtain ⟨hhead, hmore⟩ := List.forall_mem_cons.1 hthreads
    exact .of_reach (ih (List.forall_mem_cons.2 ⟨hclosed.leave hhead hcode, hmore⟩))
  | case10 fuel i t more reached waiting found hnew reached' a b hcode ih =>
    obtain ⟨hhead, hmore⟩ := List.forall_mem_cons.1 hthreads
    obtain ⟨ha, hb⟩ := hclosed.either hhead hcode
    exact .of_reach (ih (List.forall_mem_cons.2 ⟨ha, List.forall_mem_cons.2 ⟨hb, hmore⟩⟩))
  | case11 fuel i t more reached waiting found hnew reached' hcode =>
    exact .of_reach ⟨⟨[], rfl, by simp⟩, .inr ⟨_, rfl, hclosed.done (List.forall_mem_cons.1 hthreads).1 hcode⟩, id⟩

/-- Over a character go the threads that wait for it, those that wait longest first. -/
theorem advance_eq (x : Char) (waiting : List (CharSet × Nat × Thread)) :
    advance x waiting = (waiting.reverse.filter (·.1.contains x)).map Prod.snd := by
  have hfold : advance x waiting = waiting.reverse.foldr (fun e ts => if e.1.contains x then e.2 :: ts else ts) [] := by
    rw [List.foldr_reverse]
    rfl
  rw [hfold]
  induction waiting.reverse with
  | nil => rfl
  | cons e es ih => by_cases he : e.1.contains x = true <;> simp [he, ih]

theorem mem_advance {waiting : List (CharSet × Nat × Thread)} {e : Nat × Thread} :
    e ∈ advance x waiting ↔ ∃ s, (s, e) ∈ waiting ∧ s.contains x = true := by
  simp [advance_eq]

/-! ## The characters of a match -/

def CanTake (p : Program) (x : Char) : Prop := ∃ (i : Nat) (s : CharSet) (next : Nat),
  p.code[i]? = some (.take s next) ∧ s.contains x = true

/-- What stands between two places of the text `t` can be taken. -/
def Covers (p : Program) (t : Text) (first last : Cursor) : Prop :=
  ∃ u w v, t = u ++ (w ++ v) ∧ first = between u (w ++ v) ∧ last = between (u ++ w) v ∧ ∀ x ∈ w, p.CanTake x

theorem Covers.refl (p : Program) (u v : Text) : Covers p (u ++ v) (between u v) (between u v) :=
  ⟨u, [], v, rfl, rfl, by simp, by simp⟩

theorem Covers.step {first : Cursor} (h : Covers p t first (between u (x :: right))) (hx : p.CanTake x) :
    Covers p t first (between (u ++ [x]) right) := by
  obtain ⟨a, w, v, rfl, rfl, hlast, hw⟩ := h
  obtain ⟨rfl, rfl⟩ := between_inj.1 hlast
  refine ⟨a, w ++ [x], right, by simp, by simp, by simp, fun y hy => ?_⟩
  rcases List.mem_append.1 hy with hy | hy
  · exact hw y hy
  · exact List.mem_singleton.1 hy ▸ hx

theorem closed_covers (p : Program) (t : Text) (c : Cursor) : Closed p c (fun _ w => Covers p t w.first c)
    (fun s next w => (∃ i : Nat, p.code[i]? = some (.take s next)) ∧ Covers p t w.first c)
    (fun m => Covers p t m.first m.last) where
  take h hcode := ⟨⟨_, hcode⟩, h⟩
  check h _ := h
  enter h _ := h
  leave {i t group next} h _ := by
    obtain ⟨first, _ | ⟨o, opened⟩, groups⟩ := t
    · exact h
    · exact h
  either h _ := ⟨h, h⟩
  done h _ := h

/-- The threads at a place, with the one that begins there if there is no match yet. -/
def withStart (p : Program) (c : Cursor) (found : Option (Nat × Match)) (threads : List (Nat × Thread)) :
    List (Nat × Thread) :=
  if found.isSome then threads else threads ++ [(p.start, ⟨c, [], []⟩)]

/-- What the threads at a place come to. -/
def front (p : Program) (c : Cursor) (place : Nat) (found : Option (Nat × Match)) (reached : Array Nat)
    (threads : List (Nat × Thread)) : Front :=
  p.follow c place ((p.withStart c found threads).length + 2 * p.code.size) (p.withStart c found threads)
    ⟨reached, [], none⟩

/-- The match after a place: the one found there, or else the one before. -/
def foundBy (place : Nat) (f : Front) (found : Option (Nat × Match)) : Option (Nat × Match) :=
  (f.found.map fun m => (place, m)).or found

theorem search_nil (left : Passed) : search p place threads found reached left [] =
    if (p.withStart ⟨left, []⟩ found threads).isEmpty then found
    else foundBy place (p.front ⟨left, []⟩ place found reached threads) found := rfl

theorem search_cons (left : Passed) : search p place threads found reached left (x :: right) =
    if (p.withStart ⟨left, x :: right⟩ found threads).isEmpty then found
    else
      let f := p.front ⟨left, x :: right⟩ place found reached threads
      search p (place + 1) (advance x f.waiting) (foundBy place f found) f.reached (left.add x) right := rfl

theorem covers_of_foundBy (h : ∀ m, f.found = some m → Covers p t m.first m.last)
    (hfound : ∀ e, found = some e → Covers p t e.2.first e.2.last) :
    ∀ e, foundBy place f found = some e → Covers p t e.2.first e.2.last := by
  intro e he
  rcases Option.or_eq_some_iff.1 he with he | ⟨-, he⟩
  · obtain ⟨m, hm, rfl⟩ := Option.map_eq_some_iff.1 he
    exact h m hm
  · exact hfound e he

/-- What a front holds comes from the threads at its place. -/
theorem front_covers (ht : t = u ++ right) (hthreads : ∀ e ∈ threads, Covers p t e.2.first (between u right))
    (place : Nat) (found : Option (Nat × Match)) (reached : Array Nat) :
    (∀ m, (p.front (between u right) place found reached threads).found = some m → Covers p t m.first m.last) ∧
      ∀ e ∈ (p.front (between u right) place found reached threads).waiting,
        (∃ i : Nat, p.code[i]? = some (.take e.1 e.2.1)) ∧ Covers p t e.2.2.first (between u right) := by
  have hstart : ∀ e ∈ p.withStart (between u right) found threads, Covers p t e.2.first (between u right) := by
    unfold withStart
    split
    · exact hthreads
    · intro e he
      rcases List.mem_append.1 he with he | he
      · exact hthreads e he
      · obtain rfl := List.mem_singleton.1 he
        exact ht ▸ .refl p u right
  have hgrown := follow_spec (closed_covers p t _) hstart place
    ((p.withStart (between u right) found threads).length + 2 * p.code.size) ⟨reached, [], none⟩
  rw [← front] at hgrown
  obtain ⟨ws, hws, hwaiting⟩ := hgrown.waiting
  refine ⟨fun m hm => ?_, fun e he => hwaiting e ?_⟩
  · rcases hgrown.found with hnone | ⟨m', hm', hcovers⟩
    · rw [hnone] at hm
      simp at hm
    · rw [hm'] at hm
      exact Option.some.inj hm ▸ hcovers
  · rwa [hws, List.append_nil] at he

theorem covers_of_search (ht : t = u ++ right) (hthreads : ∀ e ∈ threads, Covers p t e.2.first (between u right))
    (hfound : ∀ e, found = some e → Covers p t e.2.first e.2.last)
    (h : search p place threads found reached (.of u) right = some (n, m)) : Covers p t m.first m.last := by
  induction right generalizing u place threads found reached with
  | nil =>
    rw [search_nil] at h
    split at h
    · exact hfound _ h
    · exact covers_of_foundBy (front_covers ht hthreads place found reached).1 hfound _ h
  | cons x right ih =>
    rw [search_cons] at h
    split at h
    · exact hfound _ h
    · obtain ⟨hmatch, hwaiting⟩ := front_covers ht hthreads place found reached
      simp only [Passed.add_of] at h
      refine ih (by simp [ht]) (fun e he => ?_) (covers_of_foundBy hmatch hfound) h
      obtain ⟨s, hs, hx⟩ := mem_advance.1 he
      obtain ⟨⟨i, hi⟩, hcovers⟩ := hwaiting _ hs
      exact hcovers.step ⟨i, s, e.1, hi, hx⟩

/-- A match has only characters that the program takes. -/
theorem covers_of_find? (h : p.find? t = some m) : Covers p t m.first m.last := by
  obtain ⟨⟨n, m'⟩, hfind, rfl⟩ := Option.map_eq_some_iff.1 h
  obtain ⟨⟨k, m⟩, hsearch, hm⟩ := Option.map_eq_some_iff.1 hfind
  obtain rfl : m = m' := (Prod.mk.inj hm).2
  exact covers_of_search (u := []) rfl (by simp) (by simp) hsearch

/-! ## One character of each set -/

/-- The code that takes a character of each of the sets, from its end to its beginning. -/
def chainCode : List CharSet → List Instruction
  | [] => [.done]
  | s :: sets => chainCode sets ++ [.take s sets.length]

/-- The program that takes a character of each of the sets. -/
def chain (sets : List CharSet) : Program := ⟨(chainCode sets).toArray, sets.length⟩

variable {s : CharSet} {sets rest : List CharSet}

@[simp] theorem length_chainCode (sets : List CharSet) : (chainCode sets).length = sets.length + 1 := by
  induction sets with
  | nil => rfl
  | cons s sets ih => simp [chainCode, ih]

theorem chainCode_prefix (h : rest <:+ sets) : chainCode rest <+: chainCode sets := by
  induction sets with
  | nil =>
    obtain rfl := List.suffix_nil.1 h
    exact List.prefix_rfl
  | cons s sets ih =>
    rcases List.suffix_cons_iff.1 h with rfl | h
    · exact List.prefix_rfl
    · exact (ih h).trans (List.prefix_append _ _)

/-- The instruction for the first of the sets that are left. -/
theorem code_chain_cons (h : s :: rest <:+ sets) :
    (chain sets).code[(s :: rest).length]? = some (.take s rest.length) := by
  obtain ⟨more, hmore⟩ := chainCode_prefix h
  rw [chain, List.getElem?_toArray, ← hmore, chainCode, List.append_assoc, List.getElem?_append_right (by simp)]
  simp

theorem code_chain_nil (sets : List CharSet) : (chain sets).code[0]? = some .done := by
  obtain ⟨more, hmore⟩ := chainCode_prefix (List.nil_suffix (l := sets))
  rw [chain, List.getElem?_toArray, ← hmore]
  rfl

/-- Every instruction but the last one takes a character and goes on at the one before it. -/
theorem exists_of_code_chain {i : Nat} {instruction : Instruction} (hi : i ≠ 0)
    (h : (chain sets).code[i]? = some instruction) : ∃ s, instruction = .take s (i - 1) := by
  rw [chain, List.getElem?_toArray] at h
  induction sets with
  | nil => simp [chainCode, hi] at h
  | cons s sets ih =>
    rw [chainCode, List.getElem?_append] at h
    split at h
    · exact ih h
    · rename_i hlength
      rw [length_chainCode] at hlength
      obtain hlast : i - (sets.length + 1) = 0 := by
        by_contra hne
        obtain ⟨j, hj⟩ := Nat.exists_eq_succ_of_ne_zero hne
        simp [hj] at h
      rw [length_chainCode, hlast] at h
      obtain rfl := Option.some.inj h
      exact ⟨s, by congr; omega⟩

/-- Threads in front of the last instruction do not find a match, and go on at the instruction before theirs. -/
theorem closed_chain (sets : List CharSet) (c : Cursor) {k : Nat} (hk : k ≠ 0) :
    Closed (chain sets) c (fun i _ => k ≤ i) (fun _ next _ => k - 1 ≤ next) fun _ => False := by
  have htake : ∀ {i : Nat} {instruction : Instruction}, k ≤ i → (chain sets).code[i]? = some instruction →
      ∃ s, instruction = .take s (i - 1) := fun hi h => exists_of_code_chain (by omega) h
  constructor
  case take =>
    intro i t s next hi h
    obtain ⟨s', hs⟩ := htake hi h
    cases hs
    omega
  all_goals
    intros
    rename_i hi h
    obtain ⟨s', hs⟩ := htake hi h
    cases hs

/-- The thread for the sets that are left goes on over a character of the first one, in front of all others. -/
theorem front_chain (hsuffix : s :: rest <:+ sets) (hreached : ∀ n ∈ reached, n < place) {t : Thread}
    {more : List (Nat × Thread)} (hthreads : (chain sets).withStart c none threads = ((s :: rest).length, t) :: more)
    (hmore : ∀ e ∈ more, (s :: rest).length ≤ e.1) (hx : s.contains x = true) :
    ((chain sets).front c place none reached threads).found = none ∧
      (∀ n ∈ ((chain sets).front c place none reached threads).reached, n < place + 1) ∧
      ∃ later, advance x ((chain sets).front c place none reached threads).waiting = (rest.length, t) :: later ∧
        ∀ e ∈ later, rest.length ≤ e.1 := by
  have hnew : reached[(s :: rest).length]? ≠ some place := fun h =>
    Nat.lt_irrefl _ (hreached place (Array.mem_of_getElem? h))
  obtain ⟨fuel, hfuel⟩ :
      ∃ fuel, ((chain sets).withStart c none threads).length + 2 * (chain sets).code.size = fuel + 1 :=
    ⟨_, by rw [hthreads, List.length_cons, Nat.succ_add]⟩
  have hfront : (chain sets).front c place none reached threads = (chain sets).follow c place fuel more
      ⟨reached.setIfInBounds (s :: rest).length place, [(s, rest.length, t)], none⟩ := by
    rw [front, hfuel, hthreads, follow, if_neg hnew, code_chain_cons hsuffix]
  have hgrown := follow_spec (closed_chain sets c (Nat.succ_ne_zero rest.length)) hmore place fuel
    ⟨reached.setIfInBounds (s :: rest).length place, [(s, rest.length, t)], none⟩
  rw [← hfront] at hgrown
  obtain ⟨ws, hws, hwaiting⟩ := hgrown.waiting
  refine ⟨?_, fun n hn => Nat.lt_succ_of_le (hgrown.reached (fun n hn => ?_) n hn), advance x ws, ?_, fun e he => ?_⟩
  · rcases hgrown.found with h | ⟨m, -, h⟩
    · exact h
    · exact h.elim
  · rcases Array.mem_or_eq_of_mem_setIfInBounds hn with hn | rfl
    · exact Nat.le_of_lt (hreached n hn)
    · exact Nat.le_refl _
  · simp [hws, advance_eq, hx]
  · obtain ⟨s', hs', -⟩ := mem_advance.1 he
    exact hwaiting _ hs'

/-- At the end the first thread finds its match. -/
theorem front_chain_nil (hreached : ∀ n ∈ reached, n < place) {t : Thread} {more : List (Nat × Thread)}
    (hthreads : (chain sets).withStart c none threads = (0, t) :: more) :
    ((chain sets).front c place none reached threads).found = some (t.found c) := by
  have hnew : reached[0]? ≠ some place := fun h => Nat.lt_irrefl _ (hreached place (Array.mem_of_getElem? h))
  obtain ⟨fuel, hfuel⟩ :
      ∃ fuel, ((chain sets).withStart c none threads).length + 2 * (chain sets).code.size = fuel + 1 :=
    ⟨_, by rw [hthreads, List.length_cons, Nat.succ_add]⟩
  rw [front, hfuel, hthreads, follow, if_neg hnew, code_chain_nil]

theorem search_chain {t : Thread} {more : List (Nat × Thread)} (hsuffix : rest <:+ sets)
    (hright : List.Forall₂ (fun s x => s.contains x = true) rest right) (hreached : ∀ n ∈ reached, n < place)
    (hthreads : (chain sets).withStart (between u right) none threads = (rest.length, t) :: more)
    (hmore : ∀ e ∈ more, rest.length ≤ e.1) :
    search (chain sets) place threads none reached (.of u) right =
      some (place + right.length, t.found (between (u ++ right) [])) := by
  induction hright generalizing u place threads reached more with
  | nil =>
    have hfound := front_chain_nil hreached hthreads
    rw [search_nil, if_neg (by rw [← between, hthreads]; simp), foundBy, ← between, hfound]
    simp
  | @cons s x rest right hx hright ih =>
    obtain ⟨hfound, hreached', later, hadvance, hlater⟩ := front_chain hsuffix hreached hthreads hmore hx
    rw [search_cons, if_neg (by rw [← between, hthreads]; simp), ← between]
    simp only [foundBy, hfound, Option.map_none, Option.none_or, Passed.add_of]
    have hrest : rest <:+ sets := (List.suffix_cons s rest).trans hsuffix
    have hnext : (chain sets).withStart (between (u ++ [x]) right) none
        (advance x ((chain sets).front (between u (x :: right)) place none reached threads).waiting) =
          (rest.length, t) :: (later ++ [(sets.length, ⟨between (u ++ [x]) right, [], []⟩)]) := by
      rw [hadvance]
      rfl
    have hlonger : ∀ e ∈ later ++ [(sets.length, ⟨between (u ++ [x]) right, [], []⟩)], rest.length ≤ e.1 := by
      intro e he
      rcases List.mem_append.1 he with he | he
      · exact hlater e he
      · obtain rfl := List.mem_singleton.1 he
        exact hrest.length_le
    rw [ih hrest hreached' hnext hlonger]
    simp [Nat.add_assoc, Nat.add_comm 1]

/-- A text with a character of each of the sets is found as a whole. -/
theorem find?_chain (h : List.Forall₂ (fun s x => s.contains x = true) sets t) :
    (chain sets).find? t = some ⟨between [] t, between t [], []⟩ := by
  have hsearch : search (chain sets) 1 [] none (.replicate (chain sets).code.size 0) (.of []) t =
      some (1 + t.length, Thread.found ⟨between [] t, [], []⟩ (between ([] ++ t) [])) :=
    search_chain List.suffix_rfl h (by simp) rfl (by simp)
  rw [find?, findFrom?, Cursor.atStart, ← Passed.of_nil, hsearch]
  rfl

end

end DialectBridge.Regex.Program
