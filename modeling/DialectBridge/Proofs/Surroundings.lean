import DialectBridge.Proofs.Captures
import DialectBridge.Proofs.Framing
import DialectBridge.Proofs.Replacing
/-!
# Matches in a part of a text

A run of a pattern over a part of a text goes as it does in the whole text if the part is shut off from what
stands around it: no condition of the pattern sees the difference, and the pattern does not take the
character that follows the part (`matchAt?_within`). So a text can be searched (`matchesFrom_append_cons`),
and its matches replaced (`replaceAllBy_append_cons`), on either side of a character that the pattern never
takes.
-/
namespace DialectBridge
open Pattern

/-! ## A part and the whole -/

/-- A place of a part in the whole text, which has `a` before the part and `b` behind it. -/
def Cursor.within (a b : Text) (c : Cursor) : Cursor := between (a ++ c.left.text.reverse) (c.right ++ b)

@[simp] theorem Cursor.within_between (a b u v : Text) :
    (between u v).within a b = between (a ++ u) (v ++ b) := by
  simp [within]

def Groups.within (a b : Text) (g : Groups) : Groups :=
  g.map fun e => (e.1, e.2.1.within a b, e.2.2.within a b)

def Match.within (a b : Text) (m : Match) : Match :=
  ⟨m.first.within a b, m.last.within a b, Groups.within a b m.groups⟩

namespace Pattern
open Cursor

/-- Whether every repetition in a pattern repeats single characters. -/
def singles : Pattern → Bool
  | empty | one _ | check _ => true
  | seq p q | alt p q => p.singles && q.singles
  | star _ (one _) => true
  | star _ _ => false
  | group _ p => p.singles

/-- What stands before and behind a part makes no difference to a pattern. -/
structure ShutOff (p : Pattern) (a b : Text) : Prop where
  singles : p.singles = true
  checks : ∀ k ∈ p.checks, ∀ u v, k.holds (between (a ++ u) (v ++ b)) = k.holds (between u v)
  refuses : ∀ s ∈ p.charSets, ∀ c ∈ b.head?, s.contains c = false

section
variable {α β : Type} {p q : Pattern} {a b : Text} {s : CharSet} {h : α → β}
  {k : Cursor → Groups → Option α} {k' : Cursor → Groups → Option β}

theorem ShutOff.of_seq (h : ShutOff (seq p q) a b) : ShutOff p a b ∧ ShutOff q a b := by
  obtain ⟨hsingles, hchecks, hrefuses⟩ := h
  simp only [Pattern.singles, Bool.and_eq_true, Pattern.checks, charSets, List.mem_append] at *
  exact ⟨⟨hsingles.1, fun k hk => hchecks k (.inl hk), fun s hs => hrefuses s (.inl hs)⟩,
    ⟨hsingles.2, fun k hk => hchecks k (.inr hk), fun s hs => hrefuses s (.inr hs)⟩⟩

theorem rounds_of_body_eq_none {greedy : Bool} {body : (Cursor → Groups → Option α) → Cursor → Groups → Option α}
    {c : Cursor} {g : Groups} (hbody : ∀ k, body k c g = none) (fuel : Text) :
    rounds greedy body k fuel c g = k c g := by
  cases fuel with
  | nil => rfl
  | cons d fuel =>
    rw [rounds]
    cases greedy <;> simp only [hbody, Bool.false_eq_true, if_false, if_true]
    · cases k c g <;> rfl
    · rfl

theorem run_one_within (hs : ∀ c ∈ b.head?, s.contains c = false)
    (hk : ∀ u v g, k' (between (a ++ u) (v ++ b)) (Groups.within a b g) = (k (between u v) g).map h)
    (u v : Text) (g : Groups) :
    (one s).run k' (between (a ++ u) (v ++ b)) (Groups.within a b g) =
      ((one s).run k (between u v) g).map h := by
  cases v with
  | nil =>
    cases b with
    | nil => rfl
    | cons c b => rw [List.nil_append, run_one_cons, if_neg (by simp [hs c rfl])]; rfl
  | cons c v =>
    rw [List.cons_append, run_one_cons, run_one_cons, List.append_assoc]
    split
    · exact hk _ _ _
    · rfl

/-- The rounds over a part end with the part, however many more there could be in the whole text. -/
theorem rounds_within {greedy : Bool} (hs : ∀ c ∈ b.head?, s.contains c = false)
    (hk : ∀ u v g, k' (between (a ++ u) (v ++ b)) (Groups.within a b g) = (k (between u v) g).map h)
    {fuel fuel' u v : Text} (hf : v.length ≤ fuel.length) (hf' : v.length ≤ fuel'.length) (g : Groups) :
    rounds greedy (fun k c g => run (one s) k c g) k' fuel' (between (a ++ u) (v ++ b)) (Groups.within a b g) =
      (rounds greedy (fun k c g => run (one s) k c g) k fuel (between u v) g).map h := by
  induction v generalizing fuel fuel' u with
  | nil =>
    have hwhole : ∀ k : Cursor → Groups → Option β,
        (one s).run k (between (a ++ u) ([] ++ b)) (Groups.within a b g) = none := fun k => by
      cases b with
      | nil => rfl
      | cons c b => rw [List.nil_append, run_one_cons, if_neg (by simp [hs c rfl])]
    rw [rounds_of_body_eq_none hwhole, rounds_of_body_eq_none (fun _ => rfl), hk]
  | cons c v ih =>
    obtain ⟨d, fuel, rfl⟩ := List.exists_cons_of_ne_nil (l := fuel) (by rintro rfl; simp at hf)
    obtain ⟨d', fuel', rfl⟩ := List.exists_cons_of_ne_nil (l := fuel') (by rintro rfl; simp at hf')
    simp only [rounds, List.cons_append, run_one_cons, List.append_assoc]
    by_cases hc : s.contains c = true
    · have hmore := ih (u := u ++ [c]) (Nat.le_of_succ_le_succ hf) (Nat.le_of_succ_le_succ hf')
      simp only [hc, if_true, hmore, hk u (c :: v) g, ← List.cons_append]
      split <;> simp only [Option.orElse_eq_or, Option.map_or]
    · simp only [hc, ← List.cons_append, hk u (c :: v) g]
      split
      · rfl
      · cases k (between u (c :: v)) g <;> rfl

/-- A run over a part goes as it does in the whole text. -/
theorem run_within (hp : ShutOff p a b)
    (hk : ∀ u v g, k' (between (a ++ u) (v ++ b)) (Groups.within a b g) = (k (between u v) g).map h)
    (u v : Text) (g : Groups) :
    p.run k' (between (a ++ u) (v ++ b)) (Groups.within a b g) = (p.run k (between u v) g).map h := by
  induction p generalizing k k' u v g with
  | empty => exact hk u v g
  | one s => exact run_one_within (hp.refuses s (by simp [charSets])) hk u v g
  | check c =>
    rw [run, run, hp.checks c (by simp [Pattern.checks])]
    split
    · exact hk u v g
    · rfl
  | seq p q ihp ihq =>
    obtain ⟨hp, hq⟩ := hp.of_seq
    exact ihp hp (fun u v g => ihq hq hk u v g) u v g
  | alt p q ihp ihq =>
    obtain ⟨hp, hq⟩ := ShutOff.of_seq (p := p) (q := q) ⟨hp.singles, hp.checks, hp.refuses⟩
    rw [run, run, ihp hp hk u v g, ihq hq hk u v g, Option.orElse_eq_or, Option.orElse_eq_or,
      Option.map_or]
  | star greedy p _ =>
    cases p with
    | one s => exact rounds_within (hp.refuses s (by simp [charSets])) hk (Nat.le_refl _) (by simp) g
    | _ => exact absurd hp.singles (by simp [Pattern.singles])
  | group i p ih =>
    refine ih ⟨hp.singles, hp.checks, hp.refuses⟩ (fun u' v' g' => ?_) u v g
    have hgroup := hk u' v' ((i, between u v, between u' v') :: g')
    rw [← hgroup, Groups.within, Groups.within, List.map_cons, within_between, within_between]

/-- What is found in a part is found in the whole text. -/
theorem matchAt?_within (hp : ShutOff p a b) (u v : Text) :
    p.matchAt? (between (a ++ u) (v ++ b)) = (p.matchAt? (between u v)).map (Match.within a b) := by
  refine run_within hp (fun u' v' g => ?_) u v []
  rw [Option.map_some, Match.within, within_between, within_between]

end

/-! ## Searching and replacing in a part -/

section
variable {p : Pattern} {a b : Text} {c : Char} {f : Match → Text}

theorem matchesFrom_within (hc : p.Consuming) (hp : ShutOff p a b) (u v : Text) :
    p.matchesFrom (a ++ u) (v ++ b) =
      (p.matchesFrom u v).map (Match.within a b) ++ p.matchesFrom (a ++ (u ++ v)) b := by
  induction u, v using walk_induction hc with
  | nil u => rw [matchesFrom_nil hc, List.nil_append, List.append_nil, List.map_nil, List.nil_append]
  | skip u c v hnone ih =>
    have hwhole := matchAt?_within hp u (c :: v)
    rw [hnone, Option.map_none, List.cons_append] at hwhole
    rw [List.cons_append, matchesFrom_cons_of_none hwhole, matchesFrom_cons_of_none hnone, List.append_assoc, ih,
      List.append_assoc, List.singleton_append]
  | found u w v m hm hfirst hlast ih =>
    have hwhole := matchAt?_within hp u (w ++ v)
    rw [hm, Option.map_some, List.append_assoc] at hwhole
    have hbehind : (m.within a b).last = between (a ++ u ++ w) (v ++ b) := by
      rw [Match.within, hlast, within_between, List.append_assoc]
    rw [List.append_assoc w, matchesFrom_of_some hc hwhole hbehind, matchesFrom_of_some hc hm hlast,
      List.append_assoc, ih, List.map_cons, List.cons_append, List.append_assoc]

/-- The matches in a part are replaced, and then the ones behind it. -/
theorem replaceFrom_within (hc : p.Consuming) (hp : ShutOff p a b)
    (hf : ∀ u x m, p.matchAt? (between u x) = some m → f (m.within a b) = f m) (u v : Text) :
    p.replaceFrom f (a ++ u) (v ++ b) = p.replaceFrom f u v ++ p.replaceFrom f (a ++ (u ++ v)) b := by
  induction u, v using walk_induction hc with
  | nil u => rw [replaceFrom_nil hc, List.nil_append, List.append_nil, List.nil_append]
  | skip u c v hnone ih =>
    have hwhole := matchAt?_within hp u (c :: v)
    rw [hnone, Option.map_none, List.cons_append] at hwhole
    rw [List.cons_append, replaceFrom_cons_of_none hwhole, replaceFrom_cons_of_none hnone, List.append_assoc, ih,
      List.cons_append, List.append_assoc, List.singleton_append]
  | found u w v m hm hfirst hlast ih =>
    have hwhole := matchAt?_within hp u (w ++ v)
    rw [hm, Option.map_some, List.append_assoc] at hwhole
    have hbehind : (m.within a b).last = between (a ++ u ++ w) (v ++ b) := by
      rw [Match.within, hlast, within_between, List.append_assoc]
    rw [List.append_assoc w, replaceFrom_of_some hc hwhole hbehind, replaceFrom_of_some hc hm hlast,
      hf _ _ _ hm, List.append_assoc, ih, List.append_assoc, List.append_assoc]

/-! ## Characters that are never taken -/

/-- Whether a pattern takes some text, but never the character `c`, which is not of a word, and asks of the
text around it only whether words end there. -/
def shuns (p : Pattern) (c : Char) : Bool :=
  !p.nullable && p.singles && p.checks.all (· == .wordEdge .word) && p.charSets.all (!·.contains c) &&
    !Unicode.isWordChar c

theorem holds_wordEdge (u v : Text) :
    (Assertion.wordEdge .word).holds (between u v) = (endsInWord u != beginsInWord v) := rfl

section
variable (h : p.shuns c = true)
include h

theorem consuming_of_shuns : p.Consuming := by
  simp only [shuns, Bool.and_eq_true, Bool.not_eq_true'] at h
  rintro u w v ⟨g, g', hw⟩ hnil
  rw [hw.nullable hnil] at h
  simp at h

theorem shutOff_of_shuns {a b : Text} (ha : a = [] ∨ ∃ x, a = x ++ [c]) (hb : ∀ d ∈ b.head?, d = c) :
    ShutOff p a b := by
  simp only [shuns, Bool.and_eq_true, Bool.not_eq_true', List.all_eq_true, beq_iff_eq] at h
  obtain ⟨⟨⟨⟨-, hsingles⟩, hchecks⟩, hsets⟩, hword⟩ := h
  refine ⟨hsingles, fun k hk u v => ?_, fun s hs d hd => by rw [hb d hd, hsets s hs]⟩
  have hleft : endsInWord (a ++ u) = endsInWord u := by
    by_cases hu : u = []
    · rcases ha with rfl | ⟨x, rfl⟩
      · rfl
      · rw [hu, List.append_nil, endsInWord_append (by simp), endsInWord_singleton, hword, endsInWord_nil]
    · exact endsInWord_append hu a
  have hright : beginsInWord (v ++ b) = beginsInWord v := by
    cases v with
    | nil =>
      cases b with
      | nil => rfl
      | cons d b => rw [List.nil_append, beginsInWord_cons, hb d rfl, hword, beginsInWord_nil]
    | cons d v => rfl
  rw [hchecks k hk, holds_wordEdge, holds_wordEdge, hleft, hright]

theorem matchAt?_of_shuns (u t : Text) : p.matchAt? (between u (c :: t)) = none := by
  have hwhole := matchAt?_within (shutOff_of_shuns h (a := []) (b := c :: t) (.inl rfl) (by simp)) u []
  rw [List.nil_append, List.nil_append] at hwhole
  rw [hwhole, Option.map_eq_none_iff, Option.eq_none_iff_forall_not_mem]
  intro m hm
  exact (consuming_of_shuns h).width_ne_zero hm (Nat.le_zero.1 (width_le_of_matchAt? hm))

/-- A text is searched on either side of a character that is never taken. -/
theorem findAll_append_cons (a b : Text) :
    p.findAll (a ++ c :: b) =
      (p.findAll a).map (Match.within [] (c :: b)) ++ (p.findAll b).map (Match.within (a ++ [c]) []) := by
  have hleft := matchesFrom_within (consuming_of_shuns h)
    (shutOff_of_shuns h (a := []) (b := c :: b) (.inl rfl) (by simp)) [] a
  have hright := matchesFrom_within (consuming_of_shuns h)
    (shutOff_of_shuns h (a := a ++ [c]) (b := []) (.inr ⟨a, rfl⟩) (by simp)) [] b
  rw [List.append_nil, List.append_nil, matchesFrom_nil (consuming_of_shuns h), List.append_nil] at hright
  rw [findAll_eq_matchesFrom, findAll_eq_matchesFrom, findAll_eq_matchesFrom, ← hright,
    ← matchesFrom_cons_of_none (matchAt?_of_shuns h a b)]
  exact hleft

/-- Matches are replaced on either side of a character that is never taken. -/
theorem replaceAllBy_append_cons
    (hf : ∀ a b u x m, p.matchAt? (between u x) = some m → f (m.within a b) = f m) (a b : Text) :
    p.replaceAllBy f (a ++ c :: b) = p.replaceAllBy f a ++ c :: p.replaceAllBy f b := by
  have hleft := replaceFrom_within (consuming_of_shuns h)
    (shutOff_of_shuns h (a := []) (b := c :: b) (.inl rfl) (by simp)) (hf _ _) [] a
  have hright := replaceFrom_within (consuming_of_shuns h)
    (shutOff_of_shuns h (a := a ++ [c]) (b := []) (.inr ⟨a, rfl⟩) (by simp)) (hf _ _) [] b
  rw [List.append_nil, List.append_nil, replaceFrom_nil (consuming_of_shuns h), List.append_nil] at hright
  rw [replaceAllBy_eq_replaceFrom, replaceAllBy_eq_replaceFrom, replaceAllBy_eq_replaceFrom, ← hright,
    ← replaceFrom_cons_of_none (matchAt?_of_shuns h a b)]
  exact hleft

end

/-! ## Groups -/

/-- A group is cut out of the text. -/
theorem Takes.groups_cut {u w v : Text} {g g' : Groups} (h : Takes p u w v g g') :
    ∀ e ∈ g', e ∈ g ∨ ∃ x y z, u ++ (w ++ v) = x ++ (y ++ z) ∧
      e.2 = (between x (y ++ z), between (x ++ y) z) := by
  induction p generalizing u w v g g' with
  | empty => rw [h.2]; exact fun e => .inl
  | one s => rw [h.2]; exact fun e => .inl
  | check k => rw [h.2.2]; exact fun e => .inl
  | seq p q ihp ihq =>
    obtain ⟨a, b, m, rfl, hp, hq⟩ := h
    intro e he
    rcases ihq hq e he with he | hcut
    · simpa using ihp hp e he
    · exact .inr (by simpa using hcut)
  | alt p q ihp ihq => exact h.elim (fun h => ihp h) fun h => ihq h
  | star greedy p ih =>
    simp only [Takes] at h
    induction h with
    | nil => exact fun e => .inl
    | cons hp _ ihr =>
      intro e he
      rcases ihr e he with he | hcut
      · simpa using ih hp e he
      · exact .inr (by simpa using hcut)
  | group i p ih =>
    obtain ⟨m, hp, rfl⟩ := h
    rintro e (_ | ⟨_, he⟩)
    · exact .inr ⟨u, w, v, rfl, rfl⟩
    · exact ih hp e he

end
end Pattern
open Pattern Cursor

/-- The groups of a match are cut out of the text. -/
theorem Match.lookup_eq_some {p : Pattern} {u x : Text} {m : Match} {i : Nat} {c d : Cursor}
    (hm : p.matchAt? (between u x) = some m) (h : m.groups.lookup i = some (c, d)) :
    ∃ s y z, u ++ x = s ++ (y ++ z) ∧ c = between s (y ++ z) ∧ d = between (s ++ y) z := by
  obtain ⟨w, v, rfl, -, -, htakes⟩ := matchAt?_eq_some hm
  obtain ⟨ps, qs, hgroups, -⟩ := List.lookup_eq_some_iff.1 h
  rcases htakes.groups_cut (i, c, d) (by simp [hgroups]) with hnil | ⟨s, y, z, hsplit, hcut⟩
  · simp at hnil
  · obtain ⟨rfl, rfl⟩ := Prod.mk.inj hcut
    exact ⟨s, y, z, hsplit, rfl, rfl⟩

theorem Groups.lookup_within (a b : Text) (g : Groups) (i : Nat) :
    (Groups.within a b g).lookup i = (g.lookup i).map fun e => (e.1.within a b, e.2.within a b) := by
  induction g with
  | nil => rfl
  | cons e g ih =>
    rw [Groups.within, List.map_cons, ← Groups.within, List.lookup_cons, List.lookup_cons, ih]
    cases i == e.1 <;> rfl

/-- A group of a part has the same text in the whole text. -/
theorem Match.group?_within {p : Pattern} {u x : Text} {m : Match} {i : Nat}
    (hm : p.matchAt? (between u x) = some m) (hi : i ≠ 0) (a b : Text) :
    (m.within a b).group? i = m.group? i := by
  rw [Match.group?, Match.group?, if_neg hi, if_neg hi, Match.within, Groups.lookup_within]
  cases hlookup : m.groups.lookup i with
  | none => rfl
  | some e =>
    obtain ⟨s, y, z, -, hfirst, hlast⟩ := Match.lookup_eq_some hm hlookup
    simp only [Option.map_some, hfirst, hlast, within_between, ← List.append_assoc]
    rw [List.append_assoc y, upTo_between, upTo_between]

/-- The span of a group cuts its text out of the text that is searched. -/
theorem Match.slice?_of_groupSpan? {p : Pattern} {u x : Text} {m : Match} {i : Nat} {s : Span}
    (hm : p.matchAt? (between u x) = some m) (hi : i ≠ 0) (h : m.groupSpan? i = some s) :
    Text.slice? (u ++ x) s.start s.stop = some (m.groupD i) := by
  rw [Match.groupSpan?, if_neg hi, Option.map_eq_some_iff] at h
  obtain ⟨⟨c, d⟩, hlookup, rfl⟩ := h
  obtain ⟨a, y, z, hsplit, rfl, rfl⟩ := Match.lookup_eq_some hm hlookup
  simp only [Match.groupD_eq hi hlookup, hsplit, offset_between, Text.width_append, ← List.append_assoc]
  exact Text.slice?_append a y z

end DialectBridge
