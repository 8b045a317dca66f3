import DialectBridge.Proofs.Boundaries
/-!
# Patterns with visible ends

Whether a pattern takes white space at the ends of its matches can be read off the pattern. A
pattern is `framed` if its matches end with a visible character and begin with one, or else begin
with all the white space that is there. Where a framed pattern is found in a masked query, the
query can be cut (`isBoundary_of_mem_findAll`).
-/
namespace DialectBridge
open Pattern Cursor

/-! ## Visible characters -/

namespace CharSet

/-- Whether no white space is in a set. -/
def visible (s : CharSet) : Bool :=
  Unicode.blankRanges.all fun (lo, hi) => (List.range' lo (hi + 1 - lo)).all fun n => !s.ranges.has n

theorem isBlank_of_visible {s : CharSet} (hs : s.visible = true) {c : Char}
    (hc : s.contains c = true) : Unicode.isBlank c = false := by
  have hsorted : Unicode.blankRanges.Sorted := by
    unfold Unicode.Ranges.Sorted
    decide
  by_contra hblank
  rw [Bool.not_eq_false] at hblank
  obtain ⟨⟨lo, hi⟩, hr, hlo, hhi⟩ := (Unicode.Ranges.has_eq_true_iff hsorted).1 hblank
  have hrange := List.all_eq_true.1 hs _ hr
  have hnot := List.all_eq_true.1 hrange c.toNat (List.mem_range'_1.2 ⟨hlo, by simp only at hhi; omega⟩)
  simp only [contains, Unicode.Ranges.contain] at hc
  simp [hc] at hnot

end CharSet

namespace Pattern

/-! ## Visible ends -/

def nullable : Pattern → Bool
  | empty | check _ | star _ _ => true
  | one _ => false
  | seq p q => p.nullable && q.nullable
  | alt p q => p.nullable || q.nullable
  | group _ p => p.nullable

/-- Whether what a pattern takes does not begin with white space. -/
def visibleStart : Pattern → Bool
  | empty | check _ => true
  | one s => s.visible
  | seq p q => p.visibleStart && (!p.nullable || q.visibleStart)
  | alt p q => p.visibleStart && q.visibleStart
  | star _ p | group _ p => p.visibleStart

/-- Whether what a pattern takes does not end with white space. -/
def visibleEnd : Pattern → Bool
  | empty | check _ => true
  | one s => s.visible
  | seq p q => q.visibleEnd && (!q.nullable || p.visibleEnd)
  | alt p q => p.visibleEnd && q.visibleEnd
  | star _ p | group _ p => p.visibleEnd

variable {p : Pattern} {u w v : Text} {g g' : Groups}

theorem Takes.nullable (h : Takes p u w v g g') (hw : w = []) : p.nullable = true := by
  induction p generalizing u w v g g' with
  | empty | check _ | star _ _ _ => rfl
  | one s =>
    obtain ⟨⟨x, rfl, -⟩, -⟩ := h
    simp at hw
  | seq p q ihp ihq =>
    obtain ⟨a, b, m, rfl, ha, hb⟩ := h
    obtain ⟨rfl, rfl⟩ := List.append_eq_nil_iff.1 hw
    rw [Pattern.nullable, ihp ha rfl, ihq hb rfl]
    rfl
  | alt p q ihp ihq =>
    rw [Pattern.nullable, Bool.or_eq_true]
    exact h.imp (ihp · hw) (ihq · hw)
  | group i p ih =>
    obtain ⟨m, h, -⟩ := h
    exact ih h hw

theorem Takes.visibleStart (h : Takes p u w v g g') (hp : p.visibleStart = true) :
    ∀ c ∈ w.head?, Unicode.isBlank c = false := by
  induction p generalizing u w v g g' with
  | empty | check _ =>
    obtain ⟨rfl, -⟩ := h
    simp
  | one s =>
    obtain ⟨⟨x, rfl, hx⟩, -⟩ := h
    rintro _ ⟨⟩
    exact CharSet.isBlank_of_visible hp hx
  | seq p q ihp ihq =>
    obtain ⟨a, b, m, rfl, ha, hb⟩ := h
    simp only [Pattern.visibleStart, Bool.and_eq_true, Bool.or_eq_true, Bool.not_eq_true'] at hp
    cases a with
    | nil =>
      refine ihq hb (hp.2.resolve_left ?_)
      rw [ha.nullable rfl]
      simp
    | cons c a => exact fun d hd => ihp ha hp.1 d hd
  | alt p q ihp ihq =>
    rw [Pattern.visibleStart, Bool.and_eq_true] at hp
    exact h.elim (ihp · hp.1) (ihq · hp.2)
  | star greedy p ih =>
    rw [Pattern.visibleStart] at hp
    simp only [Takes] at h
    induction h with
    | nil => simp
    | @cons u a b v g m g' ha _ ihr =>
      cases a with
      | nil => exact ihr
      | cons c a => exact fun d hd => ih ha hp d hd
  | group i p ih =>
    obtain ⟨m, h, -⟩ := h
    exact ih h hp

theorem Takes.visibleEnd (h : Takes p u w v g g') (hp : p.visibleEnd = true) :
    ∀ c ∈ w.getLast?, Unicode.isBlank c = false := by
  induction p generalizing u w v g g' with
  | empty | check _ =>
    obtain ⟨rfl, -⟩ := h
    simp
  | one s =>
    obtain ⟨⟨x, rfl, hx⟩, -⟩ := h
    rintro _ ⟨⟩
    exact CharSet.isBlank_of_visible hp hx
  | seq p q ihp ihq =>
    obtain ⟨a, b, m, rfl, ha, hb⟩ := h
    simp only [Pattern.visibleEnd, Bool.and_eq_true, Bool.or_eq_true, Bool.not_eq_true'] at hp
    by_cases hnil : b = []
    · rw [hnil, List.append_nil]
      refine ihp ha (hp.2.resolve_left ?_)
      rw [hb.nullable hnil]
      simp
    · rw [List.getLast?_append_of_ne_nil _ hnil]
      exact ihq hb hp.1
  | alt p q ihp ihq =>
    rw [Pattern.visibleEnd, Bool.and_eq_true] at hp
    exact h.elim (ihp · hp.1) (ihq · hp.2)
  | star greedy p ih =>
    rw [Pattern.visibleEnd] at hp
    simp only [Takes] at h
    induction h with
    | nil => simp
    | @cons u a b v g m g' ha _ ihr =>
      by_cases hnil : b = []
      · rw [hnil, List.append_nil]
        exact ih ha hp
      · rw [List.getLast?_append_of_ne_nil _ hnil]
        exact ihr
  | group i p ih =>
    obtain ⟨m, h, -⟩ := h
    exact ih h hp

/-! ## Leading white space -/

/-- A match can be made longer by a character of the leading set before it. -/
theorem Takes.cons_of_leading {s : CharSet} (hp : p.leading? = some s) {x : Char}
    (hx : s.contains x = true) (h : Takes p (u ++ [x]) w v g g') (k : Groups) :
    ∃ k', Takes p u (x :: w) v k k' := by
  have hone : ∀ (v : Text) (k : Groups), Takes (one s) u [x] v k k := fun v k => ⟨⟨x, rfl, hx⟩, rfl⟩
  induction p generalizing w v g g' k with
  | star greedy p _ =>
    cases greedy <;> cases p <;> simp only [leading?, reduceCtorEq, Option.some.injEq] at hp
    subst hp
    obtain ⟨k', hk'⟩ := Matches.takes ⟨g, g', h⟩ k
    exact ⟨k', Rounds.cons (w := [x]) (hone _ k) hk'⟩
  | seq p q ihp ihq =>
    obtain ⟨a, b, m, rfl, ha, hb⟩ := h
    by_cases hs : ∃ s t, p = one s ∧ q = star true (one t)
    · obtain ⟨s', t, rfl, rfl⟩ := hs
      simp only [leading?] at hp
      split_ifs at hp with hst
      obtain rfl : s' = s := Option.some.inj hp
      subst hst
      obtain ⟨⟨y, rfl, hy⟩, -⟩ := ha
      obtain ⟨k', hk'⟩ := Matches.takes ⟨m, g', hb⟩ k
      refine ⟨k', [x], [y] ++ b, k, rfl, hone _ k, Rounds.cons (h := k) ?_ hk'⟩
      exact ⟨⟨y, rfl, hy⟩, rfl⟩
    · rw [leading?] at hp
      · obtain ⟨m', ha'⟩ := ihp hp ha k
        obtain ⟨k', hb'⟩ := Matches.takes ⟨m, g', hb⟩ m'
        refine ⟨k', x :: a, b, m', rfl, ha', ?_⟩
        simpa using hb'
      · exact fun s t h h' => hs ⟨s, t, h, h'⟩
  | group i p ih =>
    obtain ⟨m, h, -⟩ := h
    obtain ⟨k', hk'⟩ := ih hp h k
    exact ⟨_, k', hk', rfl⟩
  | alt p q ihp ihq =>
    simp only [leading?] at hp
    cases hs : leading? p with
    | none => simp [hs] at hp
    | some t =>
      simp only [hs, Option.bind_eq_bind, Option.bind_some] at hp
      split_ifs at hp with ht
      obtain rfl : t = s := Option.some.inj hp
      rcases h with h | h
      · obtain ⟨k', hk'⟩ := ihp hs h k
        exact ⟨k', .inl hk'⟩
      · obtain ⟨k', hk'⟩ := ihq ht h k
        exact ⟨k', .inr hk'⟩
  | _ => simp [leading?] at hp

/-- Whether a pattern takes no white space at the ends of its matches, or at their start all the
white space that is there. -/
def framed (p : Pattern) : Bool :=
  !p.nullable && p.visibleEnd && (p.visibleStart || p.leading? == some .blank)

variable (hp : p.framed = true)
include hp

theorem consuming_of_framed : p.Consuming := by
  rintro u w v ⟨g, g', h⟩ hw
  simp only [framed, h.nullable hw] at hp
  simp at hp

omit hp in
/-- Of two matches that are found, the first one stops before the second one starts. -/
theorem stop_le_start {t : Text} {m m' : Match} (hm : m ∈ p.findAll t) (hm' : m' ∈ p.findAll t)
    (hlt : m.start < m'.start) : m.stop ≤ m'.start := by
  have hle : ∀ m ∈ p.findAll t, m.start ≤ m.stop := by
    intro m hm
    obtain ⟨u, x, rfl, hat⟩ := exists_of_mem_findAll hm
    obtain ⟨w, v, rfl, hfirst, hlast, -⟩ := width_of_matchAt? hat
    simp [Match.start, Match.stop, hfirst, hlast]
  have hpair := pairwise_findAll p t
  generalize p.findAll t = ms at *
  induction ms with
  | nil => simp at hm
  | cons m₀ ms ih =>
    obtain ⟨hhead, htail⟩ := List.pairwise_cons.1 hpair
    rcases List.mem_cons.1 hm with rfl | hin
    · rcases List.mem_cons.1 hm' with rfl | hin'
      · omega
      · exact hhead m' hin'
    · rcases List.mem_cons.1 hm' with rfl | hin'
      · -- `m'` comes first here, so it would stop before `m` starts
        have := hhead m hin
        have := hle m' (by simp)
        omega
      · exact ih hin hin' (fun k hk => hle k (by simp [hk])) htail

omit hp in
/-- Text that covers a character and ends with it has it at its end. -/
theorem getLast?_of_width {t v u x : Text} {c : Char} (h : t ++ v = u ++ (c :: x)) (hlt : Text.width u < Text.width t)
    (hle : Text.width t ≤ Text.width (u ++ [c])) : t.getLast? = some c := by
  obtain ⟨e, he, -⟩ := Text.exists_of_width_le h.symm (Nat.le_of_lt hlt)
  obtain ⟨d, hd, -⟩ := Text.exists_of_width_le (by simpa using h : t ++ v = u ++ [c] ++ x) hle
  rw [he, List.append_assoc, List.append_cancel_left_eq] at hd
  cases e with
  | nil => simp [he] at hlt
  | cons y e =>
    obtain ⟨rfl, hnil⟩ := List.cons.inj hd
    obtain ⟨rfl, -⟩ := List.append_eq_nil_iff.1 hnil.symm
    rw [he, List.getLast?_append_of_ne_nil _ (by simp)]
    rfl

/-- A framed pattern is found behind all the white space at a place, or in front of it. -/
theorem isBlank_of_mem_findAll {u x : Text} {m : Match} (hm : m ∈ p.findAll (u ++ x))
    (hat : p.matchAt? (between u x) = some m) :
    (∀ c ∈ u.getLast?, Unicode.isBlank c = false) ∨ ∀ c ∈ x.head?, Unicode.isBlank c = false := by
  have hconsuming := consuming_of_framed hp
  simp only [framed, Bool.and_eq_true, Bool.or_eq_true, Bool.not_eq_true', beq_iff_eq] at hp
  obtain ⟨⟨-, hend⟩, hstart | hlead⟩ := hp
  · obtain ⟨w, v, rfl, -, -, hw⟩ := matchAt?_eq_some hat
    have hne := hconsuming u w v ⟨_, _, hw⟩
    refine .inr ?_
    obtain ⟨c, w, rfl⟩ := List.exists_cons_of_ne_nil hne
    exact hw.visibleStart hstart
  refine .inl fun c hc => ?_
  obtain ⟨u, rfl⟩ := List.getLast?_eq_some_iff.1 hc
  by_contra hblank
  rw [Bool.not_eq_false] at hblank
  -- otherwise the search finds a match that begins before the white space
  obtain ⟨w, v, rfl, hfirst, hlast, hw⟩ := matchAt?_eq_some hat
  obtain ⟨k', hk⟩ := hw.cons_of_leading hlead hblank []
  have hsome : (p.matchAt? (between u (c :: (w ++ v)))).isSome = true :=
    isSome_matchAt?_iff.2 ⟨c :: w, v, [], k', rfl, hk⟩
  obtain ⟨m₀, hm₀⟩ := Option.isSome_iff_exists.1 hsome
  obtain ⟨w₀, v₀, hsplit, hfirst₀, hlast₀, hw₀⟩ := matchAt?_eq_some hm₀
  have hstart : m.start = Text.width (u ++ [c]) := by simp [Match.start, hfirst]
  have hstart₀ : m₀.start = Text.width u := by simp [Match.start, hfirst₀]
  have hpos := c.utf8Size_pos
  have hlonger : ∀ m' ∈ p.findAll (u ++ [c] ++ (w ++ v)), m'.start ≤ Text.width u →
      Text.width u < m'.stop → False := by
    intro m' hm' hle hlt
    have hstop := stop_le_start hm' hm (by rw [hstart, Text.width_append, Text.width_cons]; omega)
    obtain ⟨u', x', ht, hat'⟩ := exists_of_mem_findAll hm'
    obtain ⟨w', v', rfl, hfirst', hlast', hw'⟩ := matchAt?_eq_some hat'
    have hstop' : m'.stop = Text.width (u' ++ w') := by simp [Match.stop, hlast']
    rw [hstart, hstop'] at hstop
    rw [hstop'] at hlt
    -- the listed match ends with the white space
    have hlast : (u' ++ w').getLast? = some c :=
      getLast?_of_width (v := v') (x := w ++ v) (by simpa using ht.symm) hlt hstop
    rw [List.getLast?_append_of_ne_nil _ (hconsuming _ _ _ ⟨_, _, hw'⟩)] at hlast
    rw [hw'.visibleEnd hend c hlast] at hblank
    exact absurd hblank (by decide)
  have hstop₀ : Text.width u < m₀.stop := by
    have := Text.width_pos (hconsuming _ _ _ ⟨_, _, hw₀⟩)
    simp only [Match.stop, hlast₀, offset_between, Text.width_append]
    omega
  have hsame : u ++ (c :: (w ++ v)) = u ++ [c] ++ (w ++ v) := by simp
  rcases mem_findAll_or_exists hconsuming hm₀ with h | ⟨m', hm', hlt, hgt⟩
  · rw [hsame] at h
    exact hlonger m₀ h (Nat.le_of_eq hstart₀) hstop₀
  · rw [hsame] at hm'
    rw [hstart₀] at hlt hgt
    exact hlonger m' hm' (Nat.le_of_lt hlt) hgt

/-- Where a framed pattern is found in a masked query, the query can be cut. -/
theorem isBoundary_of_mem_findAll {sql : Text} {m : Match} (hm : m ∈ p.findAll (mask sql)) :
    Text.IsBoundary sql m.start ∧ Text.IsBoundary sql m.stop ∧ m.start < m.stop := by
  obtain ⟨u, x, hmask, hat⟩ := exists_of_mem_findAll hm
  have hside := isBlank_of_mem_findAll hp (hmask ▸ hm) hat
  have hconsuming := consuming_of_framed hp
  obtain ⟨w, v, rfl, hfirst, hlast, hw⟩ := matchAt?_eq_some hat
  have hne := hconsuming u w v ⟨_, _, hw⟩
  simp only [framed, Bool.and_eq_true] at hp
  have hstart : m.start = Text.width u := by simp [Match.start, hfirst]
  have hstop : m.stop = Text.width (u ++ w) := by simp [Match.stop, hlast]
  rw [hstart, hstop]
  refine ⟨hside.elim (isBoundary_of_getLast? hmask) (isBoundary_of_head? hmask), ?_, ?_⟩
  · rw [← List.append_assoc] at hmask
    refine isBoundary_of_getLast? hmask ?_
    rw [List.getLast?_append_of_ne_nil _ hne]
    exact hw.visibleEnd hp.1.2
  · have := Text.width_pos hne
    rw [Text.width_append]
    omega

end Pattern
end DialectBridge
