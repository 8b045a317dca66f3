import DialectBridge.Proofs.CallReading
import DialectBridge.Proofs.Tokens
/-!
# Where calls begin

The head of a call is a word and, behind white space, a parenthesis. A search finds a head wherever
there is one (`exists_mem_head`), and finds it last if nothing else is in reach
(`lastBefore?_eq_some`).
-/
namespace DialectBridge
open Pattern Cursor

variable {name : Text}

theorem matches_head {u w v : Text} (hname : isName name = true) :
    Matches (Call.head name) u w v ↔ ∃ n b, w = n ++ (b ++ ['(']) ∧ Spelled name n ∧
      (∀ c ∈ b, Unicode.isBlank c = true) ∧ endsInWord u = false := by
  constructor
  · intro h
    obtain ⟨w, p, rfl, hw, hp⟩ := matches_seq.1 h
    obtain ⟨w, b, rfl, hw, hb⟩ := matches_seq.1 hw
    obtain ⟨e, n, rfl, he, hn⟩ := matches_seq.1 hw
    obtain rfl := matches_sym.1 hp
    obtain ⟨rfl, hedge⟩ := matches_edge.1 he
    have hn := matches_word.1 hn
    refine ⟨n, b, by simp, hn, matches_many_one.1 hb, ?_⟩
    rw [hn.beginsInWord hname] at hedge
    simpa using hedge
  · rintro ⟨n, b, rfl, hn, hb, hu⟩
    refine matches_seq.2 ⟨n ++ b, ['('], by simp, matches_seq.2 ⟨n, b, rfl, matches_seq.2 ⟨[], n, rfl,
      matches_edge.2 ⟨rfl, ?_⟩, matches_word.2 hn⟩, matches_many_one.2 hb⟩, matches_sym.2 rfl⟩
    rw [hu, hn.beginsInWord hname]
    simp

/-- The parts of a head that a search finds. -/
structure HeadAt (name t : Text) (m : Match) (u n b v : Text) : Prop where
  split : t = u ++ (n ++ (b ++ '(' :: v))
  spelled : Spelled name n
  blank : ∀ c ∈ b, Unicode.isBlank c = true
  left : endsInWord u = false
  start : m.start = Text.width u
  stop : m.stop = Text.width (u ++ (n ++ b)) + 1

theorem exists_headAt (hname : isName name = true) {t : Text} {m : Match}
    (hm : m ∈ (Call.head name).findAll t) : ∃ u n b v, HeadAt name t m u n b v := by
  have hopen : '('.utf8Size = 1 := by decide
  obtain ⟨u, s, rfl, hat⟩ := exists_of_mem_findAll hm
  obtain ⟨w, v, rfl, hfirst, hlast, hw⟩ := matchAt?_eq_some hat
  obtain ⟨n, b, rfl, hn, hb, hu⟩ := (matches_head hname).1 ⟨_, _, hw⟩
  refine ⟨u, n, b, v, by simp, hn, hb, hu, by simp [Match.start, hfirst], ?_⟩
  simp only [Match.stop, hlast, offset_between, Text.width_append, Text.width_cons, Text.width_nil,
    hopen]
  omega

theorem consuming_head (hname : isName name = true) : (Call.head name).Consuming := by
  rintro u w v h rfl
  obtain ⟨n, b, hw, -, -, -⟩ := (matches_head hname).1 h
  simp at hw

/-- No head begins inside of another one. -/
theorem isolated_head (hname : isName name = true) : (Call.head name).Isolated := by
  intro u a b v ha hb h w v' hsplit h'
  obtain ⟨n, k, hw, hn, hk, -⟩ := (matches_head hname).1 h
  obtain ⟨n', k', rfl, hn', -, hleft⟩ := (matches_head hname).1 h'
  rw [endsInWord_append ha] at hleft
  have hbegin : beginsInWord b = true := by
    rw [← beginsInWord_append hb v, hsplit, List.append_assoc]
    exact hn'.beginsInWord hname _
  rcases List.append_eq_append_iff.1 hw with ⟨c, hn₁, hb₁⟩ | ⟨c, rfl, hk₁⟩
  · -- the second head would begin inside of the name
    have : endsInWord a = true := endsInWord_of_all ha fun d hd => hn.isWordChar hname d (by simp [hn₁, hd])
    rw [hleft] at this
    exact absurd this (by decide)
  · -- or inside of the white space, or at the parenthesis
    obtain ⟨d, b, rfl⟩ := List.exists_cons_of_ne_nil hb
    have hd : d ∈ k ++ ['('] := by rw [hk₁]; simp
    have hword : Unicode.isWordChar d = true := hbegin
    rcases List.mem_append.1 hd with hd | hd
    · rw [isWordChar_of_isBlank (hk d hd)] at hword
      exact absurd hword (by decide)
    · obtain rfl := List.mem_singleton.1 hd
      exact absurd hword (by decide)

theorem exists_mem_head (hname : isName name = true) {u n b v : Text} (hn : Spelled name n)
    (hb : ∀ c ∈ b, Unicode.isBlank c = true) (hu : endsInWord u = false) :
    ∃ m ∈ (Call.head name).findAll (u ++ (n ++ (b ++ '(' :: v))),
      m.start = Text.width u ∧ m.stop = Text.width (u ++ (n ++ b)) + 1 := by
  have hopen : '('.utf8Size = 1 := by decide
  have hmatches : Matches (Call.head name) u (n ++ (b ++ ['('])) v :=
    (matches_head hname).2 ⟨n, b, rfl, hn, hb, hu⟩
  obtain ⟨g, g', htakes⟩ := hmatches
  obtain ⟨m, hm⟩ := Option.isSome_iff_exists.1 (isSome_matchAt?_iff.2 ⟨_, v, g, g', rfl, htakes⟩)
  have hsplit : u ++ (n ++ (b ++ '(' :: v)) = u ++ (n ++ (b ++ ['(']) ++ v) := by simp
  refine ⟨m, hsplit ▸ (mem_findAll_iff (consuming_head hname) (isolated_head hname)).2 ⟨u, _, rfl, hm⟩, ?_⟩
  obtain ⟨w', v', hw', hfirst, hlast, hm'⟩ := matchAt?_eq_some hm
  obtain ⟨n', b', rfl, hn', hb', -⟩ := (matches_head hname).1 ⟨_, _, hm'⟩
  -- the head ends at the same parenthesis
  obtain ⟨rfl, hrest⟩ : n' = n ∧ b' ++ ['('] ++ v' = b ++ ['('] ++ v := by
    have hlength : n'.length = n.length := by
      rw [← List.Forall₂.length_eq hn, List.Forall₂.length_eq hn']
    have := List.append_inj (show n' ++ (b' ++ ['('] ++ v') = n ++ (b ++ ['('] ++ v) by
      simpa using hw'.symm) hlength
    exact this
  have hclose : Unicode.isBlank '(' = false := by decide
  have hsame : b' = b := by
    have htake : ∀ {b v : Text}, (∀ c ∈ b, Unicode.isBlank c = true) →
        (b ++ ['('] ++ v).takeWhile Unicode.isBlank = b := by
      intro b v hb
      rw [List.append_assoc, List.takeWhile_append_of_pos hb]
      simp [hclose]
    rw [← htake (v := v') hb', hrest, htake hb]
  subst hsame
  refine ⟨by simp [Match.start, hfirst], ?_⟩
  simp only [Match.stop, hlast, offset_between, Text.width_append, Text.width_cons, Text.width_nil,
    hopen]
  omega

/-- A head is the last one before a place that it reaches. -/
theorem lastBefore?_eq_some {t : Text} {m : Match} {limit : Nat}
    (hm : m ∈ (Call.head name).findAll t) (hstart : m.start < limit) (hstop : limit ≤ m.stop) :
    Call.lastBefore? name t limit = some m := by
  obtain ⟨l, r, hsplit⟩ := List.append_of_mem hm
  have hpair := pairwise_findAll (Call.head name) t
  rw [hsplit] at hpair
  have hafter := (List.pairwise_cons.1 (List.pairwise_append.1 hpair).2.1).1
  have hnone : r.reverse.find? (fun m' => decide (m'.start < limit)) = none := by
    refine List.find?_eq_none.2 fun m' hm' => ?_
    have := hafter m' (List.mem_reverse.1 hm')
    simp only [decide_eq_true_eq]
    omega
  rw [Call.lastBefore?, hsplit, List.reverse_append, List.reverse_cons, List.append_assoc,
    List.find?_append, hnone]
  simp [hstart]

/-- Only the heads that start between two places tell these apart. -/
theorem lastBefore?_congr {t : Text} {i j : Nat}
    (h : ∀ m ∈ (Call.head name).findAll t, m.start < i ↔ m.start < j) :
    Call.lastBefore? name t i = Call.lastBefore? name t j := by
  rw [Call.lastBefore?, Call.lastBefore?, ← List.head?_filter, ← List.head?_filter]
  refine congrArg List.head? (List.filter_congr fun m hm => ?_)
  exact decide_eq_decide.2 (h m (List.mem_reverse.1 hm))

end DialectBridge
