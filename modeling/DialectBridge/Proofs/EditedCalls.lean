import DialectBridge.Proofs.Patches
/-!
# Heads of calls in a text and in the text with edits

The heads of calls in front of a place where a word begins do not depend on what stands behind it
(`heads_append_iff`). So while calls are edited from right to left, the heads that are left to look at are those
of the text of the beginning (`Sweeping.turn`), and each is closed now if it was closed then (`Turn.close`).
-/
namespace DialectBridge
open Pattern Text LexState

section
variable {name t u n b v x h y p o p' o' : Text} {i j k : Nat}

/-! ## Heads -/

/-- Whether a head of a call of `name` stands from offset `i` to offset `j`. -/
def Heads (name t : Text) (i j : Nat) : Prop := ∃ m ∈ (Call.head name).findAll t, m.start = i ∧ m.stop = j

theorem heads_iff (hname : isName name = true) : Heads name t i j ↔
    ∃ u n b v, t = u ++ (n ++ (b ++ '(' :: v)) ∧ Spelled name n ∧ (∀ c ∈ b, Unicode.isBlank c = true) ∧
      endsInWord u = false ∧ i = width u ∧ j = width (u ++ (n ++ b)) + 1 := by
  constructor
  · rintro ⟨m, hm, rfl, rfl⟩
    obtain ⟨u, n, b, v, h⟩ := exists_headAt hname hm
    exact ⟨u, n, b, v, h.split, h.spelled, h.blank, h.left, h.start, h.stop⟩
  · rintro ⟨u, n, b, v, rfl, hn, hb, hu, rfl, rfl⟩
    exact exists_mem_head hname hn hb hu

/-- Where a head ends is told by where it begins. -/
theorem Heads.stop_eq (hname : isName name = true) (h : Heads name t i j) (h' : Heads name t i k) : j = k := by
  obtain ⟨u, n, b, v, rfl, hn, hb, -, rfl, rfl⟩ := (heads_iff hname).1 h
  obtain ⟨u', n', b', v', hsplit, hn', hb', -, hu, rfl⟩ := (heads_iff hname).1 h'
  obtain ⟨rfl, hrest⟩ := append_inj_of_width hsplit hu
  have hlength : n.length = n'.length := by rw [← List.Forall₂.length_eq hn, ← List.Forall₂.length_eq hn']
  obtain ⟨rfl, hblank⟩ := List.append_inj hrest hlength
  have hclose : Unicode.isBlank '(' = false := by decide
  have htake : ∀ {b v : Text}, (∀ c ∈ b, Unicode.isBlank c = true) →
      (b ++ '(' :: v).takeWhile Unicode.isBlank = b := by
    intro b v hb
    rw [List.takeWhile_append_of_pos hb]
    simp [hclose]
  rw [← htake (v := v) hb, hblank, htake hb']

/-- The text `h`, with a parenthesis behind it, is a head of a call of `name`. -/
structure HeadText (name h : Text) : Prop where
  part : Part (h ++ ['('])
  named : ∃ n b, mask (h ++ ['(']) = n ++ (b ++ ['(']) ∧ Spelled name n ∧ ∀ c ∈ b, Unicode.isBlank c = true

theorem HeadText.nested (hname : isName name = true) (hh : HeadText name h) :
    nest 0 (mask (h ++ ['('])) = some 1 := by
  obtain ⟨n, b, hmask, hn, hb⟩ := hh.named
  have hword := nest_of_isWordChar_or_isBlank (t := n ++ b) (fun c hc =>
    (List.mem_append.1 hc).imp (hn.isWordChar hname c) (hb c)) 0
  rw [hmask, ← List.append_assoc, nest_append, hword]
  rfl

theorem HeadText.mask_eq (hh : HeadText name h) (hx : (code.after x).live = true) (y : Text) :
    mask (x ++ (h ++ '(' :: y)) = mask x ++ (mask (h ++ ['(']) ++ mask y) := by
  have hsplit : h ++ '(' :: y = h ++ ['('] ++ y := by simp
  rw [hsplit, mask_append (hh.part.joins hx y), ← maskFrom_code (_ ++ y), hh.part.maskFrom rfl]

/-- The head of a call in a mask is one in the query. -/
theorem heads_mask_iff (hname : isName name = true) : Heads name (mask t) i j ↔
    ∃ x h y, t = x ++ (h ++ '(' :: y) ∧ i = width x ∧ j = width (x ++ h) + 1 ∧ (code.after x).live = true ∧
      endsInWord x = false ∧ HeadText name h := by
  constructor
  · intro hhead
    obtain ⟨u, n, b, v, hmask, hn, hb, hu, rfl, rfl⟩ := (heads_iff hname).1 hhead
    have hparen : mask t = u ++ (n ++ b) ++ '(' :: v := by rw [hmask]; simp
    obtain ⟨a, y, rfl, ha, -, hja⟩ := exists_of_mask_eq (by decide) hparen
    obtain ⟨x, r, hsplit, hx, -, hlive, -⟩ := exists_cut_word (hn.ne_nil hname) (hn.isWordChar hname) hmask
    have hwidth : width a = width (u ++ (n ++ b)) := by rw [← width_mask, ha]
    obtain ⟨h, rfl, hr⟩ := exists_of_width_le hsplit.symm (by
      rw [hwidth, ← width_mask x, hx, width_append]
      omega)
    have hbegins : beginsInWord (h ++ ['(']) = true := by
      have hne : h ≠ [] := by
        rintro rfl
        rw [List.append_nil, ← width_mask, hx, width_append, width_append] at hwidth
        have := width_pos (hn.ne_nil hname)
        omega
      rw [beginsInWord_append hne, ← beginsInWord_append hne ('(' :: y), ← hr]
      exact hn.beginsInWord hname r
    have hlivea := live_of_joins hja (by decide)
    have hjoins : (code.after x).joins (h ++ ['(']) = true := joins_of_beginsInWord hlive hbegins
    have hmaskh : mask (h ++ ['(']) = n ++ (b ++ ['(']) := by
      have hparens : mask (x ++ h ++ ['(']) = u ++ (n ++ b) ++ ['('] := by
        rw [mask_append (joins_of_live hlivea (by decide)), ha, mask_of_all_isPlain (by decide)]
      rw [List.append_assoc, mask_append hjoins, hx, List.append_assoc, List.append_assoc] at hparens
      exact List.append_cancel_left hparens
    refine ⟨x, h, y, by simp, by rw [← hx, width_mask], by rw [hwidth], hlive, ?_, ⟨hbegins, ?_⟩, n, b, hmaskh, hn, hb⟩
    · rwa [← endsInWord_mask hlive, hx]
    · rw [← after_of_joins hjoins (by simp), ← after_append, ← List.append_assoc, after_append]
      exact after_of_all_isPlain hlivea (by decide) (by simp)
  · rintro ⟨x, h, y, rfl, rfl, rfl, hlive, hx, hh⟩
    obtain ⟨n, b, hmask, hn, hb⟩ := hh.named
    have hwidth : width (mask x ++ (n ++ b)) = width (x ++ h) := by
      have := congrArg width hmask
      simp only [width_mask, width_append] at this ⊢
      omega
    rw [heads_iff hname]
    refine ⟨mask x, n, b, mask y, ?_, hn, hb, by rwa [endsInWord_mask hlive], (width_mask x).symm, by rw [hwidth]⟩
    rw [hh.mask_eq hlive, hmask]
    simp

/-! ## What stands behind a text -/

/-- Whether nothing stands behind `p`, or a word that begins there in code. -/
def OpensWord (p o : Text) : Prop :=
  o = [] ∨ (code.after p).live = true ∧ endsInWord p = false ∧ beginsInWord o = true

theorem OpensWord.mask_append (h : OpensWord p o) : mask (p ++ o) = mask p ++ mask o := by
  rcases h with rfl | ⟨hlive, -, hbegins⟩
  · simp
  · exact DialectBridge.mask_append (joins_of_beginsInWord hlive hbegins)

/-- A head that begins in front of a word ends in front of it. -/
theorem head_within {q w : Text} (hn : Spelled name n) (hname : isName name = true)
    (hb : ∀ c ∈ b, Unicode.isBlank c = true) (hsplit : q ++ w = u ++ (n ++ (b ++ '(' :: v))) (hu : width u < width q)
    (hw : w = [] ∨ endsInWord q = false ∧ beginsInWord w = true) : ∃ v', q = u ++ (n ++ (b ++ '(' :: v')) := by
  obtain ⟨q, rfl, hrest⟩ := exists_of_width_le hsplit.symm (Nat.le_of_lt hu)
  have hq : q ≠ [] := by
    rintro rfl
    simp at hu
  suffices hlong : ∃ v', q = n ++ (b ++ ['(']) ++ v' by
    obtain ⟨v', rfl⟩ := hlong
    exact ⟨v', by simp⟩
  have hsplit' : n ++ (b ++ ['(']) ++ v = q ++ w := by rw [← hrest]; simp
  rcases List.append_eq_append_iff.1 hsplit' with ⟨v', hv', -⟩ | ⟨z, hz, hw'⟩
  · exact ⟨v', hv'⟩
  cases z with
  | nil => exact ⟨[], by simpa using hz.symm⟩
  | cons c z =>
    -- the word behind `q` would begin inside of the head
    obtain ⟨hend, hbegin⟩ : endsInWord q = false ∧ Unicode.isWordChar c = true := by
      rcases hw with rfl | ⟨hend, hbegin⟩
      · simp at hw'
      · rw [endsInWord_append hq] at hend
        rw [hw'] at hbegin
        exact ⟨hend, hbegin⟩
    have hbehind : c ∉ b ++ ['('] := by
      intro hc
      rcases List.mem_append.1 hc with hc | hc
      · rw [isWordChar_of_isBlank (hb c hc)] at hbegin
        exact absurd hbegin (by decide)
      · obtain rfl := List.mem_singleton.1 hc
        exact absurd hbegin (by decide)
    rcases List.append_eq_append_iff.1 hz with ⟨r, hq', hr⟩ | ⟨r, hn', hr⟩
    · exact absurd (by rw [hr]; simp) hbehind
    · have hword : endsInWord q = true := endsInWord_of_all hq fun d hd => hn.isWordChar hname d (by simp [hn', hd])
      rw [hend] at hword
      exact absurd hword (by decide)

/-- The heads in front of a word do not depend on it. -/
theorem heads_append_iff (hname : isName name = true) (ho : OpensWord p o) (hi : i < width p) :
    Heads name (mask (p ++ o)) i j ↔ Heads name (mask p) i j := by
  rw [ho.mask_append, heads_iff hname, heads_iff hname]
  constructor
  · rintro ⟨u, n, b, v, hsplit, hn, hb, hu, rfl, rfl⟩
    have hw : mask o = [] ∨ endsInWord (mask p) = false ∧ beginsInWord (mask o) = true := by
      rcases ho with rfl | ⟨hlive, hend, hbegin⟩
      · exact .inl mask_nil
      · exact .inr ⟨by rwa [endsInWord_mask hlive], by rwa [beginsInWord_mask]⟩
    obtain ⟨v', hp⟩ := head_within hn hname hb hsplit (by rwa [width_mask]) hw
    exact ⟨u, n, b, v', hp, hn, hb, hu, rfl, rfl⟩
  · rintro ⟨u, n, b, v, hsplit, hn, hb, hu, rfl, rfl⟩
    exact ⟨u, n, b, v ++ mask o, by rw [hsplit]; simp, hn, hb, hu, rfl, rfl⟩

/-! ## Partners -/

/-- The parenthesis of a head in the mask. -/
theorem HeadText.exists_mask (hh : HeadText name h) (hx : (code.after x).live = true) :
    ∃ u, width u = width (x ++ h) ∧ ∀ y, mask (x ++ (h ++ '(' :: y)) = u ++ '(' :: mask y := by
  obtain ⟨n, b, hmask, -, -⟩ := hh.named
  refine ⟨mask x ++ (n ++ b), ?_, fun y => by rw [hh.mask_eq hx, hmask]; simp⟩
  have hwidth := congrArg width hmask
  simp only [width_mask, width_append] at hwidth ⊢
  omega

theorem matchingParen?_of_shuts (hh : HeadText name h) (hx : (code.after x).live = true) (hy : Shuts code 0 y)
    (z : Text) : matchingParen? (mask (x ++ (h ++ '(' :: (y ++ ')' :: z)))) (width (x ++ h)) =
      some (width (x ++ h ++ '(' :: y)) := by
  obtain ⟨u, hu, hmask⟩ := hh.exists_mask hx
  have hclose : isPlain ')' = true := by decide
  have hnest : nest 0 (mask y) = some 0 := by
    rw [← maskFrom_code]
    exact hy.nested
  rw [hmask, mask_append (joins_of_live hy.live hclose), mask_cons_of_isPlain hclose, ← hu,
    matchingParen?_of_nest hnest]
  simp [hu, width_mask, Nat.add_assoc]

theorem matchingParen?_of_unshut (hh : HeadText name h) (hx : (code.after x).live = true) (hy : Unshut code 0 y) :
    matchingParen? (mask (x ++ (h ++ '(' :: y))) (width (x ++ h)) = none := by
  obtain ⟨u, hu, hmask⟩ := hh.exists_mask hx
  rw [hmask, ← hu, Option.eq_none_iff_forall_ne_some]
  intro closing hclosing
  obtain ⟨w, v, hw, -, hnest⟩ := exists_nest_of_matchingParen? hclosing
  exact hy w v (by rw [maskFrom_code, hw]) hnest

theorem isSome_matchingParen?_iff (hh : HeadText name h) (hx : (code.after x).live = true) :
    (matchingParen? (mask (x ++ (h ++ '(' :: y))) (width (x ++ h))).isSome = true ↔ ¬ Unshut code 0 y := by
  rcases (edited_self code 0 y).close 0 with ⟨w, z, _, _, rfl, -, -, -, hshut, -⟩ | ⟨hunshut, -⟩
  · rw [matchingParen?_of_shuts hh hx hshut]
    simp [hshut.not_unshut z]
  · rw [matchingParen?_of_unshut hh hx hunshut]
    simp [hunshut]

/-! ## One round -/

variable {E : Nat → Option (Nat × Text)} {s : LexState}

theorem OpensWord.edited (ho : OpensWord p o) (h : Edited E s i o o') : OpensWord p o' := by
  rcases ho with rfl | ⟨hlive, hend, hbegin⟩
  · rcases h.begins with hhead | ⟨hbegin, -⟩
    · exact .inl (List.head?_eq_none_iff.1 hhead.symm)
    · exact absurd hbegin (by decide)
  · rcases h.begins with hhead | ⟨-, hbegin'⟩
    · refine .inr ⟨hlive, hend, ?_⟩
      obtain ⟨c, o, rfl, hc⟩ := exists_cons_of_beginsInWord hbegin
      obtain ⟨o', rfl⟩ := List.head?_eq_some_iff.1 hhead.symm
      exact hc
    · exact .inr ⟨hlive, hend, hbegin'⟩

/-- A head that is kept. -/
theorem Edited.keep_head (hf : HeadText name h) (hx : (code.after x).live = true)
    (hE : ∀ l, width x ≤ l → l < width (x ++ h) + 1 → E l = none) (he : Edited E code (width (x ++ h) + 1) y p) :
    Edited E (code.after x) (width x) (h ++ '(' :: y) (h ++ '(' :: p) := by
  have hopen : '('.utf8Size = 1 := by decide
  have hwidth : width x + width (h ++ ['(']) = width (x ++ h) + 1 := by simp [hopen, Nat.add_assoc]
  have hkept : Edited E (code.after x) (width x) (h ++ ['('] ++ y) (h ++ ['('] ++ p) :=
    .keep_append (fun l hl hlt => hE l hl (hwidth ▸ hlt)) (by rwa [hf.part.after hx, hwidth])
  simpa using hkept

theorem Heads.lt (hname : isName name = true) (h : Heads name t i j) : i < j ∧ i < width t := by
  obtain ⟨u, n, b, v, rfl, hn, -, -, rfl, rfl⟩ := (heads_iff hname).1 h
  have hpos := width_pos (hn.ne_nil hname)
  simp only [width_append]
  omega

/-- The last head before a place. -/
theorem le_of_lastBefore? (hname : isName name = true) {limit : Nat} {m : Match}
    (h : Call.lastBefore? name t limit = some m) :
    Heads name t m.start m.stop ∧ m.start < limit ∧ ∀ i j, Heads name t i j → i < limit → i ≤ m.start := by
  obtain ⟨hlt, l, r, hsplit, hlater⟩ := List.find?_eq_some_iff_append.1 h
  have hall : (Call.head name).findAll t = r.reverse ++ m :: l.reverse := by
    rw [← List.reverse_inj, hsplit]
    simp
  have hm : m ∈ (Call.head name).findAll t := by
    rw [hall]
    simp
  refine ⟨⟨m, hm, rfl, rfl⟩, by simpa using hlt, ?_⟩
  rintro i j ⟨m', hm', rfl, rfl⟩ hi
  have hstart := (Heads.lt hname ⟨m', hm', rfl, rfl⟩).1
  have hpair := pairwise_findAll (Call.head name) t
  rw [hall] at hm' hpair
  rcases List.mem_append.1 hm' with hm' | hm'
  · have := (List.pairwise_append.1 hpair).2.2 m' hm' m List.mem_cons_self
    omega
  · rcases List.mem_cons.1 hm' with rfl | hm'
    · exact Nat.le_refl _
    · have := hlater m' (List.mem_reverse.1 hm')
      simp [hi] at this

/-- A replacement of calls in a query of which `p` is left to look at: behind it stood `o` and stands `o'`, which
is `o` with the edits. -/
structure Sweeping (name sql : Text) (E : Nat → Option (Nat × Text)) (limit : Nat) (text p o o' : Text) : Prop where
  whole : sql = p ++ o
  now : text = p ++ o'
  opens : OpensWord p o
  edited : Edited E (code.after p) (width p) o o'
  limit : ∀ i j, Heads name (mask text) i j → (i < limit ↔ i < width p)
  at_heads : ∀ i, E i ≠ none → ∃ j, Heads name (mask sql) i j

/-- The whole query is left to look at. -/
theorem Sweeping.start {sql : Text} (hname : isName name = true)
    (hE : ∀ i, E i ≠ none → ∃ j, Heads name (mask sql) i j) :
    Sweeping name sql E (width sql + 1) sql sql [] [] := by
  refine ⟨by simp, by simp, .inl rfl, .nil _ _, fun i j h => ?_, hE⟩
  have hlt := (h.lt hname).2
  rw [width_mask] at hlt
  omega

/-- The heads that are left to look at are those of the query. -/
theorem Sweeping.heads_iff {sql text : Text} {limit : Nat} (hname : isName name = true)
    (h : Sweeping name sql E limit text p o o') (hi : i < width p) :
    Heads name (mask text) i j ↔ Heads name (mask sql) i j := by
  rw [h.whole, h.now, heads_append_iff hname h.opens hi, heads_append_iff hname (h.opens.edited h.edited) hi]

/-- When no head is left, the text is the query with the edits. -/
theorem Sweeping.done {sql text : Text} {limit : Nat} (hname : isName name = true)
    (h : Sweeping name sql E limit text p o o') (hlast : Call.lastBefore? name (mask text) limit = none) :
    Edited E code 0 sql text ∧ ∀ i j, Heads name (mask sql) i j → ¬ i < width p := by
  have hnone : ∀ i j, Heads name (mask sql) i j → ¬ i < width p := by
    intro i j hhead hi
    obtain ⟨m, hm, rfl, rfl⟩ := (h.heads_iff hname hi).2 hhead
    have hlimit := (h.limit _ _ ⟨m, hm, rfl, rfl⟩).2 hi
    have := List.find?_eq_none.1 hlast m (List.mem_reverse.2 hm)
    simp [hlimit] at this
  refine ⟨?_, hnone⟩
  rw [h.whole, h.now]
  refine .keep_append (fun l _ hl => ?_) (by simpa using h.edited)
  by_contra hne
  obtain ⟨j, hhead⟩ := h.at_heads l hne
  exact hnone l j hhead (by omega)

/-- A round of the replacement: the head `f` stands behind `x`, where a word begins in code. Behind its parenthesis
stood `y` and stands `y'`, which is `y` with the edits; and no head stood between. -/
structure Turn (name sql : Text) (E : Nat → Option (Nat × Text)) (text p : Text) (m : Match) (x f y y' : Text) :
    Prop where
  whole : sql = x ++ (f ++ '(' :: y)
  now : text = x ++ (f ++ '(' :: y')
  start : m.start = width x
  stop : m.stop = width (x ++ f) + 1
  le : m.stop ≤ width p
  live : (code.after x).live = true
  left : endsInWord x = false
  head : HeadText name f
  edited : Edited E code m.stop y y'
  last : ∀ i j, Heads name (mask sql) i j → i < width p → i ≤ m.start
  at_heads : ∀ i, E i ≠ none → ∃ j, Heads name (mask sql) i j

theorem Sweeping.turn {sql text : Text} {limit : Nat} {m : Match} (hname : isName name = true)
    (h : Sweeping name sql E limit text p o o') (hlast : Call.lastBefore? name (mask text) limit = some m) :
    ∃ x f y y', Turn name sql E text p m x f y y' := by
  have hopen : '('.utf8Size = 1 := by decide
  obtain ⟨hhead, hlt, hle⟩ := le_of_lastBefore? hname hlast
  have hi : m.start < width p := (h.limit _ _ hhead).1 hlt
  have hlast : ∀ i j, Heads name (mask sql) i j → i < width p → i ≤ m.start := fun i j hsql hi => by
    have htext := (h.heads_iff hname hi).2 hsql
    exact hle i j htext ((h.limit i j htext).2 hi)
  have hnow := h.now
  rw [hnow, heads_append_iff hname (h.opens.edited h.edited) hi, heads_mask_iff hname] at hhead
  obtain ⟨x, f, z, rfl, hstart, hstop, hlive, hend, hf⟩ := hhead
  have hsplit : x ++ (f ++ '(' :: z) = x ++ (f ++ ['(']) ++ z := by simp
  have hwidth : width (x ++ (f ++ '(' :: z)) = m.stop + width z := by
    simp only [hstop, width_append, width_cons, hopen]
    omega
  refine ⟨x, f, z ++ o, z ++ o', by rw [h.whole]; simp, by rw [hnow]; simp, hstart, hstop, by omega, hlive, hend, hf,
    ?_, hlast, h.at_heads⟩
  have hedited := h.edited
  rw [hsplit, after_append, after_append, hf.part.after hlive, ← hsplit, hwidth] at hedited
  refine hedited.keep_append fun l hl hlt => ?_
  by_contra hne
  obtain ⟨j, hhead⟩ := h.at_heads l hne
  have := hlast l j hhead (by omega)
  rw [hstart] at this
  rw [hstop, width_append] at hl
  omega

namespace Turn
variable {sql text f y' q : Text} {m : Match}

/-- The head is one of the query. -/
theorem heads (hname : isName name = true) (h : Turn name sql E text p m x f y y') :
    Heads name (mask sql) m.start m.stop := by
  rw [h.whole, heads_mask_iff hname]
  exact ⟨x, f, y, rfl, h.start, h.stop, h.live, h.left, h.head⟩

/-- What is put in place of the head and of what stands behind it is left for the next round. -/
theorem next (h : Turn name sql E text p m x f y y') (hq : Edited E (code.after x) (width x) (f ++ '(' :: y) q) :
    Sweeping name sql E m.start (x ++ q) x (f ++ '(' :: y) q := by
  refine ⟨h.whole, rfl, .inr ⟨h.live, h.left, ?_⟩, hq, fun i j _ => by rw [h.start], h.at_heads⟩
  have hsplit : f ++ '(' :: y = f ++ ['('] ++ y := by simp
  rw [hsplit, beginsInWord_append h.head.part.ne_nil]
  exact h.head.part.begins

theorem keep (h : Turn name sql E text p m x f y y') (hE : E m.start = none) :
    Sweeping name sql E m.start text x (f ++ '(' :: y) (f ++ '(' :: y') := by
  have hstart := h.start
  have hstop := h.stop
  rw [h.now]
  refine h.next (.keep_head h.head h.live (fun l hl hlt => ?_) (h.stop ▸ h.edited))
  by_contra hne
  obtain ⟨j, hhead⟩ := h.at_heads l hne
  have hle := h.le
  have := h.last l j hhead (by omega)
  obtain rfl : l = m.start := by omega
  exact hne hE

/-- The head has a partner now and had one in the query, or it has none and had none. -/
theorem close (h : Turn name sql E text p m x f y y') :
    (∃ w z w' z', y = w ++ ')' :: z ∧ y' = w' ++ ')' :: z' ∧ Edited E code m.stop w w' ∧
      Edited E code (m.stop + width w + 1) z z' ∧ Shuts code 0 w ∧ Shuts code 0 w' ∧
      matchingParen? (mask sql) (m.stop - 1) = some (m.stop + width w) ∧
      matchingParen? (mask text) (m.stop - 1) = some (m.stop + width w')) ∨
    matchingParen? (mask sql) (m.stop - 1) = none ∧ matchingParen? (mask text) (m.stop - 1) = none := by
  have hopen : '('.utf8Size = 1 := by decide
  have hstop : m.stop - 1 = width (x ++ f) := by rw [h.stop, Nat.add_sub_cancel]
  have hwidth : ∀ w, width (x ++ f ++ '(' :: w) = m.stop + width w := fun w => by
    simp only [h.stop, width_append, width_cons, hopen]
    omega
  rw [hstop, h.whole, h.now]
  rcases h.edited.close 0 with ⟨w, z, w', z', rfl, rfl, hw, hz, hshut, hshut'⟩ | ⟨hy, hy'⟩
  · refine .inl ⟨w, z, w', z', rfl, rfl, hw, hz, hshut, hshut', ?_, ?_⟩
    · rw [matchingParen?_of_shuts h.head h.live hshut, hwidth]
    · rw [matchingParen?_of_shuts h.head h.live hshut', hwidth]
  · exact .inr ⟨matchingParen?_of_unshut h.head h.live hy, matchingParen?_of_unshut h.head h.live hy'⟩

end Turn

end

end DialectBridge
