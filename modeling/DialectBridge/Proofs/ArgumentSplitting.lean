import DialectBridge.Proofs.CallCuts
import DialectBridge.Proofs.Operands
import Mathlib.Data.List.TakeWhile
/-!
# The arguments of a call are its inside, cut at its own commas

The commas are counted in the mask, the arguments are cut from the query. Between a parenthesis and its partner
nothing is closed that is not open, so the count is the depth (`mem_commas_iff`), and both ends of the inside
are code, so a piece that is cut out has the mask that it had in its place (`ArgumentCut.mask_eq`).
-/
namespace DialectBridge
open Text LexState

section
variable {t inside : Text} {pieces : List Text} {i j n : Nat}

/-! ## Commas -/

theorem mem_indexedFrom_iff {c : Char} : (j, c) ∈ indexedFrom i t ↔ ∃ u v, t = u ++ c :: v ∧ j = i + width u := by
  induction t generalizing i with
  | nil => simp [indexedFrom]
  | cons d t ih =>
    rw [indexedFrom, List.mem_cons, ih]
    constructor
    · rintro (h | ⟨u, v, rfl, rfl⟩)
      · obtain ⟨rfl, rfl⟩ := Prod.mk.inj h
        exact ⟨[], t, rfl, rfl⟩
      · exact ⟨d :: u, v, rfl, by rw [width_cons, Nat.add_assoc]⟩
    · rintro ⟨u, v, ht, rfl⟩
      cases u with
      | nil =>
        obtain ⟨rfl, rfl⟩ := List.cons.inj ht
        exact .inl rfl
      | cons e u =>
        obtain ⟨rfl, rfl⟩ := List.cons.inj ht
        exact .inr ⟨u, v, rfl, by rw [width_cons, Nat.add_assoc]⟩

theorem depth_cons (c : Char) (t : Text) : depth (c :: t) = depth [c] + depth t := depth_append [c] t

/-- Where nothing is closed that is not open, the commas outside of parentheses are those at depth zero. -/
theorem mem_commas_iff (hnest : nest n t ≠ none) :
    j ∈ Paren.commas n (indexedFrom i t) ↔ ∃ u v, t = u ++ ',' :: v ∧ j = i + width u ∧ (n : Int) + depth u = 0 := by
  induction t generalizing i n with
  | nil => simp [indexedFrom, Paren.commas]
  | cons c t ih =>
    -- such a comma is `c` itself, or one of the rest, where `k` parentheses are open
    have first : ∀ k : Nat, (k : Int) = n + depth [c] →
        ((∃ u v, c :: t = u ++ ',' :: v ∧ j = i + width u ∧ (n : Int) + depth u = 0) ↔
          (c = ',' ∧ n = 0) ∧ j = i ∨
            ∃ u v, t = u ++ ',' :: v ∧ j = i + c.utf8Size + width u ∧ (k : Int) + depth u = 0) := by
      intro k hk
      constructor
      · rintro ⟨u, v, ht, rfl, hu⟩
        cases u with
        | nil => exact .inl ⟨⟨(List.cons.inj ht).1, by simpa [depth] using hu⟩, rfl⟩
        | cons d u =>
          obtain ⟨rfl, rfl⟩ := List.cons.inj ht
          exact .inr ⟨u, v, rfl, by rw [width_cons, Nat.add_assoc], by rw [depth_cons] at hu; omega⟩
      · rintro (⟨⟨rfl, rfl⟩, rfl⟩ | ⟨u, v, rfl, rfl, hu⟩)
        · exact ⟨[], t, rfl, rfl, rfl⟩
        · exact ⟨c :: u, v, rfl, by rw [width_cons, Nat.add_assoc], by rw [depth_cons]; omega⟩
    rw [nest] at hnest
    rw [indexedFrom, Paren.commas]
    split_ifs at hnest ⊢ with h1 h2 h3 h4
    · rw [ih hnest, first (n + 1) (by simp [h1, depth])]
      simp [h1]
    · exact absurd rfl hnest
    · rw [ih hnest, first (n - 1) (by simp [h2, depth]; omega)]
      simp [h2]
    · rw [List.mem_cons, ih hnest, first n (by rw [depth_singleton h1 h2]; omega)]
      simp [h4]
    · rw [ih hnest, first n (by rw [depth_singleton h1 h2]; omega)]
      simp [h4]

/-! ## Pieces -/

/-- The texts of a list that are joined by commas, each with the offset where it begins. -/
def placed : Nat → List Text → List (Nat × Text)
  | _, [] => []
  | i, p :: ps => (i, p) :: placed (i + width p + 1) ps

/-- The offsets of the commas between them. -/
def seams (i : Nat) (ps : List Text) : List Nat := (placed i ps).dropLast.map fun p => p.1 + width p.2

theorem seams_cons (h : pieces ≠ []) (p : Text) :
    seams i (p :: pieces) = (i + width p) :: seams (i + width p + 1) pieces := by
  obtain ⟨q, ps, rfl⟩ := List.exists_cons_of_ne_nil h
  rfl

theorem join_singleton (sep p : Text) : join sep [p] = p := by simp [join, List.intercalate]

theorem join_append {sep : Text} {l r : List Text} (hl : l ≠ []) (hr : r ≠ []) :
    join sep (l ++ r) = join sep l ++ sep ++ join sep r := by
  induction l with
  | nil => exact absurd rfl hl
  | cons p l ih =>
    by_cases hnil : l = []
    · rw [hnil, join_singleton, List.singleton_append, join_cons hr]
    · rw [List.cons_append, join_cons (by simp [hnil]), join_cons hnil, ih hnil]
      simp only [List.append_assoc]

theorem mem_seams_iff : j ∈ seams i pieces ↔
    ∃ l r, pieces = l ++ r ∧ l ≠ [] ∧ r ≠ [] ∧ j = i + width (join [','] l) := by
  have hcomma : ','.utf8Size = 1 := by decide
  induction pieces generalizing i with
  | nil => simp [seams, placed]
  | cons p ps ih =>
    by_cases hnil : ps = []
    · subst hnil
      simp only [seams, placed, List.singleton_eq_append_iff, List.dropLast_singleton, List.map_nil, List.not_mem_nil,
        false_iff]
      rintro ⟨l, r, ⟨rfl, -⟩ | ⟨-, rfl⟩, hl, hr, -⟩
      · exact hl rfl
      · exact hr rfl
    rw [seams_cons hnil, List.mem_cons]
    refine (or_congr_right ih).trans ⟨?_, ?_⟩
    · rintro (rfl | ⟨l, r, rfl, hl, hr, rfl⟩)
      · exact ⟨[p], ps, rfl, by simp, hnil, by rw [join_singleton]⟩
      · refine ⟨p :: l, r, rfl, by simp, hr, ?_⟩
        simp only [join_cons hl, width_append, width_cons, width_nil, hcomma]
        omega
    · rintro ⟨l, r, hps, hl, hr, rfl⟩
      obtain ⟨q, l, rfl⟩ := List.exists_cons_of_ne_nil hl
      obtain ⟨rfl, rfl⟩ := List.cons.inj hps
      by_cases hl : l = []
      · exact .inl (by rw [hl, join_singleton])
      · refine .inr ⟨l, r, rfl, hl, hr, ?_⟩
        simp only [join_cons hl, width_append, width_cons, width_nil, hcomma]
        omega

theorem seams_of_gaps {stop start : Nat} {cuts : List Nat} (h : pieces.map width = gaps stop start cuts)
    (hle : ∀ i ∈ cuts, start ≤ i) (hpair : cuts.Pairwise (· < ·)) : seams start pieces = cuts := by
  induction cuts generalizing start pieces with
  | nil =>
    obtain ⟨p, rfl, -⟩ := List.map_eq_singleton_iff.1 h
    rfl
  | cons i cuts ih =>
    obtain ⟨p, ps, rfl, hp, hps⟩ := List.map_eq_cons_iff.1 h
    have hnil : ps ≠ [] := by
      rintro rfl
      cases cuts <;> cases hps
    obtain ⟨hnext, hpair⟩ := List.pairwise_cons.1 hpair
    have hi : start + width p = i := by
      have := hle i List.mem_cons_self
      omega
    rw [seams_cons hnil, hi, ih hps (fun j hj => hnext j hj) hpair]

theorem slice?_of_mem_placed {a : Text} {x : Nat × Text} (h : x ∈ placed (width a) pieces) :
    slice? (a ++ join [','] pieces) x.1 (x.1 + width x.2) = some x.2 := by
  have hcomma : ','.utf8Size = 1 := by decide
  induction pieces generalizing a with
  | nil => cases h
  | cons p ps ih =>
    by_cases hnil : ps = []
    · subst hnil
      obtain rfl : x = (width a, p) := by simpa [placed] using h
      rw [join_singleton]
      simpa using slice?_append a p []
    rw [join_cons hnil]
    rcases List.mem_cons.1 h with rfl | h
    · have := slice?_append a p ([','] ++ join [','] ps)
      simpa using this
    · have hwidth : width a + width p + 1 = width (a ++ p ++ [',']) := by simp [hcomma, Nat.add_assoc]
      rw [hwidth] at h
      simpa using ih h

theorem mem_of_mem_placed {x : Nat × Text} (h : x ∈ placed i pieces) : x.2 ∈ pieces := by
  induction pieces generalizing i with
  | nil => cases h
  | cons p ps ih =>
    rcases List.mem_cons.1 h with rfl | h
    · exact List.mem_cons_self
    · exact List.mem_cons_of_mem _ (ih h)

theorem placed_map_mask (i : Nat) (ps : List Text) :
    placed i (ps.map mask) = (placed i ps).map fun x => (x.1, mask x.2) := by
  induction ps generalizing i with
  | nil => rfl
  | cons p ps ih => rw [List.map_cons, placed, placed, width_mask, ih, List.map_cons]

theorem seams_map_mask (i : Nat) (ps : List Text) : seams i (ps.map mask) = seams i ps := by
  rw [seams, placed_map_mask, ← List.map_dropLast, List.map_map, seams]
  exact List.map_congr_left fun x _ => by rw [Function.comp_apply, width_mask]

/-- A piece that is cut out has the mask that it had in its place. -/
theorem ArgumentCut.mask_eq (h : ArgumentCut inside pieces) : mask inside = join [','] (pieces.map mask) := by
  obtain ⟨rfl, hnil, hlive⟩ := h
  induction pieces with
  | nil => exact absurd rfl hnil
  | cons p ps ih =>
    obtain ⟨hp, hps⟩ := List.forall_mem_cons.1 hlive
    by_cases hnil : ps = []
    · simp [hnil, join_singleton]
    have hcomma : isPlain ',' = true := by decide
    rw [List.map_cons, join_cons hnil, join_cons (by simpa using hnil), ← ih hnil hps, List.append_assoc,
      List.singleton_append, mask_append (joins_of_live hp hcomma), mask_cons_of_isPlain hcomma, List.append_assoc,
      List.singleton_append]

/-- Pieces that are cut at the commas at depth zero are well-nested, if they are together. -/
theorem nest_of_seams (hnil : pieces ≠ []) (h : nest 0 (join [','] pieces) = some 0)
    (hseams : ∀ i ∈ seams 0 pieces, ∃ u v, join [','] pieces = u ++ ',' :: v ∧ width u = i ∧ depth u = 0) :
    ∀ p ∈ pieces, nest 0 p = some 0 := by
  have hdepth : ∀ l r, pieces = l ++ r → l ≠ [] → r ≠ [] → depth (join [','] l) = 0 := by
    intro l r hlr hl hr
    obtain ⟨u, v, hjoin, hu, hdepth⟩ := hseams _ (mem_seams_iff.2 ⟨l, r, hlr, hl, hr, rfl⟩)
    rw [hlr, join_append hl hr, List.append_assoc] at hjoin
    obtain ⟨rfl, -⟩ := append_inj_of_width hjoin (by rw [hu, Nat.zero_add])
    exact hdepth
  clear hseams
  induction pieces with
  | nil => exact absurd rfl hnil
  | cons p ps ih =>
    by_cases hps : ps = []
    · subst hps
      rw [join_singleton] at h
      simpa using h
    rw [join_cons hps, List.append_assoc, nest_append] at h
    obtain ⟨k, hp, hrest⟩ := Option.bind_eq_some_iff.1 h
    have hzero : depth p = 0 := by
      have := hdepth [p] ps rfl (by simp) hps
      rwa [join_singleton] at this
    obtain rfl : k = 0 := by
      have := (nest_eq_some hp).1
      omega
    have hlater := ih hps (by simpa [nest] using hrest) fun l r hlr hl hr => by
      have := hdepth (p :: l) r (by rw [hlr]; rfl) (by simp) hr
      rw [join_cons hl, depth_append, depth_append, hzero] at this
      simpa [depth] using this
    exact List.forall_mem_cons.2 ⟨hp, hlater⟩

/-! ## Blank insides -/

theorem dropTrailing_eq_nil_iff {p : Char → Bool} : dropTrailing p t = [] ↔ ∀ c ∈ t, p c = true := by
  rw [dropTrailing, List.reverse_eq_nil_iff, List.dropWhile_eq_nil_iff]
  simp only [List.mem_reverse]

theorem trim_eq_nil_iff : trim t = [] ↔ ∀ c ∈ t, Unicode.isBlank c = true := by
  obtain ⟨b, ht, hb, -⟩ := exists_trimStart t
  rw [trim, trimEnd, dropTrailing_eq_nil_iff]
  refine ⟨fun h c hc => ?_, fun h c hc => h c ((List.dropWhile_sublist _).mem hc)⟩
  rw [ht] at hc
  exact (List.mem_append.1 hc).elim (hb c) (h c)

/-- Only blank parentheses have one blank argument. -/
theorem ArgumentCut.map_trim_eq_iff (h : ArgumentCut inside pieces) : pieces.map trim = [[]] ↔ trim inside = [] := by
  obtain ⟨rfl, hnil, -⟩ := h
  obtain ⟨p, ps, rfl⟩ := List.exists_cons_of_ne_nil hnil
  by_cases hps : ps = []
  · simp [hps, join_singleton]
  · have hcomma : trim (join [','] (p :: ps)) ≠ [] := fun h => by
      have := trim_eq_nil_iff.1 h ',' (by simp [join_cons hps])
      exact absurd this (by decide)
    simp [hps, hcomma]

/-! ## Parentheses -/

/-- A query cut at a parenthesis in code and at its partner. -/
theorem exists_paren_cut {sql : Text} {opening closing : Nat} (hopening : (opening, '(') ∈ indexed (mask sql))
    (hclosing : matchingParen? (mask sql) opening = some closing) :
    ∃ a inside y, sql = a ++ '(' :: (inside ++ ')' :: y) ∧
      mask sql = mask a ++ '(' :: (mask inside ++ ')' :: mask y) ∧ opening = width a ∧
      closing = width (a ++ '(' :: inside) ∧ (code.after inside).live = true ∧ nest 0 (mask inside) = some 0 := by
  obtain ⟨u, v', hmask, rfl⟩ := mem_indexedFrom_iff.1 hopening
  rw [Nat.zero_add, hmask] at hclosing
  obtain ⟨m, v, rfl, rfl, hnest⟩ := exists_nest_of_matchingParen? hclosing
  obtain ⟨a, r, rfl, ha, hr, -⟩ := exists_of_mask_eq (by decide) hmask
  obtain ⟨inside, y, rfl, hi, hy, hji⟩ := exists_of_mask_eq (by decide) hr
  have hwidth : width u = width a := by rw [← ha, width_mask]
  refine ⟨a, inside, y, rfl, by rw [hmask, ha, hi, hy], by rw [hwidth, Nat.zero_add], ?_,
    live_of_joins hji (by decide), hi ▸ hnest⟩
  rw [width_append, width_append, width_cons, width_cons, hwidth, ← hi, width_mask]

/-- The arguments of a call are its inside, cut at the commas of its mask at depth zero and trimmed: together
they are the inside, and each is a well-nested text with the mask that it has in its place. -/
theorem splitArgs?_exact {sql : Text} {opening closing : Nat} (hopening : (opening, '(') ∈ indexed (mask sql))
    (hclosing : matchingParen? (mask sql) opening = some closing) :
    ∃ inner tail pieces,
      slice? sql (opening + 1) closing = some inner ∧ slice? (mask sql) (opening + 1) closing = some (mask inner) ∧
      from? sql (closing + 1) = some tail ∧ from? (mask sql) (closing + 1) = some (mask tail) ∧
      splitArgs? sql (mask sql) opening closing = some (if trim inner = [] then [] else pieces.map trim) ∧
      join [','] pieces = inner ∧
      (∀ i, i ∈ seams 0 pieces ↔ ∃ u v, mask inner = u ++ ',' :: v ∧ width u = i ∧ depth u = 0) ∧
      ∀ p ∈ placed 0 pieces,
        slice? (mask inner) p.1 (p.1 + width p.2) = some (mask p.2) ∧ WellNested (mask p.2) := by
  obtain ⟨a, inner, tail, rfl, hmask, rfl, rfl, hlive, hnest⟩ := exists_paren_cut hopening hclosing
  obtain ⟨pieces, hargs, hcut, hwidths⟩ := exists_splitArgs?_pieces rfl hlive hmask
  -- the commas are counted from the start of the text on
  have hseams : ∀ i, i ∈ seams 0 pieces ↔ ∃ u v, mask inner = u ++ ',' :: v ∧ width u = i ∧ depth u = 0 := by
    intro i
    have hcommas := seams_of_gaps hwidths (fun j hj => by
      obtain ⟨u, v, -, rfl⟩ := mem_commas hj
      exact Nat.le_add_right _ _) (pairwise_commas 0 _ _)
    have hshift : i ∈ seams 0 pieces ↔ width a + 1 + i ∈ seams (width a + 1) pieces := by
      rw [mem_seams_iff, mem_seams_iff]
      simp only [Nat.zero_add, Nat.add_left_cancel_iff]
    rw [hshift, hcommas, mem_commas_iff (by simp [hnest])]
    simp only [Nat.add_left_cancel_iff, Int.natCast_zero, Int.zero_add, @eq_comm _ i]
  have hpieces : ∀ p ∈ pieces.map mask, nest 0 p = some 0 := by
    refine nest_of_seams (by simpa using hcut.ne_nil) (by rwa [← hcut.mask_eq]) ?_
    rw [seams_map_mask, ← hcut.mask_eq]
    exact fun i => (hseams i).1
  obtain ⟨hinner, htail⟩ := slice?_parens a inner tail
  obtain ⟨hinnerMask, htailMask⟩ := slice?_parens (mask a) (mask inner) (mask tail)
  have hstop : width (mask a ++ '(' :: mask inner) = width (a ++ '(' :: inner) := by simp [width_mask]
  rw [← hmask, hstop, width_mask] at hinnerMask
  rw [← hmask, hstop] at htailMask
  refine ⟨inner, tail, pieces, hinner, hinnerMask, htail, htailMask, ?_, hcut.joined.symm, hseams, fun p hp => ?_⟩
  · simp only [hargs, hcut.map_trim_eq_iff]
  · have hplaced : (p.1, mask p.2) ∈ placed (width []) (pieces.map mask) := by
      rw [placed_map_mask]
      exact List.mem_map.2 ⟨p, hp, rfl⟩
    have hslice := slice?_of_mem_placed hplaced
    rw [List.nil_append, ← hcut.mask_eq, width_mask] at hslice
    exact ⟨hslice, wellNested_iff.2 (hpieces _ (mem_of_mem_placed hplaced))⟩

/-- A call with a call and a literal for arguments, both with a comma inside. -/
theorem splitArgs?_exact_nested :
    (1, '(') ∈ indexed (mask "F(a, G(b, c), 'd,e')".toList) ∧
      matchingParen? (mask "F(a, G(b, c), 'd,e')".toList) 1 = some 19 ∧
      ∃ inner tail pieces,
        slice? "F(a, G(b, c), 'd,e')".toList 2 19 = some inner ∧
        slice? (mask "F(a, G(b, c), 'd,e')".toList) 2 19 = some (mask inner) ∧
        from? "F(a, G(b, c), 'd,e')".toList 20 = some tail ∧
        from? (mask "F(a, G(b, c), 'd,e')".toList) 20 = some (mask tail) ∧
        splitArgs? "F(a, G(b, c), 'd,e')".toList (mask "F(a, G(b, c), 'd,e')".toList) 1 19 =
          some (if trim inner = [] then [] else pieces.map trim) ∧
        join [','] pieces = inner ∧
        (∀ i, i ∈ seams 0 pieces ↔ ∃ u v, mask inner = u ++ ',' :: v ∧ width u = i ∧ depth u = 0) ∧
        ∀ p ∈ placed 0 pieces,
          slice? (mask inner) p.1 (p.1 + width p.2) = some (mask p.2) ∧ WellNested (mask p.2) := by
  have hopening : (1, '(') ∈ indexed (mask "F(a, G(b, c), 'd,e')".toList) := by decide +kernel
  have hclosing : matchingParen? (mask "F(a, G(b, c), 'd,e')".toList) 1 = some 19 := by decide +kernel
  exact ⟨hopening, hclosing, splitArgs?_exact hopening hclosing⟩

end

end DialectBridge
