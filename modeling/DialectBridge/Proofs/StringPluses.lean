import DialectBridge.Proofs.CallVisits
import DialectBridge.Proofs.MaskSegments
import DialectBridge.Proofs.Outcomes
/-!
# Pluses between strings

A plus that nothing but white space parts from a quote joins strings, and the rule for `+` gives each of them its
bars. It finds them all, one in each match (`exists_match_of_joins`), but looks for the plus of a match in the query,
where a comment in front of it may hold another one (`concatenation_eq_withBars_iff`).
-/
namespace DialectBridge
open Pattern Cursor LexState Text

/-! ## Edits of single characters -/

section
variable {f : Nat → Char → Text} {g : Match → Option Text} {ms : List Match} {pre a b t w out : Text} {i k : Nat}

/-- A text from offset `i` on, with its characters replaced one by one. -/
def rewritten (f : Nat → Char → Text) (i : Nat) (t : Text) : Text := (indexedFrom i t).flatMap fun c => f c.1 c.2

theorem rewritten_append (f : Nat → Char → Text) (i : Nat) (a b : Text) :
    rewritten f i (a ++ b) = rewritten f i a ++ rewritten f (i + width a) b := by
  rw [rewritten, indexedFrom_append, List.flatMap_append]
  rfl

theorem rewritten_singleton (f : Nat → Char → Text) (i : Nat) (c : Char) : rewritten f i [c] = f i c := by
  simp [rewritten, indexedFrom]

theorem rewritten_cons (f : Nat → Char → Text) (i : Nat) (c : Char) (t : Text) :
    rewritten f i (c :: t) = f i c ++ rewritten f (i + c.utf8Size) t := rfl

theorem rewritten_eq_self (h : ∀ j c, i ≤ j → j < i + width t → f j c = [c]) : rewritten f i t = t := by
  induction t generalizing i with
  | nil => rfl
  | cons c t ih =>
    have hpos := c.utf8Size_pos
    rw [width_cons] at h
    rw [rewritten_cons, h i c (Nat.le_refl i) (by omega), ih fun j d hij hj => h j d (by omega) (by omega)]
    rfl

/-- Where matches are replaced by texts of the right length, the whole text is rewritten if each match is. -/
theorem Replaced.eq_rewritten_iff (h : Replaced g k ms t out) (hk : k = width pre)
    (hkept : ∀ i c, k ≤ i → (∀ m ∈ ms, i < m.start ∨ m.stop ≤ i) → f i c = [c])
    (hlength : ∀ m ∈ ms, ∀ w, slice? (pre ++ t) m.start m.stop = some w →
      ((g m).getD w).length = (rewritten f m.start w).length) :
    out = rewritten f k t ↔ ∀ m ∈ ms, ∀ w, slice? (pre ++ t) m.start m.stop = some w →
      (g m).getD w = rewritten f m.start w := by
  induction h generalizing pre with
  | nil k t => simp [rewritten_eq_self fun j c hij _ => hkept j c hij (by simp)]
  | @cons k m ms a w rest out hstart hstop hrest ih =>
    have hbehind := Replaced.le_start hrest
    have hkept' : rewritten f k a = a := rewritten_eq_self fun j c hij hj => hkept j c hij <| by
      refine List.forall_mem_cons.2 ⟨.inl (by omega), fun m' hm' => .inl ?_⟩
      have := hbehind m' hm'
      omega
    have hslice : slice? (pre ++ (a ++ w ++ rest)) m.start m.stop = some w := by
      have := slice?_append (pre ++ a) w rest
      rw [width_append, ← hk, ← hstart, ← hstop] at this
      simpa using this
    have hpre : pre ++ (a ++ w ++ rest) = pre ++ a ++ w ++ rest := by simp
    have hrest' : rewritten f k (a ++ w ++ rest) = a ++ (rewritten f m.start w ++ rewritten f m.stop rest) := by
      rw [rewritten_append, rewritten_append, hkept', width_append, ← Nat.add_assoc, ← hstart, ← hstop,
        List.append_assoc]
    have hfirst := hlength m (by simp) w hslice
    have hstopped : m.stop = width (pre ++ a ++ w) := by rw [width_append, width_append]; omega
    have hiff := ih hstopped
      (fun i c hi hms => hkept i c (by omega) (List.forall_mem_cons.2 ⟨.inr hi, hms⟩))
      (fun m' hm' => by rw [← hpre]; exact hlength m' (by simp [hm']))
    rw [← hpre] at hiff
    rw [hrest', List.forall_mem_cons, ← hiff, List.append_assoc, List.append_cancel_left_eq]
    constructor
    · intro heq
      obtain ⟨hw, hout⟩ := List.append_inj heq hfirst
      refine ⟨fun w' hw' => ?_, hout⟩
      obtain rfl := Option.some.inj (hslice.symm.trans hw')
      exact hw
    · rintro ⟨hw, rfl⟩
      rw [hw w hslice]

end

/-! ## Pluses and quotes in a mask -/

section
variable {sql u v b b' : Text} {x y c : Char} {i : Nat}

/-- The text between two characters that a mask shows. -/
theorem exists_of_mask_shown (hx : x ≠ ' ') (hy : y ≠ ' ') (h : mask sql = u ++ x :: (b ++ y :: v)) :
    ∃ a g c, sql = a ++ x :: (g ++ y :: c) ∧ width a = width u ∧ width g = width b := by
  rw [← maskFrom_code] at h
  obtain ⟨a, r, hleft, ha⟩ := exists_of_maskFrom_shown hx h
  have hsplit : maskFrom code sql = u ++ x :: b ++ y :: v := by rw [h]; simp
  obtain ⟨a', c, hright, ha'⟩ := exists_of_maskFrom_shown hy hsplit
  have hleft' : sql = a ++ [x] ++ r := by rw [hleft]; simp
  have hwidth : width (a ++ [x]) ≤ width a' := by
    rw [ha', width_append, width_append, ha, width_cons, width_cons, width_nil]
    omega
  obtain ⟨g, rfl, rfl⟩ := exists_of_width_le (hleft'.symm.trans hright) hwidth
  refine ⟨a, g, c, hleft, ha, ?_⟩
  simp only [width_append, width_cons, width_nil] at ha'
  omega

/-- Behind a sign and white space the next sign is the first one. -/
theorem eq_of_append_blanks {r : Text} (hb : ∀ c ∈ b, Unicode.isBlank c = true) (hc : Unicode.isBlank c = false)
    (hx : x.utf8Size = 1) {u' : Text} (h : u ++ c :: r = u' ++ x :: (b ++ y :: v)) (hlt : width u' < width u)
    (hle : width u ≤ width u' + width b + 1) : u = u' ++ x :: b ∧ c = y ∧ r = v := by
  have hfirst : u' ++ [x] ++ (b ++ y :: v) = u ++ c :: r := by rw [h]; simp
  obtain ⟨z, rfl, hz⟩ := exists_of_width_le hfirst (by rw [width_append, width_cons, width_nil]; omega)
  simp only [width_append, width_cons, width_nil] at hle
  obtain ⟨z', rfl, hz'⟩ := exists_of_width_le hz.symm (by omega)
  cases z' with
  | nil =>
    obtain ⟨rfl, rfl⟩ := List.cons.inj hz'
    simp
  | cons d z' =>
    obtain ⟨rfl, -⟩ := List.cons.inj hz'
    rw [hb c (by simp)] at hc
    cases hc

/-- A quote has a plus on one side only, as what it opens hides everything. -/
theorem not_quote_between_pluses (hb : ∀ c ∈ b, Unicode.isBlank c = true) (hb' : ∀ c ∈ b', Unicode.isBlank c = true) :
    mask sql ≠ u ++ '+' :: (b ++ '\'' :: (b' ++ '+' :: v)) := by
  intro h
  have hplus : isFirm '+' = true := by decide
  have hmask : mask (mask sql) = u ++ '+' :: (b ++ '\'' :: (b' ++ '+' :: v)) := by rw [mask_mask, h]
  -- the mask is read like the query: behind the first plus it is code, and behind the quote it is not
  obtain ⟨a, r, hleft, ha, -, hjoins⟩ := exists_of_mask_eq hplus hmask
  obtain ⟨rfl, -⟩ : u = a ∧ _ := Text.append_inj_of_width (h.symm.trans hleft) (by rw [← ha, width_mask])
  have hsplit : mask (mask sql) = u ++ '+' :: (b ++ '\'' :: b') ++ '+' :: v := by rw [hmask]; simp
  obtain ⟨a', r', hright, ha', -, hjoins'⟩ := exists_of_mask_eq hplus hsplit
  have h' : mask sql = u ++ '+' :: (b ++ '\'' :: b') ++ '+' :: v := by rw [h]; simp
  obtain ⟨rfl, -⟩ := Text.append_inj_of_width (h'.symm.trans hright) (by rw [← ha', width_mask])
  have hlive := live_of_joins hjoins' (by decide)
  have hblank : ∀ s : LexState, s = .code ∨ s = .quoted .single → ∀ t : Text, (∀ c ∈ t, Unicode.isBlank c = true) →
      s.after t = s := by
    intro s hs t ht
    induction t with
    | nil => rfl
    | cons c t ih =>
      obtain ⟨hc, ht⟩ := List.forall_mem_cons.1 ht
      have hplain := isPlain_of_isBlank hc
      have hstep : s.step c = s := by
        rcases hs with rfl | rfl
        · exact ofCode_of_isPlain hplain
        · rw [step, if_neg (ne_quote_of_isPlain hplain .single)]
      rw [after_cons, hstep, ih ht]
  have hcode : (code.after u).step '+' = code := step_of_joins hjoins
  have hquote : code.step '\'' = quoted .single := rfl
  rw [after_append, after_cons, hcode, after_append, hblank _ (.inl rfl) b hb, after_cons, hquote,
    hblank _ (.inr rfl) b' hb'] at hlive
  cases hlive

/-! ## Matches -/

theorem ToOracle.matches_plusByLiteral {w : Text} : Matches ToOracle.plusByLiteral u w v ↔
    ∃ b, (∀ c ∈ b, Unicode.isBlank c = true) ∧ (w = '\'' :: (b ++ ['+']) ∨ w = '+' :: (b ++ ['\''])) := by
  have hside : ∀ {x y : Char}, Matches (sym x ++ blanks ++ sym y) u w v ↔
      ∃ b, (∀ c ∈ b, Unicode.isBlank c = true) ∧ w = x :: (b ++ [y]) := by
    intro x y
    constructor
    · intro h
      obtain ⟨w, z, rfl, hw, hz⟩ := matches_seq.1 h
      obtain ⟨a, b, rfl, ha, hb⟩ := matches_seq.1 hw
      obtain rfl := matches_sym.1 ha
      obtain rfl := matches_sym.1 hz
      exact ⟨b, matches_many_one.1 hb, rfl⟩
    · rintro ⟨b, hb, rfl⟩
      refine matches_seq.2 ⟨x :: b, [y], rfl, ?_, matches_sym.2 rfl⟩
      exact matches_seq.2 ⟨[x], b, rfl, matches_sym.2 rfl, matches_many_one.2 hb⟩
  simp only [ToOracle.plusByLiteral, matches_oneOf, List.mem_cons, List.not_mem_nil, or_false, exists_eq_or_imp,
    exists_eq_left, hside]
  constructor
  · rintro (⟨b, hb, hw⟩ | ⟨b, hb, hw⟩)
    · exact ⟨b, hb, .inl hw⟩
    · exact ⟨b, hb, .inr hw⟩
  · rintro ⟨b, hb, hw | hw⟩
    · exact .inl ⟨b, hb, hw⟩
    · exact .inr ⟨b, hb, hw⟩

/-- What a match takes. -/
theorem ToOracle.exists_of_mem_plusByLiteral {m : Match} (hm : m ∈ ToOracle.plusByLiteral.findAll (mask sql)) :
    ∃ u b v, (∀ c ∈ b, Unicode.isBlank c = true) ∧ m.start = width u ∧ m.stop = width u + width b + 2 ∧
      (mask sql = u ++ '\'' :: (b ++ '+' :: v) ∨ mask sql = u ++ '+' :: (b ++ '\'' :: v)) := by
  obtain ⟨u, x, hmask, hat⟩ := exists_of_mem_findAll hm
  obtain ⟨w, v, rfl, hfirst, hlast, htakes⟩ := matchAt?_eq_some hat
  have hquote : '\''.utf8Size = 1 ∧ '+'.utf8Size = 1 := by decide
  obtain ⟨b, hb, rfl | rfl⟩ := matches_plusByLiteral.1 ⟨_, _, htakes⟩
  · refine ⟨u, b, v, hb, by simp [Match.start, hfirst], ?_, .inl (by simpa using hmask)⟩
    simp only [Match.stop, hlast, offset_between, width_append, width_cons, width_nil, hquote]
    omega
  · refine ⟨u, b, v, hb, by simp [Match.start, hfirst], ?_, .inr (by simpa using hmask)⟩
    simp only [Match.stop, hlast, offset_between, width_append, width_cons, width_nil, hquote]
    omega

theorem ToOracle.consuming_plusByLiteral : ToOracle.plusByLiteral.Consuming := consuming_of_framed (by decide)

/-- A plus in front of a quote is in a match. -/
theorem ToOracle.exists_match_of_plus (hb : ∀ c ∈ b, Unicode.isBlank c = true)
    (h : mask sql = u ++ '+' :: (b ++ '\'' :: v)) :
    ∃ m ∈ ToOracle.plusByLiteral.findAll (mask sql), m.start ≤ width u ∧ width u < m.stop := by
  obtain ⟨g, g', htakes⟩ : Matches ToOracle.plusByLiteral u ('+' :: (b ++ ['\''])) v :=
    matches_plusByLiteral.2 ⟨b, hb, .inr rfl⟩
  have hsplit : mask sql = u ++ ('+' :: (b ++ ['\'']) ++ v) := by rw [h]; simp
  obtain ⟨m, hm⟩ := Option.isSome_iff_exists.1 (isSome_matchAt?_iff.2 ⟨_, v, g, g', rfl, htakes⟩)
  have hwidth := consuming_plusByLiteral.width_ne_zero hm
  obtain ⟨_, _, -, hfirst, -, -⟩ := matchAt?_eq_some hm
  have hstart : m.start = width u := by rw [Match.start, hfirst, offset_between]
  rw [Match.width] at hwidth
  rcases mem_findAll_or_exists consuming_plusByLiteral hm with hfound | ⟨m', hfound, hlt, hgt⟩
  · exact ⟨m, hsplit ▸ hfound, by omega, by omega⟩
  · exact ⟨m', hsplit ▸ hfound, by omega, by omega⟩

/-- A plus behind a quote is in a match that begins at the quote. -/
theorem ToOracle.exists_match_of_quote (hb : ∀ c ∈ b, Unicode.isBlank c = true)
    (h : mask sql = u ++ '\'' :: (b ++ '+' :: v)) :
    ∃ m ∈ ToOracle.plusByLiteral.findAll (mask sql), m.start = width u ∧ m.stop = width u + width b + 2 := by
  have hplus : ∀ c ∈ ['\'', '+'], Unicode.isBlank c = false ∧ c.utf8Size = 1 := by decide
  obtain ⟨g, g', htakes⟩ : Matches ToOracle.plusByLiteral u ('\'' :: (b ++ ['+'])) v :=
    matches_plusByLiteral.2 ⟨b, hb, .inl rfl⟩
  have hsplit : mask sql = u ++ ('\'' :: (b ++ ['+']) ++ v) := by rw [h]; simp
  obtain ⟨m, hm⟩ := Option.isSome_iff_exists.1 (isSome_matchAt?_iff.2 ⟨_, v, g, g', rfl, htakes⟩)
  obtain ⟨_, _, -, hfirst, -, -⟩ := matchAt?_eq_some hm
  have hstart : m.start = width u := by rw [Match.start, hfirst, offset_between]
  rcases mem_findAll_or_exists consuming_plusByLiteral hm with hfound | ⟨m', hfound, hlt, hgt⟩
  · rw [← hsplit] at hfound
    refine ⟨m, hfound, hstart, ?_⟩
    obtain ⟨u', b', v', hb', hstart', hstop, hmask | hmask⟩ := exists_of_mem_plusByLiteral hfound
    · obtain ⟨rfl, hbehind⟩ := Text.append_inj_of_width (h.symm.trans hmask) (hstart.symm.trans hstart')
      have hhead : ∀ c ∈ ('+' :: v).head?, Unicode.isBlank c = false := by rintro _ ⟨⟩; decide
      have hhead' : ∀ c ∈ ('+' :: v').head?, Unicode.isBlank c = false := by rintro _ ⟨⟩; decide
      obtain ⟨rfl, -⟩ := append_inj_of_all hb hb' hhead hhead' (List.cons.inj hbehind).2
      exact hstop
    · obtain ⟨-, hbehind⟩ := Text.append_inj_of_width (h.symm.trans hmask) (hstart.symm.trans hstart')
      exact absurd (List.cons.inj hbehind).1 (by decide)
  · -- a match that covers the quote has a plus in front of it
    rw [← hsplit] at hfound
    obtain ⟨u', b', v', hb', hstart', hstop, hmask | hmask⟩ := exists_of_mem_plusByLiteral hfound
    · obtain ⟨-, hquote, -⟩ := eq_of_append_blanks hb' (hplus '\'' (by simp)).1 (hplus '\'' (by simp)).2
        (h.symm.trans hmask) (by omega) (by omega)
      exact absurd hquote (by decide)
    · obtain ⟨rfl, -⟩ := eq_of_append_blanks hb' (hplus '\'' (by simp)).1 (hplus '+' (by simp)).2
        (h.symm.trans hmask) (by omega) (by omega)
      exact absurd (by simpa using h) (not_quote_between_pluses (u := u') (v := v) hb' hb)

end

/-! ## The rule -/

namespace ToOracle

/-- Whether a quote stands next to a place, with nothing but white space between. -/
def besideQuote (before behind : Text) : Bool :=
  (before.reverse.dropWhile Unicode.isBlank).head? == some '\'' ||
    (behind.dropWhile Unicode.isBlank).head? == some '\''

/-- Whether a plus that joins strings stands at an offset. -/
def joinsStrings (t : Text) (i : Nat) : Bool :=
  match splitAt? t i with
  | some (before, '+' :: behind) => besideQuote before behind
  | _ => false

/-- What becomes of the character at an offset of a query with the mask `t`. -/
def barred (t : Text) (i : Nat) (c : Char) : Text := if joinsStrings t i then "||".toList else [c]

/-- A query with bars for the pluses that join strings. -/
def withBars (sql : Text) : Text := rewritten (barred (mask sql)) 0 sql

/-- Whether a comment between a quote and a plus that joins strings holds another plus. -/
def HidesPlus (sql : Text) : Prop := ∃ a g c u b v, sql = a ++ '\'' :: (g ++ '+' :: c) ∧ '+' ∈ g ∧
  mask sql = u ++ '\'' :: (b ++ '+' :: v) ∧ (∀ c ∈ b, Unicode.isBlank c = true) ∧ width a = width u ∧ width g = width b

section
variable {sql t u v a b g c w : Text} {i k : Nat} {m : Match} {x y : Char}

theorem head?_dropWhile_eq_quote : (t.dropWhile Unicode.isBlank).head? = some '\'' ↔
    ∃ b v, t = b ++ '\'' :: v ∧ ∀ c ∈ b, Unicode.isBlank c = true := by
  constructor
  · intro h
    obtain ⟨v, hv⟩ := List.head?_eq_some_iff.1 h
    exact ⟨t.takeWhile Unicode.isBlank, v, by rw [← hv, List.takeWhile_append_dropWhile],
      List.all_eq_true.1 List.all_takeWhile⟩
  · rintro ⟨b, v, rfl, hb⟩
    rw [List.dropWhile_append_of_pos hb]
    rfl

theorem joinsStrings_iff : joinsStrings t i = true ↔ ∃ u v, t = u ++ '+' :: v ∧ width u = i ∧
    ((∃ u' b, u = u' ++ '\'' :: b ∧ ∀ c ∈ b, Unicode.isBlank c = true) ∨
      ∃ b v', v = b ++ '\'' :: v' ∧ ∀ c ∈ b, Unicode.isBlank c = true) := by
  have hbefore : ∀ u : Text, (u.reverse.dropWhile Unicode.isBlank).head? = some '\'' ↔
      ∃ u' b, u = u' ++ '\'' :: b ∧ ∀ c ∈ b, Unicode.isBlank c = true := by
    intro u
    rw [head?_dropWhile_eq_quote]
    constructor
    · rintro ⟨b, v, h, hb⟩
      refine ⟨v.reverse, b.reverse, ?_, by simpa using hb⟩
      rw [← List.reverse_inj, h]
      simp
    · rintro ⟨u', b, rfl, hb⟩
      exact ⟨b.reverse, u'.reverse, by simp, by simpa using hb⟩
  have hbeside : ∀ u v : Text, besideQuote u v = true ↔ (∃ u' b, u = u' ++ '\'' :: b ∧ ∀ c ∈ b, Unicode.isBlank c = true) ∨
      ∃ b v', v = b ++ '\'' :: v' ∧ ∀ c ∈ b, Unicode.isBlank c = true := by
    intro u v
    rw [besideQuote, Bool.or_eq_true, beq_iff_eq, beq_iff_eq, hbefore, head?_dropWhile_eq_quote]
  unfold joinsStrings
  constructor
  · intro h
    split at h
    · rename_i u v hsplit
      obtain ⟨hcut, hwidth⟩ := splitAt?_eq_some_iff.1 hsplit
      rw [hbeside] at h
      exact ⟨u, v, hcut, hwidth, h⟩
    · cases h
  · rintro ⟨u, v, rfl, rfl, h⟩
    rw [splitAt?_append]
    exact (hbeside u v).2 h

/-- A plus that joins strings is in a match. -/
theorem exists_match_of_joins (h : joinsStrings (mask sql) i = true) :
    ∃ m ∈ plusByLiteral.findAll (mask sql), m.start ≤ i ∧ i < m.stop := by
  obtain ⟨u, v, hmask, rfl, ⟨u', b, rfl, hb⟩ | ⟨b, v', rfl, hb⟩⟩ := joinsStrings_iff.1 h
  · have hquoted : mask sql = u' ++ '\'' :: (b ++ '+' :: v) := by rw [hmask]; simp
    obtain ⟨m, hm, hstart, hstop⟩ := exists_match_of_quote hb hquoted
    have hquote : '\''.utf8Size = 1 := by decide
    rw [width_append, width_cons, hquote]
    exact ⟨m, hm, by omega, by omega⟩
  · exact exists_match_of_plus hb hmask

theorem barred_of_ne (h : t = u ++ x :: v) (hx : x ≠ '+') (c : Char) : barred t (width u) c = [c] := by
  refine if_neg fun hjoins => ?_
  obtain ⟨u', v', ht, hwidth, -⟩ := joinsStrings_iff.1 hjoins
  obtain ⟨-, hbehind⟩ := Text.append_inj_of_width (h.symm.trans ht) hwidth.symm
  exact hx (List.cons.inj hbehind).1

/-- No plus stands in white space. -/
theorem rewritten_barred_blanks (h : t = u ++ x :: (b ++ y :: v)) (hb : ∀ c ∈ b, Unicode.isBlank c = true)
    (hx : x.utf8Size = 1) (hg : width g = width b) : rewritten (barred t) (width u + 1) g = g := by
  refine rewritten_eq_self fun i c hi hlt => if_neg fun hjoins => ?_
  obtain ⟨u', v', ht, rfl, -⟩ := joinsStrings_iff.1 hjoins
  obtain ⟨rfl, -⟩ := eq_of_append_blanks hb (by decide) hx (ht.symm.trans h) (by omega) (by omega)
  rw [width_append, width_cons, hx] at hlt
  omega

theorem rewritten_barred_quote (h : t = u ++ '\'' :: (b ++ '+' :: v)) (hb : ∀ c ∈ b, Unicode.isBlank c = true)
    (hg : width g = width b) :
    rewritten (barred t) (width u) ('\'' :: (g ++ ['+'])) = '\'' :: (g ++ "||".toList) := by
  have hquote : '\''.utf8Size = 1 := by decide
  have hjoins : joinsStrings t (width u + 1 + width g) = true := by
    refine joinsStrings_iff.2 ⟨u ++ '\'' :: b, v, by rw [h]; simp, ?_, .inl ⟨u, b, rfl, hb⟩⟩
    rw [width_append, width_cons, hquote, hg]
    omega
  rw [rewritten_cons, barred_of_ne h (by decide), hquote, rewritten_append, rewritten_barred_blanks h hb hquote hg,
    rewritten_singleton, barred, if_pos hjoins]
  rfl

theorem rewritten_barred_plus (h : t = u ++ '+' :: (b ++ '\'' :: v)) (hb : ∀ c ∈ b, Unicode.isBlank c = true)
    (hg : width g = width b) :
    rewritten (barred t) (width u) ('+' :: (g ++ ['\''])) = "||".toList ++ (g ++ ['\'']) := by
  have hplus : '+'.utf8Size = 1 := by decide
  have hjoins : joinsStrings t (width u) = true := joinsStrings_iff.2 ⟨u, _, h, rfl, .inr ⟨b, v, rfl, hb⟩⟩
  have hquote : barred t (width u + 1 + width g) '\'' = ['\''] := by
    have hsplit : t = u ++ '+' :: b ++ '\'' :: v := by rw [h]; simp
    have := barred_of_ne hsplit (by decide) '\''
    rwa [width_append, width_cons, hplus, ← hg, Nat.add_comm 1, ← Nat.add_assoc, Nat.add_right_comm] at this
  rw [rewritten_cons, barred, if_pos hjoins, hplus, rewritten_append, rewritten_barred_blanks h hb hplus hg,
    rewritten_singleton, hquote]

theorem replaceFirst_sign (h : x ∉ a) (r : Text) : replaceFirst [x] r (a ++ x :: b) = a ++ (r ++ b) := by
  induction a with
  | nil => simp [replaceFirst]
  | cons c a ih =>
    obtain ⟨hne, ha⟩ : x ≠ c ∧ x ∉ a := by simpa using h
    rw [List.cons_append, replaceFirst, if_neg (by simpa using hne), ih ha]
    rfl

/-- The first plus behind a quote is the last one if there is no other. -/
theorem replaceFirst_quote (g : Text) : (replaceFirst ['+'] "||".toList ('\'' :: (g ++ ['+']))).length = g.length + 3 ∧
    (replaceFirst ['+'] "||".toList ('\'' :: (g ++ ['+'])) = '\'' :: (g ++ "||".toList) ↔ '+' ∉ g) := by
  by_cases hg : '+' ∈ g
  · obtain ⟨g, g', rfl, hnot⟩ := List.eq_append_cons_of_mem hg
    have hfirst := replaceFirst_sign (x := '+') (a := '\'' :: g) (b := g' ++ ['+']) (by simpa using hnot) "||".toList
    have hassoc : '\'' :: (g ++ '+' :: g' ++ ['+']) = '\'' :: g ++ '+' :: (g' ++ ['+']) := by simp
    rw [hassoc, hfirst]
    refine ⟨by simp; omega, fun heq => ?_, fun hnot => absurd hg hnot⟩
    have heq' : '\'' :: g ++ ("||".toList ++ (g' ++ ['+'])) = '\'' :: g ++ '+' :: (g' ++ "||".toList) := by
      rw [heq]
      simp
    exact absurd (List.cons.inj (List.append_cancel_left heq')).1 (by decide)
  · have hfirst := replaceFirst_sign (x := '+') (a := '\'' :: g) (b := []) (by simpa using hg) "||".toList
    rw [List.cons_append, List.append_nil] at hfirst
    rw [hfirst]
    exact ⟨by simp, fun _ => hg, fun _ => rfl⟩

theorem slice?_between (h : sql = a ++ x :: (g ++ y :: c)) (hx : x.utf8Size = 1) (hy : y.utf8Size = 1) :
    slice? sql (width a) (width a + width g + 2) = some (x :: (g ++ [y])) := by
  have hslice := slice?_append a (x :: (g ++ [y])) c
  have hsql : a ++ x :: (g ++ [y]) ++ c = sql := by rw [h]; simp
  have hwidth : width a + width (x :: (g ++ [y])) = width a + width g + 2 := by
    rw [width_cons, width_append, width_cons, width_nil, hx, hy]
    omega
  rwa [hsql, hwidth] at hslice

/-- What a match takes of the query gets its bars, unless a comment in it hides a plus. -/
theorem exists_taken (hm : m ∈ plusByLiteral.findAll (mask sql)) : ∃ w, slice? sql m.start m.stop = some w ∧
    (replaceFirst ['+'] "||".toList w).length = (rewritten (barred (mask sql)) m.start w).length ∧
    (¬ HidesPlus sql → replaceFirst ['+'] "||".toList w = rewritten (barred (mask sql)) m.start w) := by
  obtain ⟨u, b, v, hb, hstart, hstop, hmask⟩ := exists_of_mem_plusByLiteral hm
  have hquote : '\''.utf8Size = 1 := by decide
  have hplus : '+'.utf8Size = 1 := by decide
  rcases hmask with hmask | hmask
  · obtain ⟨a, g, c, hsql, ha, hg⟩ := exists_of_mask_shown (by decide) (by decide) hmask
    obtain ⟨hlength, hfirst⟩ := replaceFirst_quote g
    refine ⟨_, by rw [hstart, hstop, ← ha, ← hg]; exact slice?_between hsql hquote hplus, ?_⟩
    rw [hstart, rewritten_barred_quote hmask hb hg, hfirst, hlength]
    exact ⟨by simp, fun hclear hin => hclear ⟨a, g, c, u, b, v, hsql, hin, hmask, hb, ha, hg⟩⟩
  · obtain ⟨a, g, c, hsql, ha, hg⟩ := exists_of_mask_shown (by decide) (by decide) hmask
    have hfirst := replaceFirst_sign (x := '+') (a := []) (b := g ++ ['\'']) (by simp) "||".toList
    rw [List.nil_append, List.nil_append] at hfirst
    refine ⟨_, by rw [hstart, hstop, ← ha, ← hg]; exact slice?_between hsql hplus hquote, ?_⟩
    rw [hstart, rewritten_barred_plus hmask hb hg, hfirst]
    exact ⟨rfl, fun _ => rfl⟩

/-- A hidden plus gets the bars of another one. -/
theorem HidesPlus.exists_taken (h : HidesPlus sql) : ∃ m ∈ plusByLiteral.findAll (mask sql), ∃ w,
    slice? sql m.start m.stop = some w ∧
      replaceFirst ['+'] "||".toList w ≠ rewritten (barred (mask sql)) m.start w := by
  obtain ⟨a, g, c, u, b, v, hsql, hin, hmask, hb, ha, hg⟩ := h
  obtain ⟨m, hm, hstart, hstop⟩ := exists_match_of_quote hb hmask
  refine ⟨m, hm, _, by rw [hstart, hstop, ← ha, ← hg]; exact slice?_between hsql (by decide) (by decide), ?_⟩
  rw [hstart, rewritten_barred_quote hmask hb hg, Ne, (replaceFirst_quote g).2, not_not]
  exact hin

end

/-- Every plus that joins strings gets its bars just where no comment hides another one. -/
theorem exists_replaceSpans_plusByLiteral {σ : Type} (sql : Text) :
    ∃ out, Gives (σ := σ) (replaceSpans sql plusByLiteral fun m => do
        return some (replaceFirst "+" "||" (← slice? sql m.start m.stop))) out ∧ (out = withBars sql ↔ ¬ HidesPlus sql) := by
  have hframed : plusByLiteral.framed = true := by decide
  have hbarred : ∀ m ∈ plusByLiteral.findAll (mask sql),
      Gives (σ := σ) (do return some (replaceFirst "+" "||" (← slice? sql m.start m.stop)))
        ((slice? sql m.start m.stop).map (replaceFirst ['+'] "||".toList)) := fun m hm => by
    obtain ⟨w, hw, -⟩ := exists_taken hm
    rw [hw]
    exact (gives_lift rfl).bind (gives_pure _)
  obtain ⟨out, hgives, hreplaced⟩ := gives_replaceSpans hframed hbarred
  have hkept : ∀ i c, 0 ≤ i → (∀ m ∈ plusByLiteral.findAll (mask sql), i < m.start ∨ m.stop ≤ i) →
      barred (mask sql) i c = [c] := fun i c _ hms => if_neg fun hjoins => by
    obtain ⟨m, hm, hstart, hstop⟩ := exists_match_of_joins hjoins
    have := hms m hm
    omega
  have hiff := hreplaced.eq_rewritten_iff Text.width_nil.symm hkept fun m hm w hw => by
    obtain ⟨w', hw', hlength, -⟩ := exists_taken hm
    obtain rfl := Option.some.inj (hw'.symm.trans hw)
    rw [hw']
    exact hlength
  refine ⟨out, hgives, hiff.trans ⟨fun hall hhides => ?_, fun hclear m hm w hw => ?_⟩⟩
  · obtain ⟨m, hm, w, hw, hne⟩ := hhides.exists_taken
    have heq := hall m hm w hw
    rw [hw] at heq
    exact hne heq
  · obtain ⟨w', hw', -, heq⟩ := exists_taken hm
    obtain rfl := Option.some.inj (hw'.symm.trans hw)
    rw [hw']
    exact heq hclear

/-! ## Queries without calls -/

/-- A query with no call whose parentheses close stays. -/
theorem replaceCallsBefore_of_unmatched {σ : Type} {sql name : Text} {f : Call → Editing σ (Option (Text × Nat))}
    (hname : isName name = true) (h : ∀ i, Call.matchedAt? name (mask sql) i = none) (limit : Nat) :
    replaceCallsBefore name f limit sql = pure sql := by
  induction limit using Nat.strongRecOn with
  | ind limit ih =>
    cases hlast : Call.lastBefore? name (mask sql) limit with
    | none => exact replaceCallsBefore_of_none hlast
    | some m =>
      obtain ⟨hhead, hlt, -⟩ := le_of_lastBefore? hname hlast
      have hclosing : matchingParen? (mask sql) (m.stop - 1) = none := by
        by_contra hne
        obtain ⟨closing, hclosing⟩ := Option.ne_none_iff_exists'.1 hne
        have hmatched := (matchedAt?_eq_some_iff hname).2 ⟨hhead, hclosing⟩
        rw [h m.start] at hmatched
        cases hmatched
      rw [replaceCallsBefore_of_some hlast, hclosing]
      exact ih m.start hlt

/-- The rule gives the pluses that join strings their bars, just where no comment between a quote and a plus holds
another plus. -/
theorem concatenation_eq_withBars_iff (sql : Text) (h : ∀ i, Call.matchedAt? "CONCAT" (mask sql) i = none) :
    ∃ out, Gives (concatenation sql) out ∧ (out = withBars sql ↔ ¬ HidesPlus sql) := by
  obtain ⟨out, hout, hiff⟩ := exists_replaceSpans_plusByLiteral (σ := List Warning) sql
  refine ⟨out, ?_, hiff⟩
  rw [concatenation, replaceCalls, replaceCallsWithTail, replaceCallsBefore_of_unmatched (by decide) h, pure_bind]
  refine hout.bind ?_
  dsimp only
  split_ifs
  · exact (gives_warn _ _).bind (gives_pure out)
  · exact gives_pure out

theorem concatenation_eq_withBars_iff_literals :
    (∀ i, Call.matchedAt? "CONCAT" (mask "SELECT 'a' + b + 'c' FROM t") i = none) ∧
      withBars "SELECT 'a' + b + 'c' FROM t" = "SELECT 'a' || b || 'c' FROM t".toList ∧
      ∃ out, Gives (concatenation "SELECT 'a' + b + 'c' FROM t") out ∧
        (out = withBars "SELECT 'a' + b + 'c' FROM t" ↔ ¬ HidesPlus "SELECT 'a' + b + 'c' FROM t") := by
  have hnone : (Call.head "CONCAT").findAll (mask "SELECT 'a' + b + 'c' FROM t") = [] := by decide +kernel
  have hcalls : ∀ i, Call.matchedAt? "CONCAT" (mask "SELECT 'a' + b + 'c' FROM t") i = none := fun i => by
    rw [Call.matchedAt?, hnone]
    rfl
  exact ⟨hcalls, by decide +kernel, concatenation_eq_withBars_iff _ hcalls⟩

/-- A plus in a comment gets the bars of the plus behind it. -/
theorem concatenation_comment :
    (Call.head "CONCAT").findAll (mask "SELECT 'a' /* + */ + b FROM t") = [] ∧
      withBars "SELECT 'a' /* + */ + b FROM t" = "SELECT 'a' /* + */ || b FROM t".toList ∧
      ((concatenation "SELECT 'a' /* + */ + b FROM t").run []).map Prod.fst =
        some "SELECT 'a' /* || */ + b FROM t".toList ∧
      "SELECT 'a' /* || */ + b FROM t".toList ≠ "SELECT 'a' /* + */ || b FROM t".toList :=
  ⟨by decide +kernel, by decide +kernel, by decide +kernel, by decide⟩

end ToOracle
end DialectBridge
