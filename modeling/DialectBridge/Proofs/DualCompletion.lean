import DialectBridge.Proofs.BlockCuts
import DialectBridge.Proofs.FromInsertion
/-!
# Every query block gets a `FROM`

Oracle asks for a `FROM` in every query block, and `fromDual` puts in the ones that are missing.
It looks for the end of a block in the masked query but trims this end in the query itself, so
that the insertion can land in a comment or behind an open quote, where it is no code.
`fromDual_complete_iff` says that just these insertions are lost: the result is complete, and a
second run leaves it alone, if and only if every insertion lands in code.
-/
namespace DialectBridge.ToOracle
open Pattern LexState

/-- Every place where `fromDual` puts in a `FROM` is in code. -/
def DualLands (sql : Text) : Prop :=
  ∀ m ∈ (keyword "SELECT").findAll (mask sql), ∀ i,
    missingFrom? sql (mask sql) m.stop = some (some i) →
      ∀ a b, sql = a ++ b → Text.width a = i.place → (code.after a).live = true

/-! ## Headings -/

theorem isName_select : isName "SELECT".toList = true := by decide

/-- The query up to a heading `s` in code is `a`, which shows `u` before it; the rest is `b`. -/
structure Heading (sql u s a b : Text) : Prop where
  eq : sql = a ++ b
  mask_left : mask a = u ++ s
  behind : code.after a = code
  last : ∀ e ∈ a.getLast?, Unicode.isWordChar e = true
  select : IsSelect s
  left : endsInWord u = false
  right : beginsInWord b = false

theorem exists_heading {sql u s v : Text} (h : mask sql = u ++ (s ++ v)) (hs : IsSelect s)
    (hu : endsInWord u = false) (hv : beginsInWord v = false) :
    ∃ a b, Heading sql u s a b ∧ mask b = v := by
  have hne := hs.ne_nil isName_select
  have hfirm : isFirm (s.getLast hne) = true :=
    isFirm_of_isWordChar (hs.isWordChar isName_select _ (List.getLast_mem hne))
  have hsplit : mask sql = (u ++ s.dropLast) ++ [s.getLast hne] ++ v := by
    rw [h, List.append_assoc u, List.dropLast_concat_getLast, List.append_assoc]
  obtain ⟨a, b, hsql, ha, hb, hlast, hcode⟩ := exists_cut_after hfirm hsplit
  rw [List.append_assoc, List.dropLast_concat_getLast] at ha
  refine ⟨a, b, ⟨hsql, ha, hcode, ?_, hs, hu, by rw [← beginsInWord_mask, hb, hv]⟩, hb⟩
  intro e he
  obtain rfl := Option.some.inj (hlast.symm.trans he)
  exact hs.isWordChar isName_select _ (List.getLast_mem hne)

namespace Heading
variable {sql u s a b : Text}

theorem mask_eq (h : Heading sql u s a b) : mask sql = mask a ++ mask b := by
  rw [h.eq, mask_append]
  rw [h.behind]
  exact joins_code b

theorem tokens_left (h : Heading sql u s a b) : tokens (mask a) = tokens u ++ [s] := by
  rw [h.mask_left, tokens_append (.of_ends h.left s),
    tokens_word (h.select.ne_nil isName_select) (h.select.isWordChar isName_select)]

theorem tokens_eq (h : Heading sql u s a b) :
    tokens (mask sql) = tokens u ++ s :: tokens (mask b) := by
  rw [h.mask_eq, tokens_append (.of_begins (by rw [beginsInWord_mask, h.right]) _), h.tokens_left,
    List.append_assoc]
  rfl

theorem endsInWord_left (h : Heading sql u s a b) : endsInWord (mask a) = true := by
  rw [h.mask_left]
  exact h.select.endsInWord isName_select u

theorem exists_mem (h : Heading sql u s a b) :
    ∃ m ∈ (keyword "SELECT").findAll (mask sql), m.stop = Text.width a := by
  have hmatch : Matches (keyword "SELECT") u s (mask b) := (matches_keyword isName_select).2
    ⟨h.select, h.left, by rw [beginsInWord_mask, h.right]⟩
  obtain ⟨m, hm, -, -, hstop⟩ := (takesWords_keyword isName_select).exists_mem_findAll hmatch
  refine ⟨m, ?_, ?_⟩
  · rwa [h.mask_eq, h.mask_left, List.append_assoc]
  · rw [hstop, ← h.mask_left, width_mask]

end Heading

theorem exists_heading_of_mem {sql : Text} {m : Match}
    (h : m ∈ (keyword "SELECT").findAll (mask sql)) :
    ∃ u s a b, Heading sql u s a b ∧ m.stop = Text.width a := by
  obtain ⟨u, x, hmask, hat⟩ := exists_of_mem_findAll h
  obtain ⟨s, v, rfl, -, hlast, hs⟩ := matchAt?_eq_some hat
  obtain ⟨hspelled, hu, hv⟩ := (matches_keyword isName_select).1 ⟨_, _, hs⟩
  obtain ⟨a, b, hhead, -⟩ := exists_heading hmask hspelled hu hv
  refine ⟨u, s, a, b, hhead, ?_⟩
  rw [← width_mask a, hhead.mask_left]
  simp [Match.stop, hlast]

theorem exists_heading_of_tokens {sql s : Text} {ps qs : List Text}
    (h : tokens (mask sql) = ps ++ s :: qs) (hs : IsSelect s) :
    ∃ u a b, Heading sql u s a b ∧ tokens u = ps ∧ tokens (mask b) = qs := by
  obtain ⟨u, v, hmask, hps, hqs, hleft, hright⟩ := exists_of_tokens_eq h
  have hu : endsInWord u = false := hleft.endsInWord_eq_false (hs.beginsInWord isName_select _)
  have hv : beginsInWord v = false := hright (by simpa using hs.endsInWord isName_select [])
  obtain ⟨a, b, hhead, hb⟩ := exists_heading hmask hs hu hv
  exact ⟨u, a, b, hhead, hps, by rw [hb, hqs]⟩

/-! ## Where `FROM DUAL` goes -/

/-- The place for the text `x` in the query `b` behind a heading is between `c` and `d`. -/
inductive DualPlace (b : Text) : Text → Text → Text → Prop where
  | clause {c d w v : Text} : b = c ++ d → blockText (mask b) = mask c ++ (w ++ v) →
      Matches afterFrom (mask c) w v → depth (mask c) = 0 → (code.after c).live = true →
      (∀ e ∈ d.head?, Unicode.isWordChar e = true) → DualPlace b dualBefore c d
  | ends {c tail d : Text} : BlockCut b (c ++ tail) d →
      (∀ e ∈ c.getLast?, isBlockEnd e = false) → (∀ e ∈ tail, isBlockEnd e = true) →
      zeroMatches afterFrom (blockText (mask b)) = [] → DualPlace b dualAtEnd c (tail ++ d)

theorem DualPlace.eq {b x c d : Text} (h : DualPlace b x c d) : b = c ++ d := by
  cases h with
  | clause hb => exact hb
  | ends hcut => rw [hcut.eq, List.append_assoc]

theorem hasFrom_iff_zeroMatches (t : Text) :
    HasFrom (tokens t) ↔ zeroMatches (keyword "FROM") (blockText t) ≠ [] :=
  (zeroMatches_keyword_ne_nil_iff (by decide)).symm

/-- In front of a clause keyword on the surface of the block is a place for a `FROM`. -/
theorem exists_clausePlace {b c d : Text} (hcut : BlockCut b c d) {m : Match}
    (hm : m ∈ zeroMatches afterFrom (blockText (mask b))) :
    ∃ c' d', DualPlace b dualBefore c' d' ∧ m.start = Text.width c' := by
  obtain ⟨u, w, v, hB, hd, hw, hstart, -⟩ := mem_zeroMatches hm
  obtain ⟨hbegins, -, -, -, -⟩ := takesPhrases_afterFrom.takes u w v hw
  obtain ⟨y, w', rfl⟩ := List.exists_cons_of_ne_nil (ne_nil_of_beginsInWord hbegins)
  have hy : Unicode.isWordChar y = true := hbegins
  have hsplit : mask b = u ++ y :: (w' ++ v ++ mask d) := by
    rw [hcut.mask_right, hcut.mask_left, hB]
    simp
  obtain ⟨c', d', hb, rfl, -, hhead, hj⟩ := exists_cut_before (isFirm_of_isWordChar hy) hsplit
  refine ⟨c', d', .clause hb hB hw hd ?_ fun e he => ?_, by rw [hstart, width_mask]⟩
  · cases d' with
    | nil => simp at hhead
    | cons z d' =>
      obtain rfl : z = y := by simpa using hhead
      refine live_of_joins hj ?_
      rintro rfl
      exact absurd hy (by decide)
  · obtain rfl : y = e := Option.some.inj (hhead.symm.trans he)
    exact hy

/-- Behind what the block ends with is a place for a `FROM` if the block has no clause of its own. -/
theorem exists_endPlace {b c d : Text} (hcut : BlockCut b c d)
    (hclause : zeroMatches afterFrom (blockText (mask b)) = []) :
    ∃ d', DualPlace b dualAtEnd (Text.dropTrailing isBlockEnd c) d' := by
  obtain ⟨tail, hc, htail⟩ := Text.exists_eq_dropTrailing_append isBlockEnd c
  rw [hc] at hcut
  exact ⟨tail ++ d, .ends hcut (getLast?_dropTrailing isBlockEnd c) htail hclause⟩

/-- What a query block lacks. -/
theorem missingFrom?_eq {a b : Text} (ha : code.after a = code) :
    (HasFrom (tokens (mask b)) ∧
      missingFrom? (a ++ b) (mask (a ++ b)) (Text.width a) = some none) ∨
    (¬ HasFrom (tokens (mask b)) ∧ ∃ x c d, DualPlace b x c d ∧
      missingFrom? (a ++ b) (mask (a ++ b)) (Text.width a) =
        some (some ⟨Text.width (a ++ c), x⟩)) := by
  have hmask : mask (a ++ b) = mask a ++ mask b := mask_append (by rw [ha]; exact joins_code b)
  obtain ⟨c, d, hcut⟩ := exists_blockCut b
  obtain ⟨operators, hops, hstop⟩ := blockStop_eq (mask a) (mask b)
  have hfind : ∀ p, depthZeroMatches? (mask (a ++ b)) (Text.width a)
      (Text.width a + Text.width (blockText (mask b))) p =
      some ((zeroMatches p (blockText (mask b))).map fun m =>
        ⟨Text.width a + m.start, Text.width a + m.stop⟩) := by
    intro p
    have := depthZeroMatches?_append (mask a) (blockText (mask b)) (mask d) p
    rwa [← hcut.mask_left, List.append_assoc, ← hcut.mask_right, ← hmask, hcut.mask_left,
      width_mask] at this
  rw [← hmask, width_mask] at hops hstop
  by_cases hfrom : zeroMatches (keyword "FROM") (blockText (mask b)) = []
  · refine .inr ⟨fun h => (hasFrom_iff_zeroMatches _).1 h hfrom, ?_⟩
    cases hclause : zeroMatches afterFrom (blockText (mask b)) with
    | cons m ms =>
      have heq : missingFrom? (a ++ b) (mask (a ++ b)) (Text.width a) =
          some (some ⟨Text.width a + m.start, dualBefore⟩) := by
        rw [missingFrom?]
        simp only [hops, hstop, hfind, hfrom, hclause, Option.bind_eq_bind, Option.bind_some,
          List.map_nil, List.isEmpty_nil, Bool.not_true, Bool.false_eq_true, if_false,
          List.map_cons, List.head?_cons]
        rfl
      obtain ⟨c', d', hplace, hstart⟩ := exists_clausePlace hcut (m := m) (by rw [hclause]; simp)
      exact ⟨dualBefore, c', d', hplace, by rw [heq, hstart, Text.width_append]⟩
    | nil =>
      have hslice : Text.slice? (a ++ b) (Text.width a)
          (Text.width a + Text.width (blockText (mask b))) = some c := by
        rw [← hcut.mask_left, width_mask, hcut.eq, ← List.append_assoc]
        exact Text.slice?_append a c d
      have heq : missingFrom? (a ++ b) (mask (a ++ b)) (Text.width a) =
          some (some ⟨Text.width a + Text.width (Text.dropTrailing isBlockEnd c), dualAtEnd⟩) := by
        rw [missingFrom?]
        simp only [hops, hstop, hfind, hfrom, hclause, hslice, Option.bind_eq_bind,
          Option.bind_some, List.map_nil, List.isEmpty_nil, Bool.not_true, Bool.false_eq_true,
          if_false, List.head?_nil]
        rfl
      obtain ⟨d', hplace⟩ := exists_endPlace hcut hclause
      exact ⟨dualAtEnd, _, d', hplace, by rw [heq, Text.width_append]⟩
  · refine .inl ⟨(hasFrom_iff_zeroMatches _).2 hfrom, ?_⟩
    rw [missingFrom?]
    simp only [hops, hstop, hfind, Option.bind_eq_bind, Option.bind_some, List.isEmpty_map,
      List.isEmpty_eq_false_iff.2 hfrom, Bool.not_false, if_true]
    rfl

/-- A set operator is no heading. -/
theorem not_isSelect_of_head {e : Char} {p : Text}
    (he : e ∈ ['U', 'I', 'E', 'M'].flatMap Unicode.caseVariants) : ¬ IsSelect (e :: p) := by
  have key : (['U', 'I', 'E', 'M'].flatMap Unicode.caseVariants).all
      (fun e => !decide (e ∈ Unicode.caseVariants 'S')) = true := by decide
  intro hs
  have hs : Spelled ('S' :: "ELECT".toList) (e :: p) := hs
  cases hs with
  | cons hd _ =>
    have := List.all_eq_true.1 key e he
    simp [hd] at this

namespace Heading
variable {sql u s a b c d x : Text}

theorem mask_append (h : Heading sql u s a b) (c : Text) : mask (a ++ c) = mask a ++ mask c :=
  DialectBridge.mask_append (by rw [h.behind]; exact joins_code c)

theorem after_append (h : Heading sql u s a b) (c : Text) :
    code.after (a ++ c) = code.after c := by
  rw [LexState.after_append, h.behind]

theorem endsInWord_append (h : Heading sql u s a b) (hc : c ≠ []) :
    endsInWord (mask (a ++ c)) = endsInWord (mask c) := by
  rw [h.mask_append, DialectBridge.Pattern.endsInWord_append (mask_ne_nil hc)]

/-- The place for a `FROM` is one where it can be put in. -/
theorem gap (h : Heading sql u s a b) (hp : DualPlace b x c d) : Gap x (a ++ c) d := by
  cases hp with
  | @clause c d w v hb hblock hw hdepth hlive hhead =>
    obtain ⟨hbegins, -, -, hend, -⟩ := takesPhrases_afterFrom.takes _ _ _ hw
    have hc : c ≠ [] := by
      rintro rfl
      have hright := h.right
      obtain ⟨e, w', rfl⟩ := List.exists_cons_of_ne_nil (ne_nil_of_beginsInWord hbegins)
      obtain ⟨-, rest, hmask, -⟩ := blockText_spec (mask b)
      rw [← beginsInWord_mask, hmask, hblock, mask_nil] at hright
      rw [show beginsInWord (([] ++ (e :: w' ++ v)) ++ rest) = Unicode.isWordChar e from rfl] at hright
      exact absurd (hright.symm.trans hbegins) (by decide)
    refine ⟨fun e he => isPlain_of_isWordChar (hhead e he), .inl ⟨rfl, ?_, ?_⟩⟩
    · rw [h.after_append, hlive]
    · rw [h.endsInWord_append hc, hend]
  | @ends c tail d hcut hlast htail hclause =>
    cases tail with
    | cons e tail =>
      have he := htail e (by simp)
      refine ⟨fun y hy => ?_, .inr ⟨rfl, .inl (isWordChar_of_isBlockEnd he)⟩⟩
      obtain rfl : e = y := by simpa using hy
      exact isPlain_of_isBlockEnd he
    | nil =>
      rw [List.append_nil] at hcut
      rw [List.nil_append]
      cases d with
      | nil => exact ⟨by simp, .inr ⟨rfl, .inl rfl⟩⟩
      | cons e d =>
        obtain ⟨hlive, he⟩ := hcut.stop e rfl
        rcases he with rfl | he
        · exact ⟨by simp [isPlain], .inr ⟨rfl, .inl (show Unicode.isWordChar ')' = false by decide)⟩⟩
        · have hword := isWordChar_of_mem_setOperatorHeads he
          have hc : c ≠ [] := by
            rintro rfl
            have hright := h.right
            rw [hcut.eq] at hright
            exact absurd (hright.symm.trans hword) (by decide)
          refine ⟨fun y hy => ?_, .inr ⟨rfl, .inr ⟨?_, ?_, ?_⟩⟩⟩
          · obtain rfl : e = y := by simpa using hy
            exact isPlain_of_isWordChar hword
          · rw [h.after_append, hlive]
          · rw [h.endsInWord_append hc]
            exact hcut.apart.endsInWord_eq_false ((beginsInWord_mask _).trans hword)
          · rw [List.takeWhile_cons_of_pos hword]
            exact not_isSelect_of_head he

/-- The tokens up to a place behind a heading. -/
theorem tokens_append (h : Heading sql u s a (c ++ d)) :
    tokens (mask (a ++ c)) = tokens u ++ s :: tokens (mask c) := by
  have hbegin : beginsInWord (mask c) = false := by
    rw [beginsInWord_mask]
    cases c with
    | nil => rfl
    | cons e c => exact h.right
  rw [h.mask_append, DialectBridge.tokens_append (.of_begins hbegin _), h.tokens_left,
    List.append_assoc]
  rfl

/-- An insertion on the surface of the block behind a heading reaches it. -/
theorem reaches {i : Insertion} (h : Heading sql u s a (c ++ d))
    (hi : i.place = Text.width (a ++ c)) (hlive : (code.after c).live = true)
    (hwalk : walk 0 (tokens (mask c)) = some 0) : Reaches sql i (tokens u) s :=
  ⟨a ++ c, d, tokens (mask c), by rw [h.eq, List.append_assoc], hi.symm,
    by rw [h.after_append, hlive], h.tokens_append, hwalk⟩

/-- Only insertions on the surface of the block behind a heading reach it. -/
theorem exists_of_reaches {i : Insertion} (h : Heading sql u s a b) (hfits : Fits sql i)
    (hr : Reaches sql i (tokens u) s) :
    ∃ c d, b = c ++ d ∧ i.place = Text.width (a ++ c) ∧ (code.after c).live = true ∧
      walk 0 (tokens (mask c)) = some 0 ∧ Gap i.text (a ++ c) d := by
  obtain ⟨p, q, m, hsql, hw, hlive, htokens, hwalk⟩ := hr
  obtain ⟨p', q', hsql', hw', hgap⟩ := hfits
  obtain ⟨rfl, rfl⟩ := Text.append_inj_of_width (hsql'.symm.trans hsql) (hw'.trans hw.symm)
  have hab := h.eq.symm.trans hsql
  rcases Nat.le_total (Text.width a) (Text.width p') with hle | hle
  · obtain ⟨c, rfl, rfl⟩ := Text.exists_of_width_le hab hle
    rw [h.tokens_append, List.append_cancel_left_eq, List.cons.injEq] at htokens
    rw [h.after_append] at hlive
    exact ⟨c, q', rfl, hw.symm, hlive, by rw [htokens.2, hwalk], hgap⟩
  · -- the place cannot be further left than the heading
    obtain ⟨k, rfl, rfl⟩ := Text.exists_of_width_le hab.symm hle
    have hleft := h.tokens_left
    rw [hgap.tokens_append hlive, htokens, List.append_assoc, List.append_cancel_left_eq,
      List.cons_append, List.cons.injEq, List.append_eq_nil_iff] at hleft
    obtain ⟨-, rfl, hk⟩ := hleft
    have hnil : k = [] := by
      by_contra hne
      have hmask := mask_ne_nil hne
      have hend := h.endsInWord_left
      rw [hgap.mask_append hlive, DialectBridge.Pattern.endsInWord_append hmask] at hend
      rw [← List.dropLast_concat_getLast hmask, DialectBridge.Pattern.endsInWord_append (by simp),
        endsInWord_singleton,
        isWordChar_of_isBlank (isBlank_of_tokens_eq_nil hk _ (List.getLast_mem hmask))] at hend
      exact absurd hend (by decide)
    subst hnil
    rw [List.append_nil] at h
    exact ⟨[], b, rfl, by simpa using hw.symm, rfl, by rw [mask_nil]; rfl, by simpa using hgap⟩

/-- The place for a `FROM` is on the surface of its own block. -/
theorem walk_of_dualPlace (h : Heading sql u s a b) (hnested : WellNested (mask sql))
    (hp : DualPlace b x c d) (hlive : (code.after c).live = true) :
    walk 0 (tokens (mask c)) = some 0 := by
  cases hp with
  | @clause c d w v hb hblock hw hdepth _ _ =>
    obtain ⟨-, -, -, hend, -⟩ := takesPhrases_afterFrom.takes _ _ _ hw
    exact walk_tokens_of_prefix hblock (.of_ends hend _) hdepth
  | @ends c tail d hcut _ htail _ =>
    rw [h.mask_eq] at hnested
    have hplain : ∀ e ∈ tail, isPlain e = true := fun e he => isPlain_of_isBlockEnd (htail e he)
    have hjoins : (code.after c).joins tail = true :=
      joins_of_head?_isPlain hlive fun e he => hplain e (List.mem_of_head? he)
    have hblock : blockText (mask b) = mask c ++ tail := by
      rw [← hcut.mask_left, DialectBridge.mask_append hjoins, mask_of_all_isPlain hplain]
    exact hnested.walk_tokens_of_ends hblock htail

end Heading

/-! ## Two headings of one block -/

theorem blockText_append {a b : Text} (h : Apart a b) (hwalk : walk 0 (tokens a) = some 0) :
    blockText (a ++ b) = a ++ blockText b := by
  rw [walk_tokens] at hwalk
  rw [blockText, pieces_append h, block_append hwalk, List.flatten_append, flatten_pieces]
  rfl

namespace Heading
variable {sql u s a b c d x : Text}

/-- A block goes through a place on its surface. -/
theorem blockText_eq (h : Heading sql u s a b) (hb : b = c ++ d) (hgap : Gap x (a ++ c) d)
    (hlive : (code.after c).live = true) (hwalk : walk 0 (tokens (mask c)) = some 0) :
    blockText (mask b) = mask c ++ blockText (mask d) := by
  have happly : Apart (mask c) (mask d) := by
    by_cases hc : c = []
    · rw [hc, mask_nil]
      exact apart_nil_left _
    · intro hend
      refine hgap.apart d rfl ?_
      rw [h.endsInWord_append hc, hend]
  have hjoins : (code.after c).joins d = true := by
    have := hgap.joins (by rw [h.after_append, hlive])
    rwa [h.after_append] at this
  rw [hb, DialectBridge.mask_append hjoins, blockText_append happly hwalk]

/-- No word ends at the place for a `FROM` in front of a clause. -/
theorem endsInWord_before (h : Heading sql u s a b) (hgap : Gap dualBefore (a ++ c) d) :
    endsInWord (mask c) = false := by
  by_cases hc : c = []
  · rw [hc, mask_nil]
    rfl
  · rcases hgap.form with ⟨-, -, hend⟩ | ⟨hx, -⟩
    · rwa [h.endsInWord_append hc] at hend
    · exact absurd hx (by decide)

end Heading

/-- What stands before the last characters that end a block is determined. -/
theorem eq_of_append_blockEnds {c c' t t' : Text} (h : c ++ t = c' ++ t')
    (hc : ∀ e ∈ c.getLast?, isBlockEnd e = false) (ht : ∀ e ∈ t, isBlockEnd e = true)
    (hc' : ∀ e ∈ c'.getLast?, isBlockEnd e = false) (ht' : ∀ e ∈ t', isBlockEnd e = true) :
    c = c' := by
  have key : ∀ {a m : Text}, (∀ e ∈ (a ++ m).getLast?, isBlockEnd e = false) →
      (∀ e ∈ m, isBlockEnd e = true) → m = [] := by
    intro a m hlast hm
    by_contra hne
    have hmem := List.getLast_mem hne
    have := hlast (m.getLast hne) (by rw [List.getLast?_append, List.getLast?_eq_some_getLast hne]; rfl)
    rw [hm _ hmem] at this
    exact absurd this (by decide)
  rcases List.append_eq_append_iff.1 h with ⟨m, rfl, rfl⟩ | ⟨m, rfl, rfl⟩
  · rw [key hc' fun e he => ht e (by simp [he]), List.append_nil]
  · rw [key hc fun e he => ht' e (by simp [he]), List.append_nil]

/-! ## The insertions of `fromDual` -/

/-- A step that does not raise warnings, done on a list. -/
theorem run_mapM_lift {α β : Type} {f : α → Option β} {g : α → β} {l : List α}
    (h : ∀ x ∈ l, f x = some (g x)) (raised : List Warning) :
    (l.mapM fun x => (f x : Reporting β)).run raised = some (l.map g, raised) := by
  induction l with
  | nil => rfl
  | cons x l ih =>
    have hx : ((f x : Option β) : Reporting β).run raised = some (g x, raised) := by
      rw [h x (by simp)]
      rfl
    rw [List.mapM_cons, StateT.run_bind, hx]
    show ((l.mapM fun x => (f x : Reporting β)) >>= fun r => pure (g x :: r)).run raised = _
    rw [StateT.run_bind, ih fun y hy => h y (by simp [hy])]
    rfl

/-- `fromDual` makes the insertions that the headings of the query lack. -/
theorem exists_insertions (sql : Text) :
    ∃ is, Ready sql is ∧ (∀ raised, (fromDual sql).run raised = (insertAll sql is).run raised) ∧
      ∀ i, i ∈ is ↔ ∃ m ∈ (keyword "SELECT").findAll (mask sql),
        missingFrom? sql (mask sql) m.stop = some (some i) := by
  have hsome : ∀ m ∈ (keyword "SELECT").findAll (mask sql), ∃ r,
      missingFrom? sql (mask sql) m.stop = some r ∧ ∀ i ∈ r, Fits sql i := by
    intro m hm
    obtain ⟨u, s, a, b, h, hstop⟩ := exists_heading_of_mem hm
    rw [h.eq, hstop]
    rcases missingFrom?_eq (b := b) h.behind with ⟨-, heq⟩ | ⟨-, x, c, d, hp, heq⟩
    · exact ⟨none, heq, by simp⟩
    · refine ⟨some ⟨Text.width (a ++ c), x⟩, heq, fun i hi => ?_⟩
      obtain rfl : _ = i := Option.some.inj hi
      exact ⟨a ++ c, d, by rw [hp.eq, List.append_assoc], rfl, h.gap hp⟩
  let missing := fun m : Match => (missingFrom? sql (mask sql) m.stop).getD none
  have hmissing : ∀ m ∈ (keyword "SELECT").findAll (mask sql),
      missingFrom? sql (mask sql) m.stop = some (missing m) := by
    intro m hm
    obtain ⟨r, hr, -⟩ := hsome m hm
    simp [missing, hr]
  let is := ((((keyword "SELECT").findAll (mask sql)).map missing).filterMap id).mergeSort
    fun a b => b.place ≤ a.place
  have hmem : ∀ i, i ∈ is ↔ ∃ m ∈ (keyword "SELECT").findAll (mask sql),
      missingFrom? sql (mask sql) m.stop = some (some i) := by
    intro i
    rw [List.mem_mergeSort]
    simp only [List.mem_filterMap, List.mem_map, id_eq, exists_exists_and_eq_and]
    refine exists_congr fun m => and_congr_right fun hm => ?_
    rw [hmissing m hm, Option.some.injEq]
  refine ⟨is, ⟨?_, fun i hi => ?_⟩, fun raised => ?_, hmem⟩
  · have hsorted : is.Pairwise fun a b => decide (b.place ≤ a.place) = true :=
      List.pairwise_mergeSort (fun a b c h1 h2 => by simp at *; omega) (fun a b => by simp; omega) _
    exact hsorted.imp fun h => by simpa using h
  · obtain ⟨m, hm, heq⟩ := (hmem i).1 hi
    obtain ⟨r, hr, hfits⟩ := hsome m hm
    rw [heq] at hr
    exact hfits i (Option.some.inj hr).symm
  · rw [fromDual]
    simp only [StateT.run_bind, run_mapM_lift hmissing]
    rfl

section
variable {sql : Text} {is : List Insertion}

/-- An insertion on the surface of a block that gets its own one at its end is that one. -/
theorem eq_of_reaches {u s a b c tail d c' d' : Text} {i : Insertion} {m : Match}
    (hnested : WellNested (mask sql)) (h : Heading sql u s a b) (hcut : BlockCut b (c ++ tail) d)
    (hlast : ∀ e ∈ c.getLast?, isBlockEnd e = false) (htail : ∀ e ∈ tail, isBlockEnd e = true)
    (hclause : zeroMatches afterFrom (blockText (mask b)) = [])
    (hb : b = c' ++ d') (hplace : i.place = Text.width (a ++ c'))
    (hlive : (code.after c').live = true) (hwalk : walk 0 (tokens (mask c')) = some 0)
    (hgap : Gap i.text (a ++ c') d') (hm : m ∈ (keyword "SELECT").findAll (mask sql))
    (hi : missingFrom? sql (mask sql) m.stop = some (some i)) : c = c' := by
  obtain ⟨u₂, s₂, a₂, b₂, h₂, hstop⟩ := exists_heading_of_mem hm
  have hmissing := missingFrom?_eq (b := b₂) h₂.behind
  rw [← h₂.eq, ← hstop, hi] at hmissing
  rcases hmissing with ⟨-, heq⟩ | ⟨-, x, c₂, d₂, hp, heq⟩
  · simp at heq
  obtain rfl : i = ⟨Text.width (a₂ ++ c₂), x⟩ := by simpa using heq
  -- both headings see the same text from the place on
  obtain ⟨hleft, rfl⟩ : a₂ ++ c₂ = a ++ c' ∧ d₂ = d' := by
    refine Text.append_inj_of_width ?_ hplace
    rw [List.append_assoc, ← hp.eq, ← h₂.eq, h.eq, hb, List.append_assoc]
  have hlive₂ : (code.after c₂).live = true := by
    rw [← h₂.after_append, hleft, h.after_append, hlive]
  have hblock₁ := h.blockText_eq hb hgap hlive hwalk
  have hblock₂ := h₂.blockText_eq hp.eq (hleft.symm ▸ hgap) hlive₂ (h₂.walk_of_dualPlace hnested hp hlive₂)
  cases hp with
  | @clause c₂ d₂ w v _ hw hmatch hdepth _ _ =>
    -- the clause stands in the other block as well
    rw [hw, List.append_cancel_left_eq] at hblock₂
    rw [← hblock₂] at hblock₁
    obtain ⟨-, -, -, hend₂, hbegin⟩ := takesPhrases_afterFrom.takes _ _ _ hmatch
    obtain ⟨m', hm', -⟩ := takesPhrases_afterFrom.exists_mem_zeroMatches
      (takesPhrases_afterFrom.congr hmatch (h.endsInWord_before hgap) hbegin) (by
        have := walk_tokens_eq_some hwalk
        omega)
    rw [← hblock₁, hclause] at hm'
    simp at hm'
  | @ends c₂ tail₂ d₂ hcut₂ hlast₂ htail₂ _ =>
    have hwidth : Text.width (c ++ tail) = Text.width (c' ++ tail₂) := by
      have h1 := congrArg Text.width hblock₁
      have h2 := congrArg Text.width hblock₂
      rw [← hcut.mask_left] at h1
      rw [← hcut₂.mask_left] at h2
      simp only [width_mask, Text.width_append] at h1 h2 ⊢
      omega
    have hsplit : (c ++ tail) ++ d = (c' ++ tail₂) ++ d₂ := by
      rw [← hcut.eq, hb, List.append_assoc]
    refine eq_of_append_blockEnds (Text.append_inj_of_width hsplit hwidth).1 hlast htail ?_ htail₂
    -- the place is right behind a heading or behind what does not end a block
    intro e he
    have he' : (a₂ ++ c₂).getLast? = some e := by
      rw [hleft, List.getLast?_append, he]
      rfl
    by_cases hc₂ : c₂ = []
    · rw [hc₂, List.append_nil] at he'
      by_contra hend
      have := isWordChar_of_isBlockEnd (by simpa using hend)
      exact absurd (this.symm.trans (h₂.last e he')) (by decide)
    · rw [List.getLast?_append_of_ne_nil _ hc₂] at he'
      exact hlast₂ e he'

/-- The insertions cover the query just if all of them land in code. -/
theorem covered_iff_dualLands (hnested : WellNested (mask sql)) (hready : Ready sql is)
    (his : ∀ i, i ∈ is ↔ ∃ m ∈ (keyword "SELECT").findAll (mask sql),
      missingFrom? sql (mask sql) m.stop = some (some i)) : Covered sql is ↔ DualLands sql := by
  constructor
  · intro hcovered m hm i hi p q hsql hw
    obtain ⟨u, s, a, b, h, hstop⟩ := exists_heading_of_mem hm
    have hmissing := missingFrom?_eq (b := b) h.behind
    rw [← h.eq, ← hstop, hi] at hmissing
    rcases hmissing with ⟨-, heq⟩ | ⟨hlacks, x, c, d, hp, heq⟩
    · simp at heq
    simp only [Option.some.injEq] at heq
    obtain rfl : p = a ++ c := by
      have hsplit : (a ++ c) ++ d = p ++ q := by
        rw [List.append_assoc, ← hp.eq, ← h.eq, hsql]
      exact (Text.append_inj_of_width hsplit (by rw [hw, heq])).1.symm
    rcases hcovered _ _ _ h.tokens_eq h.select with hfrom | ⟨j, hj, hreaches⟩
    · exact absurd hfrom hlacks
    obtain ⟨c', d', hb, hplace, hlive, hwalk, hgap⟩ := h.exists_of_reaches (hready.2 j hj) hreaches
    obtain ⟨m', hm', hi'⟩ := (his j).1 hj
    rw [h.after_append]
    cases hp with
    | clause _ _ _ _ hlive' _ => exact hlive'
    | @ends c tail d hcut hlast htail hclause =>
      rw [eq_of_reaches hnested h hcut hlast htail hclause hb hplace hlive hwalk hgap hm' hi']
      exact hlive
  · intro hlands ps s qs hsplit hs
    obtain ⟨u, a, b, h, rfl, rfl⟩ := exists_heading_of_tokens hsplit hs
    obtain ⟨m, hm, hstop⟩ := h.exists_mem
    have hmissing := missingFrom?_eq (b := b) h.behind
    rw [← h.eq, ← hstop] at hmissing
    rcases hmissing with ⟨hfrom, -⟩ | ⟨-, x, c, d, hp, heq⟩
    · exact .inl hfrom
    · have hlive := hlands m hm _ heq (a ++ c) d (by rw [List.append_assoc, ← hp.eq, h.eq]) rfl
      rw [h.after_append] at hlive
      refine .inr ⟨_, (his _).2 ⟨m, hm, heq⟩, ?_⟩
      have hwalk := h.walk_of_dualPlace hnested hp hlive
      obtain rfl := hp.eq
      exact h.reaches rfl hlive hwalk

end

/-- A query is complete just if nothing is put into it. -/
theorem complete_iff_of_insertions {sql : Text} {is : List Insertion}
    (his : ∀ i, i ∈ is ↔ ∃ m ∈ (keyword "SELECT").findAll (mask sql),
      missingFrom? sql (mask sql) m.stop = some (some i)) : Complete sql ↔ is = [] := by
  rw [List.eq_nil_iff_forall_not_mem]
  constructor
  · intro hcomplete i hi
    obtain ⟨m, hm, heq⟩ := (his i).1 hi
    obtain ⟨u, s, a, b, h, hstop⟩ := exists_heading_of_mem hm
    have hmissing := missingFrom?_eq (b := b) h.behind
    rw [← h.eq, ← hstop, heq] at hmissing
    rcases hmissing with ⟨-, heq⟩ | ⟨hlacks, -⟩
    · simp at heq
    · exact hlacks (hcomplete _ _ _ h.tokens_eq h.select)
  · intro hnone ps s qs hsplit hs
    obtain ⟨u, a, b, h, rfl, rfl⟩ := exists_heading_of_tokens hsplit hs
    obtain ⟨m, hm, hstop⟩ := h.exists_mem
    have hmissing := missingFrom?_eq (b := b) h.behind
    rw [← h.eq, ← hstop] at hmissing
    rcases hmissing with ⟨hfrom, -⟩ | ⟨-, x, c, d, -, heq⟩
    · exact hfrom
    · exact absurd ((his _).2 ⟨m, hm, heq⟩) (hnone _)

/-- A second run changes a query just if it is not complete. -/
theorem fromDual_eq_self_iff (sql : Text) (raised : List Warning) :
    (fromDual sql).run raised = some (sql, raised) ↔ Complete sql := by
  obtain ⟨is, hready, hrun, his⟩ := exists_insertions sql
  rw [hrun, complete_iff_of_insertions his]
  constructor
  · intro h
    obtain ⟨out, hout, -, hwidth⟩ := complete_insertAll_iff hready raised
    obtain rfl : out = sql := by simpa [hout] using h
    cases is with
    | nil => rfl
    | cons i is =>
      rw [List.length_cons] at hwidth
      omega
  · rintro rfl
    rfl

/-- The queries that `fromDual` completes, and the ones that a second run leaves as they are, are
those of which every insertion lands in code. -/
theorem fromDual_complete_iff (sql : Text) (raised : List Warning) (h : WellNested (mask sql)) :
    ∃ out, (fromDual sql).run raised = some (out, raised) ∧ (Complete out ↔ DualLands sql) ∧
      ((fromDual out).run raised = some (out, raised) ↔ DualLands sql) := by
  obtain ⟨is, hready, hrun, his⟩ := exists_insertions sql
  obtain ⟨out, hout, hcomplete, -⟩ := complete_insertAll_iff hready raised
  have hlands : Complete out ↔ DualLands sql := hcomplete.trans (covered_iff_dualLands h hready his)
  exact ⟨out, by rw [hrun, hout], hlands, by rw [fromDual_eq_self_iff, hlands]⟩

theorem fromDual_complete_union :
    WellNested (mask "SELECT 1 UNION SELECT (2)".toList) ∧
      ∃ out, (fromDual "SELECT 1 UNION SELECT (2)".toList).run [] = some (out, []) ∧
        (Complete out ↔ DualLands "SELECT 1 UNION SELECT (2)".toList) ∧
        ((fromDual out).run [] = some (out, []) ↔ DualLands "SELECT 1 UNION SELECT (2)".toList) :=
  ⟨by decide +kernel, fromDual_complete_iff _ [] (by decide +kernel)⟩

/-- An insertion behind a comment is lost, and made again by a second run. -/
theorem fromDual_comment :
    WellNested (mask "SELECT 1 -- c".toList) ∧
      ∃ out, (fromDual "SELECT 1 -- c".toList).run [] = some (out, []) ∧ ¬ Complete out ∧
        (fromDual out).run [] ≠ some (out, []) := by
  refine ⟨by decide +kernel, "SELECT 1 -- c FROM DUAL".toList, by decide +kernel, ?_, ?_⟩
  · rw [← fromDual_eq_self_iff _ []]
    decide +kernel
  · decide +kernel

end DialectBridge.ToOracle
