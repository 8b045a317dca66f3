import DialectBridge.Proofs.ArgumentSplitting
import DialectBridge.Proofs.EntityEncoding
import DialectBridge.Proofs.MaskSegments
import DialectBridge.Proofs.RuleWarnings
import DialectBridge.Proofs.Surroundings
/-!
# The first word of a query

A converter looks at a query as it is written, before any entity is decoded. It turns the query down unless its first
word, behind white space, opening parentheses and comments, is `SELECT` or `WITH` (`objection?_eq_none_iff`). What
stands in front of the first word holds no entity that is decoded, and neither does the word (`exists_head`,
`Entity.decode_append`). So decoding can only make the first word longer, and where it does not, a query is turned down
just where its decoding is (`rejects_decoded_iff`).
-/
namespace DialectBridge
open Pattern Cursor LexState Segment

variable {a b t w x y : Text} {c : Char} {s : LexState}

namespace Converter

def firstWord (query : Text) : Text := ((mask query).dropWhile isLead).takeWhile Unicode.isWordChar

/-- What a query has behind its first word, or where this is missing. -/
def behindFirstWord (query : Text) : Text :=
  let rest := ((mask query).dropWhile isLead).dropWhile Unicode.isWordChar
  (Text.from? query (Text.width query - Text.width rest)).getD []

/-- Whether a query may begin with a word. -/
def HeadsQuery (w : Text) : Prop := Spelled "SELECT".toList w ∨ Spelled "WITH".toList w

instance (w : Text) : Decidable (HeadsQuery w) := inferInstanceAs (Decidable (_ ∨ _))

/-! ## What a converter accepts -/

theorem HeadsQuery.isWordChar (h : HeadsQuery w) : ∀ d ∈ w, Unicode.isWordChar d = true :=
  h.elim (fun h => h.isWordChar (by decide)) fun h => h.isWordChar (by decide)

theorem HeadsQuery.ne_nil (h : HeadsQuery w) : w ≠ [] :=
  h.elim (fun h => h.ne_nil (by decide)) fun h => h.ne_nil (by decide)

/-- The first word is all that the pattern asks for. -/
theorem occursIn_queryHead_iff : queryHead.occursIn t = true ↔ HeadsQuery (t.takeWhile Unicode.isWordChar) := by
  have hmatch : ∀ u w v, Matches queryHead u w v ↔ u = [] ∧ HeadsQuery w ∧ endsInWord w ≠ beginsInWord v := by
    intro u w v
    rw [queryHead, matches_seq]
    constructor
    · rintro ⟨w, e, rfl, h, he⟩
      obtain ⟨z, w, rfl, hz, hw⟩ := matches_seq.1 h
      obtain ⟨rfl, rfl⟩ := matches_textStart.1 hz
      obtain ⟨rfl, hedge⟩ := matches_edge.1 he
      have hw : HeadsQuery w := by simpa [HeadsQuery] using hw
      exact ⟨rfl, by simpa using hw, by simpa using hedge⟩
    · rintro ⟨rfl, hw, hedge⟩
      refine ⟨w, [], by simp, matches_seq.2 ⟨[], w, rfl, matches_textStart.2 ⟨rfl, rfl⟩, ?_⟩, ?_⟩
      · simpa [HeadsQuery] using hw
      · exact matches_edge.2 ⟨rfl, by simpa using hedge⟩
  have hends : ∀ {w}, HeadsQuery w → endsInWord w = true := fun h => endsInWord_of_all h.ne_nil h.isWordChar
  constructor
  · intro h
    obtain ⟨m, hm⟩ := Option.isSome_iff_exists.1 h
    obtain ⟨u, x, rfl, hat⟩ := exists_of_find? hm
    obtain ⟨w, v, rfl, -, -, htakes⟩ := matchAt?_eq_some hat
    obtain ⟨rfl, hw, hedge⟩ := (hmatch u w v).1 ⟨_, _, htakes⟩
    rw [hends hw] at hedge
    rw [List.nil_append, takeWhile_append hw.isWordChar (head?_of_not_begins (by simpa using hedge))]
    exact hw
  · intro h
    have hsplit := List.takeWhile_append_dropWhile (p := Unicode.isWordChar) (l := t)
    have hbehind := beginsInWord_dropWhile t
    rw [← hsplit]
    exact occursIn_of_matches (u := []) ((hmatch _ _ _).2 ⟨rfl, h, by rw [hends h, hbehind]; decide⟩)

/-- A text is a query if its first word is one of the two. -/
theorem objection?_eq_none_iff (query : Text) : objection? query = none ↔ HeadsQuery (firstWord query) := by
  have hhead := occursIn_queryHead_iff (t := (mask query).dropWhile isLead)
  rw [← firstWord] at hhead
  by_cases hquery : HeadsQuery (firstWord query)
  · have hshown : Text.trim ((mask query).dropWhile isLead) ≠ [] := by
      obtain ⟨c, hc⟩ := List.exists_mem_of_ne_nil _ hquery.ne_nil
      intro htrim
      have hblank := trim_eq_nil_iff.1 htrim c ((List.takeWhile_sublist _).mem hc)
      rw [isBlank_of_isWordChar (hquery.isWordChar c hc)] at hblank
      cases hblank
    simp [objection?, hhead.2 hquery, hquery, List.isEmpty_iff, hshown]
  · have hfound : queryHead.occursIn ((mask query).dropWhile isLead) = false := by
      simpa using mt hhead.1 hquery
    simp only [hquery, iff_false, objection?, hfound, Bool.not_false, if_true]
    split_ifs <;> simp

end Converter

/-! ## What stands in front of the first word -/

theorem isLead_cases (h : Converter.isLead c = true) : Unicode.isBlank c = true ∨ c = '(' := by
  simpa [Converter.isLead] using h

theorem isPlain_of_isLead (h : Converter.isLead c = true) : isPlain c = true := by
  rcases isLead_cases h with h | rfl
  · exact isPlain_of_isBlank h
  · decide

theorem isLead_of_isWordChar (h : Unicode.isWordChar c = true) : Converter.isLead c = false := by
  by_contra hlead
  rcases isLead_cases (by simpa using hlead) with hblank | rfl
  · rw [isBlank_of_isWordChar h] at hblank
    cases hblank
  · exact absurd h (by decide)

theorem isLead_spaces (n : Nat) : ∀ d ∈ Text.spaces n, Converter.isLead d = true := fun d hd => by
  rw [List.eq_of_mem_replicate hd]
  decide

/-- Whether the lexer is in code or in a comment before `t`, or inside the two signs that open one. -/
def InLead : LexState → Text → Prop
  | .code, _ | .line, _ | .block, _ | .star, _ => True
  | .minus, t => t.head? = some '-'
  | .slash, t => t.head? = some '*'
  | .quoted _, _ | .closed _, _ => False

/-- White space, a parenthesis or a character of a comment is shown as what may stand in front of a first word. -/
theorem InLead.step (h : InLead s (c :: t))
    (hmore : s = code → Converter.isLead c = true ∨ beginsComment c t = true) :
    InLead (s.step c) t ∧ ∀ d ∈ s.glance c t, Converter.isLead d = true := by
  have hhidden : s.hides c t = true → ∀ d ∈ s.glance c t, Converter.isLead d = true := fun hhides => by
    rw [glance, if_pos hhides]
    exact isLead_spaces _
  cases s with
  | code =>
    rcases hmore rfl with hlead | hcomment
    · refine ⟨?_, fun d hd => ?_⟩
      · rw [LexState.step, ofCode_of_isPlain (isPlain_of_isLead hlead)]
        trivial
      · rw [glance] at hd
        split_ifs at hd
        · exact isLead_spaces _ d hd
        · rwa [List.mem_singleton.1 hd]
    · refine ⟨?_, hhidden hcomment⟩
      simp only [beginsComment, Bool.or_eq_true, Bool.and_eq_true, beq_iff_eq] at hcomment
      rcases hcomment with ⟨rfl, ht⟩ | ⟨rfl, ht⟩
      · exact ht
      · exact ht
  | minus =>
    obtain rfl : c = '-' := by simpa [InLead] using h
    exact ⟨trivial, hhidden rfl⟩
  | slash =>
    obtain rfl : c = '*' := by simpa [InLead] using h
    exact ⟨trivial, hhidden rfl⟩
  | line =>
    by_cases hc : c = '\n'
    · subst hc
      exact ⟨trivial, fun d hd => by
        rw [List.mem_singleton.1 hd]
        decide⟩
    · refine ⟨?_, hhidden (by simpa [hides] using hc)⟩
      rw [LexState.step, if_neg hc]
      trivial
  | block =>
    refine ⟨?_, hhidden rfl⟩
    rw [LexState.step]
    split_ifs <;> trivial
  | star =>
    refine ⟨?_, hhidden rfl⟩
    rw [LexState.step]
    split_ifs <;> trivial
  | quoted q | closed q => exact h.elim

/-- What stands in front of the first word can be cut off, and the lexer is in code behind it. -/
theorem InLead.exists_cut (h : InLead s t) : ∃ a b, t = a ++ b ∧ maskFrom s t = maskFrom s a ++ mask b ∧
    (∀ d ∈ maskFrom s a, Converter.isLead d = true) ∧ (∀ d ∈ (mask b).head?, Converter.isLead d = false) ∧
    (b = [] ∨ s.after a = code) := by
  induction t generalizing s with
  | nil => exact ⟨[], [], rfl, by simp, by simp, by simp, .inl rfl⟩
  | cons c t ih =>
    by_cases hstop : s = code ∧ Converter.isLead c = false ∧ beginsComment c t = false
    · obtain ⟨rfl, hlead, hcomment⟩ := hstop
      have hshown : code.glance c t = [c] := if_neg (by simp [hides, hcomment])
      refine ⟨[], c :: t, rfl, maskFrom_code _, by simp, fun d hd => ?_, .inr rfl⟩
      rw [← maskFrom_code, maskFrom_cons, hshown] at hd
      obtain rfl : c = d := by simpa using hd
      exact hlead
    · have hmore : s = code → Converter.isLead c = true ∨ beginsComment c t = true := fun hs => by
        by_contra hnot
        exact hstop ⟨hs, by simpa [not_or] using hnot⟩
      obtain ⟨hstep, hglance⟩ := h.step hmore
      obtain ⟨a, b, rfl, hmask, hlead, hfirst, hcode⟩ := ih hstep
      have hjoins : ((s.step c).after a).joins b = true := by
        rcases hcode with rfl | hcode
        · exact joins_nil _
        · rw [hcode]
          exact joins_code b
      have hsame : s.glance c (a ++ b) = s.glance c a := by rw [glance, glance, hides_append hjoins]
      refine ⟨c :: a, b, rfl, ?_, ?_, hfirst, hcode⟩
      · rw [maskFrom_cons, hmask, maskFrom_cons, hsame, List.append_assoc]
      · rw [maskFrom_cons, ← hsame]
        intro d hd
        exact (List.mem_append.1 hd).elim (hglance d) (hlead d)

/-- The text `a` may stand in front of a first word, and `r` is read on its own behind it. -/
structure Led (a r : Text) : Prop where
  lead : ∀ d ∈ mask a, Converter.isLead d = true
  code : r = [] ∨ code.after a = code

theorem Led.joins {a r : Text} (h : Led a r) : (LexState.code.after a).joins r = true := by
  rcases h.code with rfl | hcode
  · exact joins_nil _
  · rw [hcode]
    exact joins_code r

theorem Led.mask_eq {a r : Text} (h : Led a r) : mask (a ++ r) = mask a ++ mask r := mask_append h.joins

theorem Led.dropWhile_mask {a r : Text} (h : Led a r) :
    (mask (a ++ r)).dropWhile Converter.isLead = (mask r).dropWhile Converter.isLead := by
  rw [h.mask_eq, List.dropWhile_append_of_pos h.lead]

namespace Converter

theorem firstWord_led {a r : Text} (h : Led a r) : firstWord (a ++ r) = firstWord r := by
  rw [firstWord, h.dropWhile_mask, firstWord]

/-- A word where the text starts is the first one. -/
theorem firstWord_word (hne : w ≠ []) (hw : ∀ d ∈ w, Unicode.isWordChar d = true) (t : Text) :
    firstWord (w ++ t) = w ++ t.takeWhile Unicode.isWordChar := by
  have hplain : ∀ d ∈ w, isPlain d = true := fun d hd => isPlain_of_isWordChar (hw d hd)
  have htail : (mask t).takeWhile Unicode.isWordChar = t.takeWhile Unicode.isWordChar := by
    have hword : ∀ d ∈ t.takeWhile Unicode.isWordChar, Unicode.isWordChar d = true :=
      List.all_eq_true.1 List.all_takeWhile
    rw [mask_eq_first_word t,
      takeWhile_append hword (head?_of_not_begins (by rw [beginsInWord_mask, beginsInWord_dropWhile]))]
  obtain ⟨c, w, rfl⟩ := List.exists_cons_of_ne_nil hne
  have hdrop : (mask (c :: w ++ t)).dropWhile isLead = c :: w ++ mask t := by
    rw [mask_plain_append hplain, List.cons_append, List.dropWhile_cons_of_neg]
    simp [isLead_of_isWordChar (hw c (by simp))]
  rw [firstWord, hdrop, List.takeWhile_append_of_pos hw, htail]

/-- A query is what stands in front of its first word, this word and the rest. -/
theorem exists_head (query : Text) : ∃ a, query = a ++ (firstWord query ++ behindFirstWord query) ∧
    Led a (firstWord query ++ behindFirstWord query) := by
  obtain ⟨a, r, hquery, hmask, hlead, hfirst, hcode⟩ := InLead.exists_cut (s := code) (t := query) trivial
  rw [maskFrom_code, maskFrom_code] at hmask
  rw [maskFrom_code] at hlead
  have hrest : (mask query).dropWhile isLead = mask r := by rw [hmask, dropWhile_append hlead hfirst]
  obtain ⟨w, b, rfl, hw, hb⟩ : ∃ w b, r = w ++ b ∧ (∀ d ∈ w, Unicode.isWordChar d = true) ∧ beginsInWord b = false :=
    ⟨_, _, List.takeWhile_append_dropWhile.symm, List.all_eq_true.1 List.all_takeWhile, beginsInWord_dropWhile r⟩
  rw [mask_plain_append fun d hd => isPlain_of_isWordChar (hw d hd)] at hrest
  have hstop := head?_of_not_begins (t := mask b) (by rw [beginsInWord_mask, hb])
  have hword : firstWord query = w := by rw [firstWord, hrest, takeWhile_append hw hstop]
  have hbehind : behindFirstWord query = b := by
    have hdrop : ((mask query).dropWhile isLead).dropWhile Unicode.isWordChar = mask b := by
      rw [hrest, dropWhile_append hw hstop]
    have hwidth : Text.width query - Text.width (mask b) = Text.width (a ++ w) := by
      rw [width_mask, hquery]
      simp only [Text.width_append]
      omega
    rw [behindFirstWord, hdrop, hwidth, hquery, ← List.append_assoc, Text.from?_append]
    rfl
  rw [hword, hbehind]
  exact ⟨a, hquery, hlead, hcode⟩

end Converter

/-! ## Decoding behind the first word -/

namespace Entity

theorem decode_nil : decode [] = [] := by simp [decode, mapOutsideComments, mapSegments, segments]

/-- Nothing that stands in front of a text changes what its entities become. -/
theorem replaceFrom_decodeMatch (u t : Text) :
    pattern.replaceFrom decodeMatch u t = pattern.replaceAllBy decodeMatch t := by
  have hshut : ShutOff pattern u [] := ⟨rfl, fun k hk => absurd hk List.not_mem_nil, by simp⟩
  have hsame : ∀ v x m, pattern.matchAt? (between v x) = some m → decodeMatch (m.within u []) = decodeMatch m := by
    intro v x m hm
    obtain ⟨w, z, rfl, hfirst, hlast, -⟩ := matchAt?_eq_some hm
    have htext : (m.within u []).text = m.text := by
      simp only [Match.text, Match.within, hfirst, hlast, within_between, List.append_nil]
      rw [upTo_between, ← List.append_assoc, upTo_between]
    rw [decodeMatch, decodeMatch, Match.groupD, Match.groupD, Match.group?_within hm (by decide), htext]
  have hwithin := replaceFrom_within consuming_pattern hshut hsame [] t
  rwa [replaceFrom_nil consuming_pattern, List.append_nil, List.append_nil, List.append_nil] at hwithin

theorem replaceAllBy_append (ha : '&' ∉ a) (b : Text) :
    pattern.replaceAllBy decodeMatch (a ++ b) = a ++ pattern.replaceAllBy decodeMatch b := by
  rw [replaceAllBy_eq_replaceFrom, replaceFrom_append_of_none, replaceFrom_decodeMatch]
  rintro x c y rfl
  exact matchAt?_of_ne (fun hc => ha (by simp [hc])) _ _

/-- What holds no ampersand outside of comments is not decoded. -/
theorem decode_append (ha : ∀ s ∈ segments a, s.kind ≠ .comment → '&' ∉ s.text)
    (hj : (code.after a).joins b = true) : decode (a ++ b) = a ++ decode b := by
  have hkept : ∀ x : Text, '&' ∉ x → pattern.replaceAllBy decodeMatch x = x := fun x hx => by
    simpa [replaceAllBy_eq_replaceFrom, replaceFrom_nil consuming_pattern] using replaceAllBy_append hx []
  have hself : decode a = a := by
    rw [decode, mapOutsideComments, mapSegments]
    conv_rhs => rw [← segments_flatten a]
    refine List.flatMap_congr fun s hs => ?_
    split_ifs with hkind
    · exact hkept _ (ha s hs (by simpa using hkind))
    · rfl
  have hglue : decode (a ++ b) = decode a ++ decode b := by
    rw [decode, mapOutsideComments, mapSegments, segments_append hj]
    refine flatMap_glue fun x hx y _ hxk hyk => ?_
    have hamp := ha x (List.mem_of_getLast? hx) (by simp [hxk])
    simp only [hxk, hyk, bne_iff_ne, ne_eq, reduceCtorEq, not_false_eq_true, if_true]
    rw [replaceAllBy_append hamp, hkept _ hamp]
  rw [hglue, hself]

end Entity

/-- What stands in front of the first word, and this word, hold no entity that is decoded. -/
theorem not_mem_of_mem_segments (h : ∀ d ∈ mask x, Converter.isLead d = true ∨ Unicode.isWordChar d = true)
    {s : Segment} (hs : s ∈ segments x) (hkind : s.kind ≠ .comment) : '&' ∉ s.text := by
  have hmasked : ∀ d ∈ s.masked, Converter.isLead d = true ∨ Unicode.isWordChar d = true := fun d hd =>
    h d (List.mem_flatMap.2 ⟨s, hs, hd⟩)
  by_cases hcode : s.kind = .code
  · rw [masked_of_code hcode] at hmasked
    intro hmem
    exact absurd (hmasked _ hmem) (by decide)
  · -- a quote would be shown
    have hquoted : s.kind.isQuoted = true := by
      obtain ⟨kind, text⟩ := s
      cases kind <;> simp_all [SegmentKind.isQuoted]
    obtain ⟨q, inside, rfl, -⟩ := exists_inside hs hquoted
    rw [masked_quote] at hmasked
    exact absurd (hmasked q.char (by simp)) (by cases q <;> decide)

namespace Converter
variable {query : Text}

/-- A query keeps its head when its entities are decoded. -/
theorem exists_decoded_head (query : Text) :
    ∃ a, Entity.decode query = a ++ (firstWord query ++ Entity.decode (behindFirstWord query)) ∧
      Led a (firstWord query ++ Entity.decode (behindFirstWord query)) := by
  obtain ⟨a, hquery, hled⟩ := exists_head query
  have hword : ∀ d ∈ firstWord query, Unicode.isWordChar d = true := List.all_eq_true.1 List.all_takeWhile
  generalize firstWord query = w at hquery hled hword ⊢
  generalize behindFirstWord query = b at hquery hled ⊢
  have hplain : ∀ d ∈ w, isPlain d = true := fun d hd => isPlain_of_isWordChar (hword d hd)
  have hmask : mask (a ++ w) = mask a ++ w := by
    have hfront : Led a w := ⟨hled.lead, hled.code.imp_left fun h => (List.append_eq_nil_iff.1 h).1⟩
    rw [hfront.mask_eq, mask_of_all_isPlain hplain]
  have hamp : ∀ s ∈ segments (a ++ w), s.kind ≠ .comment → '&' ∉ s.text := fun s hs hkind => by
    refine not_mem_of_mem_segments (fun d hd => ?_) hs hkind
    rw [hmask] at hd
    exact (List.mem_append.1 hd).imp (hled.lead d) (hword d)
  have hjoins : (code.after (a ++ w)).joins b = true := by
    rcases hled.code with hnil | hcode
    · rw [(List.append_eq_nil_iff.1 hnil).2]
      exact joins_nil _
    · have hbehind : code.after (a ++ w) = code := by
        rw [after_append, hcode]
        by_cases hw : w = []
        · rw [hw, after_nil]
        · exact after_of_all_isPlain rfl hplain hw
      rw [hbehind]
      exact joins_code b
  refine ⟨a, ?_, hled.lead, hled.code.imp_left fun hnil => ?_⟩
  · rw [hquery, ← List.append_assoc, Entity.decode_append hamp hjoins, List.append_assoc]
  · obtain ⟨rfl, rfl⟩ := List.append_eq_nil_iff.1 hnil
    rw [Entity.decode_nil, List.append_nil]

theorem firstWord_decode_of_word (h : firstWord query ≠ []) : firstWord (Entity.decode query) =
    firstWord query ++ (Entity.decode (behindFirstWord query)).takeWhile Unicode.isWordChar := by
  obtain ⟨a, hdecode, hled⟩ := exists_decoded_head query
  rw [hdecode, firstWord_led hled, firstWord_word h (List.all_eq_true.1 List.all_takeWhile)]

theorem firstWord_decode_of_nil (h : firstWord query = []) :
    firstWord (Entity.decode query) = firstWord (Entity.decode (behindFirstWord query)) := by
  obtain ⟨a, hdecode, hled⟩ := exists_decoded_head query
  rw [hdecode, firstWord_led hled, h, List.nil_append]

/-- Whether a text behind a first word makes it longer, or begins with what may stand in front of one that is
missing. -/
def Prolongs (w b : Text) : Prop := beginsInWord b = true ∨ w = [] ∧ (mask b).head?.any isLead = true

instance (w b : Text) : Decidable (Prolongs w b) := inferInstanceAs (Decidable (_ ∨ _ ∧ _))

/-- The first word stays as it is unless the decoded text behind it prolongs it. -/
theorem firstWord_decode (h : ¬ Prolongs (firstWord query) (Entity.decode (behindFirstWord query))) :
    firstWord (Entity.decode query) = firstWord query := by
  obtain ⟨hword, hlead⟩ := not_or.1 h
  rw [Bool.not_eq_true] at hword
  by_cases hw : firstWord query = []
  · have hlead : ∀ d ∈ (mask (Entity.decode (behindFirstWord query))).head?, isLead d = false := fun d hd => by
      by_contra hd'
      exact hlead ⟨hw, (Option.any_eq_true _ _).2 ⟨d, hd, by simpa using hd'⟩⟩
    have hstop := head?_of_not_begins (t := mask (Entity.decode (behindFirstWord query))) (by rw [beginsInWord_mask, hword])
    have hdrop := dropWhile_append (a := []) (by simp) hlead
    have htake := takeWhile_append (a := []) (by simp) hstop
    rw [List.nil_append] at hdrop htake
    rw [firstWord_decode_of_nil hw, hw, firstWord, hdrop, htake]
  · have htake := takeWhile_append (a := []) (by simp) (head?_of_not_begins hword)
    rw [List.nil_append] at htake
    rw [firstWord_decode_of_word hw, htake, List.append_nil]

/-- Neither of the two words begins the other one, so none of them can be prolonged. -/
theorem HeadsQuery.eq_nil (h : HeadsQuery w) (h' : HeadsQuery (w ++ x)) : x = [] := by
  have hlength : ∀ {n t : Text}, Spelled n t → t.length = n.length := fun h => (List.Forall₂.length_eq h).symm
  have hsame : ∀ {n : Text}, Spelled n w → Spelled n (w ++ x) → x = [] := fun hn hn' => by
    have hx := (hlength hn').trans (hlength hn).symm
    rw [List.length_append] at hx
    exact List.length_eq_zero_iff.1 (by omega)
  rcases h with h | h <;> rcases h' with h' | h'
  · exact hsame h h'
  · have hx := hlength h'
    rw [List.length_append, hlength h] at hx
    have hsizes : "WITH".toList.length < "SELECT".toList.length := by decide
    omega
  · -- `W` is no `S`
    obtain ⟨c, w, hc, -, rfl⟩ := List.forall₂_cons_left_iff.1 (show Spelled ('W' :: "ITH".toList) w from h)
    have hs : c ∈ Unicode.caseVariants 'S' := (List.forall₂_cons.1 (show Spelled ('S' :: "ELECT".toList) _ from h')).1
    have hnone : ∀ d ∈ Unicode.caseVariants 'W', d ∉ Unicode.caseVariants 'S' := by decide
    exact absurd hs (hnone c hc)
  · exact hsame h h'

/-! ## Queries that are turned down -/

/-- Whether a conversion turns a query down, with the warning that it is none. -/
def Rejects (c : Converter) (d : Direction) (query : Text) : Prop := .invalidInput ∈ raisedCategories c d query

theorem rejects_iff {c : Converter} {d : Direction} : Rejects c d query ↔ ¬ HeadsQuery (firstWord query) := by
  rw [Rejects, invalidInput_raised_iff, ne_eq, objection?_eq_none_iff]

/-- **A query is accepted as it is written.** It is turned down unless its first word is one of the two. Decoded, it
is turned down just where it is as written, unless decoding prolongs the first word; and one that is accepted is
turned down decoded if its first word grows. -/
theorem rejects_decoded_iff (c : Converter) (d : Direction) (query : Text) :
    (Rejects c d query ↔ ¬ HeadsQuery (firstWord query)) ∧
      (¬ Prolongs (firstWord query) (Entity.decode (behindFirstWord query)) →
        (Rejects c d (Entity.decode query) ↔ Rejects c d query)) ∧
      (¬ Rejects c d query →
        (Rejects c d (Entity.decode query) ↔ beginsInWord (Entity.decode (behindFirstWord query)) = true)) := by
  refine ⟨rejects_iff, fun hkept => ?_, fun haccepted => ?_⟩
  · rw [rejects_iff, rejects_iff, firstWord_decode hkept]
  · have hquery : HeadsQuery (firstWord query) := not_not.1 fun hnot => haccepted (rejects_iff.2 hnot)
    rw [rejects_iff]
    by_cases hgrows : beginsInWord (Entity.decode (behindFirstWord query)) = true
    · refine iff_of_true (fun hdecoded => ?_) hgrows
      rw [firstWord_decode_of_word hquery.ne_nil] at hdecoded
      exact takeWhile_ne_nil_of_beginsInWord hgrows (hquery.eq_nil hdecoded)
    · refine iff_of_false (not_not.2 ?_) hgrows
      rw [firstWord_decode fun hprolongs => hprolongs.elim hgrows fun ⟨hnil, _⟩ => hquery.ne_nil hnil]
      exact hquery

/-- A blank that is written as an entity may stand behind the first word. -/
theorem rejects_decoded_iff_nbsp :
    let query : Text := "/* &lt; */ (SELECT&nbsp;a &gt; b FROM t)"
    ¬ Prolongs (firstWord query) (Entity.decode (behindFirstWord query)) ∧
      (Rejects builtin .oracleToTsql (Entity.decode query) ↔ Rejects builtin .oracleToTsql query) := by
  have hkept : ¬ Prolongs (firstWord "/* &lt; */ (SELECT&nbsp;a &gt; b FROM t)")
      (Entity.decode (behindFirstWord "/* &lt; */ (SELECT&nbsp;a &gt; b FROM t)")) := by
    decide +kernel
  exact ⟨hkept, (rejects_decoded_iff builtin .oracleToTsql "/* &lt; */ (SELECT&nbsp;a &gt; b FROM t)").2.1 hkept⟩

/-- In front of the first word it may not, though the rules would make a blank of it. -/
theorem rejects_leading_nbsp :
    Entity.decode "&nbsp;SELECT a FROM t" = " SELECT a FROM t" ∧
      Rejects builtin .oracleToTsql "&nbsp;SELECT a FROM t" ∧
      ¬ Rejects builtin .oracleToTsql (Entity.decode "&nbsp;SELECT a FROM t") := by
  refine ⟨by decide +kernel, ?_, ?_⟩
  · rw [rejects_iff]
    decide +kernel
  · rw [rejects_iff]
    decide +kernel

end Converter
end DialectBridge
