import DialectBridge.Proofs.Boundaries
import DialectBridge.Proofs.Lexer
import Mathlib.Data.List.Chain
/-!
# What the segments of a text are

`IsLexing` says of any list of spans, without a lexer, what it takes to be the segments of a text: they
cover the text, no code meets code, code holds no beginning of anything else, and everything else ends at
its first end. Each scan of the lexer stops at that end (`ends_splitQuoted` and its like), and no other place
will do (`splitQuoted_of_ends` and its like); so the segments are the only such list (`isLexing_iff`).
-/
namespace DialectBridge
open Text

/-! ## The rules -/

/-- What a literal, an identifier or a comment begins with. -/
def openers : List Text := [['\''], ['"'], ['-', '-'], ['/', '*']]

/-- Every `q` in the text is one of a pair; the pairs are read from the left. -/
inductive Doubled (q : Char) : Text → Prop
  | nil : Doubled q []
  | other {c : Char} {t : Text} : c ≠ q → Doubled q t → Doubled q (c :: t)
  | pair {t : Text} : Doubled q t → Doubled q (q :: q :: t)

/-- Behind an opening `q`, the text `x` ends with the first `q` that is not one of a pair, or with the
whole text if there is none. -/
def EndsQuoted (q : Char) (x rest : Text) : Prop :=
  (∃ inside, x = inside ++ [q] ∧ Doubled q inside ∧ rest.head? ≠ some q) ∨ (Doubled q x ∧ rest = [])

/-- The text `x` stops just before the first line feed, or at the end of the whole text. -/
def EndsLine (x rest : Text) : Prop := '\n' ∉ x ∧ (rest.head? = some '\n' ∨ rest = [])

/-- The text `x` ends with its first `*/`, or with the whole text if there is none. -/
def EndsBlock (x rest : Text) : Prop :=
  (∃ inside, x = inside ++ ['*', '/'] ∧ ¬ ['*', '/'] <:+: inside ++ ['*']) ∨
    (¬ ['*', '/'] <:+: x ∧ rest = [])

/-- Nothing but code begins inside `x`, even where it goes on in what follows. -/
def IsCode (x rest : Text) : Prop :=
  ∀ a b, x = a ++ b → b ≠ [] → ∀ p ∈ openers, ¬ p <+: b ++ rest

/-- What it takes for the text `x` to be a segment in front of `rest`. -/
def Formed : SegmentKind → (x rest : Text) → Prop
  | .code, x, rest => IsCode x rest
  | .literal, x, rest => ∃ y, x = '\'' :: y ∧ EndsQuoted '\'' y rest
  | .identifier, x, rest => ∃ y, x = '"' :: y ∧ EndsQuoted '"' y rest
  | .comment, x, rest =>
    (∃ y, x = '-' :: '-' :: y ∧ EndsLine y rest) ∨ ∃ y, x = '/' :: '*' :: y ∧ EndsBlock y rest

/-- Spans that follow one another without a gap from offset `i` to offset `j`. -/
def Contiguous : Nat → List Span → Nat → Prop
  | i, [], j => i = j
  | i, s :: ss, j => s.start = i ∧ Contiguous s.stop ss j

/-- What it takes for a list of spans with their kinds to be the segments of a text. -/
structure IsLexing (t : Text) (spans : List (SegmentKind × Span)) : Prop where
  contiguous : Contiguous 0 (spans.map Prod.snd) (width t)
  nonempty : ∀ s ∈ spans, s.2.start < s.2.stop
  boundary : ∀ s ∈ spans, IsBoundary t s.2.start ∧ IsBoundary t s.2.stop
  /-- No two spans of code are neighbours. -/
  apart : spans.IsChain fun s s' => s.1 = .code → s'.1 ≠ .code
  formed : ∀ s ∈ spans, ∃ before x rest, t = before ++ (x ++ rest) ∧ width before = s.2.start ∧
    width (before ++ x) = s.2.stop ∧ Formed s.1 x rest

namespace Segment
variable {q : Char} {x rest t : Text}

/-! ## Each scan stops where it has to -/

theorem opens_iff : opens t = true ↔ ∃ p ∈ openers, p <+: t := by
  cases t with
  | nil => simp [opens, openers]
  | cons c t =>
    cases t with
    | nil => simp [opens, openers, @eq_comm _ c]
    | cons d t => simp [opens, openers, List.cons_prefix_cons, @eq_comm _ c, @eq_comm _ d, or_assoc]

theorem ends_splitQuoted (q : Char) (t : Text) : EndsQuoted q (splitQuoted q t).1 (splitQuoted q t).2 := by
  fun_induction splitQuoted q t with
  | case1 => exact .inr ⟨.nil, rfl⟩
  | case2 => exact .inl ⟨[], rfl, .nil, by simp⟩
  | case3 u inside rest heq ih =>
    rw [heq] at ih
    rcases ih with ⟨y, rfl, hy, hrest⟩ | ⟨hy, rfl⟩
    · exact .inl ⟨q :: q :: y, rfl, .pair hy, hrest⟩
    · exact .inr ⟨.pair hy, rfl⟩
  | case4 d u hd => exact .inl ⟨[], rfl, .nil, by simpa using hd⟩
  | case5 c t hc inside rest heq ih =>
    rw [heq] at ih
    rcases ih with ⟨y, rfl, hy, hrest⟩ | ⟨hy, rfl⟩
    · exact .inl ⟨c :: y, rfl, .other hc hy, hrest⟩
    · exact .inr ⟨.other hc hy, rfl⟩

theorem ends_splitLine (t : Text) : EndsLine (splitLine t).1 (splitLine t).2 := by
  fun_induction splitLine t with
  | case1 => exact ⟨by simp, .inr rfl⟩
  | case2 t => exact ⟨by simp, .inl rfl⟩
  | case3 c t hc inside rest heq ih =>
    rw [heq] at ih
    exact ⟨by simpa [Ne.symm hc] using ih.1, ih.2⟩

/-- A `*/` in a text with one more character begins there or comes later. -/
theorem blockEnd_infix_cons {c : Char} :
    ['*', '/'] <:+: c :: t ↔ (c = '*' ∧ t.head? = some '/') ∨ ['*', '/'] <:+: t := by
  rw [List.infix_cons_iff]
  cases t with
  | nil => simp
  | cons d t => simp [List.cons_prefix_cons, eq_comm]

theorem ends_splitBlock (t : Text) : EndsBlock (splitBlock t).1 (splitBlock t).2 := by
  fun_induction splitBlock t with
  | case1 => exact .inr ⟨by simp, rfl⟩
  | case2 c t hc =>
    obtain ⟨rfl, -⟩ := hc
    exact .inl ⟨[], rfl, by simp [blockEnd_infix_cons]⟩
  | case3 c t hc inside rest heq ih =>
    have ht : inside ++ rest = t := by simpa [heq] using splitBlock_append t
    rw [heq] at ih
    rcases ih with ⟨y, rfl, hy⟩ | ⟨hy, rfl⟩
    · refine .inl ⟨c :: y, rfl, ?_⟩
      rw [List.cons_append, blockEnd_infix_cons, not_or]
      refine ⟨fun h => hc ⟨h.1, ?_⟩, hy⟩
      cases y with
      | nil => simp at h
      | cons d y => simpa [← ht] using h.2
    · rw [List.append_nil] at ht
      refine .inr ⟨?_, rfl⟩
      rw [blockEnd_infix_cons, not_or, ht]
      exact ⟨hc, by rwa [← ht]⟩

theorem isCode_nil (rest : Text) : IsCode [] rest := by
  intro a b hab hb
  simp_all

theorem isCode_cons {c : Char} : IsCode (c :: x) rest ↔ opens (c :: (x ++ rest)) = false ∧ IsCode x rest := by
  constructor
  · intro h
    refine ⟨?_, fun a b hab => h (c :: a) b (by rw [hab]; rfl)⟩
    rw [Bool.eq_false_iff, ne_eq, opens_iff]
    rintro ⟨p, hp, hprefix⟩
    exact h [] (c :: x) rfl (by simp) p hp hprefix
  · rintro ⟨hopens, hx⟩ a b hab hb p hp hprefix
    cases a with
    | nil =>
      obtain rfl : c :: x = b := hab
      exact absurd (opens_iff.2 ⟨p, hp, hprefix⟩) (Bool.eq_false_iff.1 hopens)
    | cons d a => exact hx a b (List.cons.inj hab).2 hb p hp hprefix

/-- A run of code ends where something else begins, or with the text. -/
theorem isCode_splitCode (t : Text) : IsCode (splitCode t).1 (splitCode t).2 ∧
    ((splitCode t).2 = [] ∨ opens (splitCode t).2 = true) := by
  fun_induction splitCode t with
  | case1 => exact ⟨isCode_nil _, .inl rfl⟩
  | case2 c t hc => exact ⟨isCode_nil _, .inr hc⟩
  | case3 c t hc inside rest heq ih =>
    have ht : inside ++ rest = t := by simpa [heq] using splitCode_append t
    rw [heq] at ih
    exact ⟨isCode_cons.2 ⟨by rw [ht]; simpa using hc, ih.1⟩, ih.2⟩

/-! ## No other place will do -/

theorem splitQuoted_of_doubled (h : Doubled q x) (y : Text) :
    splitQuoted q (x ++ y) = (x ++ (splitQuoted q y).1, (splitQuoted q y).2) := by
  induction h with
  | nil => rfl
  | other hc _ ih => rw [List.cons_append, splitQuoted_cons_of_ne hc, ih]; rfl
  | pair _ ih => simp [splitQuoted, ih]

theorem splitQuoted_of_ends (h : EndsQuoted q x rest) : splitQuoted q (x ++ rest) = (x, rest) := by
  rcases h with ⟨inside, rfl, hdoubled, hrest⟩ | ⟨hdoubled, rfl⟩
  · have hlast : splitQuoted q (q :: rest) = ([q], rest) := by
      cases rest with
      | nil => simp [splitQuoted]
      | cons d rest =>
        have hd : d ≠ q := by simpa using hrest
        simp [splitQuoted, hd]
    rw [List.append_assoc, splitQuoted_of_doubled hdoubled, List.singleton_append, hlast]
  · rw [splitQuoted_of_doubled hdoubled]
    simp [splitQuoted]

theorem splitLine_of_ends (h : EndsLine x rest) : splitLine (x ++ rest) = (x, rest) := by
  obtain ⟨hline, hrest⟩ := h
  induction x with
  | nil =>
    cases rest with
    | nil => rfl
    | cons d rest =>
      have hd : d = '\n' := by simpa using hrest
      simp [splitLine, hd]
  | cons c x ih =>
    simp only [List.mem_cons, not_or] at hline
    rw [List.cons_append, splitLine, if_neg (Ne.symm hline.1), ih hline.2]

theorem splitBlock_of_ends (h : EndsBlock x rest) : splitBlock (x ++ rest) = (x, rest) := by
  rcases h with ⟨inside, rfl, hinside⟩ | ⟨hx, rfl⟩
  · induction inside with
    | nil => simp [splitBlock]
    | cons c inside ih =>
      rw [List.cons_append, blockEnd_infix_cons, not_or] at hinside
      have hc : ¬ (c = '*' ∧ (inside ++ ['*', '/'] ++ rest).head? = some '/') := by
        cases inside with
        | nil => simp
        | cons d inside => exact hinside.1
      rw [List.cons_append, List.cons_append, splitBlock, if_neg hc, ih hinside.2]
  · rw [List.append_nil]
    induction x with
    | nil => rfl
    | cons c x ih =>
      rw [blockEnd_infix_cons, not_or] at hx
      rw [splitBlock, if_neg hx.1, ih hx.2]

theorem splitCode_of_isCode (h : IsCode x rest) (hrest : rest = [] ∨ opens rest = true) :
    splitCode (x ++ rest) = (x, rest) := by
  induction x with
  | nil =>
    cases rest with
    | nil => rfl
    | cons d rest =>
      have hopens : opens (d :: rest) = true := by simpa using hrest
      simp [splitCode, hopens]
  | cons c x ih =>
    obtain ⟨hc, hx⟩ := isCode_cons.1 h
    rw [List.cons_append, splitCode, if_neg (by simp [hc]), ih hx]

/-! ## Whole segments -/

/-- The first segment of a text is one, and code ends in front of something else. -/
theorem formed_next (c : Char) (t : Text) :
    Formed (next c t).1.kind (next c t).1.text (next c t).2 ∧
      ((next c t).1.kind = .code → (next c t).2 = [] ∨ opens (next c t).2 = true) := by
  unfold next
  split_ifs with h1 h2 h3 h4
  · exact ⟨⟨_, by rw [h1], ends_splitQuoted _ _⟩, fun h => nomatch h⟩
  · exact ⟨⟨_, by rw [h2], ends_splitQuoted _ _⟩, fun h => nomatch h⟩
  · obtain ⟨rfl, ht⟩ := h3
    obtain ⟨u, rfl⟩ : ∃ u, t = '-' :: u := by cases t <;> simp_all
    exact ⟨.inl ⟨(splitLine u).1, by simp [splitLine], by simpa [splitLine] using ends_splitLine u⟩, fun h => nomatch h⟩
  · obtain ⟨rfl, ht⟩ := h4
    exact ⟨.inr ⟨_, rfl, ends_splitBlock _⟩, fun h => nomatch h⟩
  · have hopens : opens (c :: t) = false := by simp_all [opens]
    obtain ⟨hcode, hrest⟩ := isCode_splitCode t
    refine ⟨isCode_cons.2 ⟨?_, hcode⟩, fun _ => hrest⟩
    rwa [splitCode_append]

/-- A segment other than code begins with an opener. -/
theorem opens_of_formed {kind : SegmentKind} (h : Formed kind x rest) (hkind : kind ≠ .code) :
    opens (x ++ rest) = true := by
  cases kind with
  | code => exact absurd rfl hkind
  | literal => obtain ⟨y, rfl, -⟩ := h; rfl
  | identifier => obtain ⟨y, rfl, -⟩ := h; rfl
  | comment => rcases h with ⟨y, rfl, -⟩ | ⟨y, rfl, -⟩ <;> rfl

/-- The segments of a text whose first one is known. -/
theorem segments_of_formed {kind : SegmentKind} (hx : x ≠ []) (h : Formed kind x rest)
    (hrest : kind = .code → rest = [] ∨ opens rest = true) :
    segments (x ++ rest) = ⟨kind, x⟩ :: segments rest := by
  cases kind with
  | code =>
    obtain ⟨c, x, rfl⟩ := List.exists_cons_of_ne_nil hx
    obtain ⟨hc, hcode⟩ := isCode_cons.1 h
    rw [List.cons_append, segments, next_of_opens_eq_false hc, splitCode_of_isCode hcode (hrest rfl)]
  | literal =>
    obtain ⟨y, rfl, hy⟩ := h
    simp [segments, next, splitQuoted_of_ends hy]
  | identifier =>
    obtain ⟨y, rfl, hy⟩ := h
    simp [segments, next, splitQuoted_of_ends hy]
  | comment =>
    rcases h with ⟨y, rfl, hy⟩ | ⟨y, rfl, hy⟩
    · simp [segments, next, splitLine, splitLine_of_ends hy]
    · simp [segments, next, splitBlock_of_ends hy]

end Segment
open Segment

/-! ## Whole texts -/

section
variable {t before after : Text} {spans : List (SegmentKind × Span)}

/-- What is left of a text behind `before` is cut as the lexer cuts it. -/
theorem eq_spansFrom (ht : t = before ++ after)
    (hcontiguous : Contiguous (width before) (spans.map Prod.snd) (width t))
    (hnonempty : ∀ s ∈ spans, s.2.start < s.2.stop)
    (hapart : spans.IsChain fun s s' => s.1 = .code → s'.1 ≠ .code)
    (hformed : ∀ s ∈ spans, ∃ a x rest, t = a ++ (x ++ rest) ∧ width a = s.2.start ∧
      width (a ++ x) = s.2.stop ∧ Formed s.1 x rest) :
    spans = spansFrom (width before) (segments after) := by
  induction spans generalizing before after with
  | nil =>
    have hnil : after = [] := by
      by_contra hne
      have hpos := width_pos hne
      have hwidth : width before = width t := hcontiguous
      rw [ht, width_append] at hwidth
      omega
    simp [hnil, segments, spansFrom]
  | cons s spans ih =>
    obtain ⟨kind, start, stop⟩ := s
    obtain ⟨rfl, hcontiguous⟩ : start = width before ∧
      Contiguous stop (spans.map Prod.snd) (width t) := hcontiguous
    obtain ⟨a, x, rest, ht', ha, hstop, hx⟩ := hformed _ List.mem_cons_self
    obtain ⟨rfl, rfl⟩ := append_inj_of_width (ht'.symm.trans ht) ha
    replace hstop : width (a ++ x) = stop := hstop
    subst hstop
    have hne : x ≠ [] := by
      rintro rfl
      simpa using hnonempty _ List.mem_cons_self
    -- code is followed by something else, which begins with an opener
    have hrest : kind = .code → rest = [] ∨ opens rest = true := by
      intro hcode
      cases spans with
      | nil =>
        have hwidth : width (a ++ x) = width t := hcontiguous
        rw [ht, ← List.append_assoc, width_append (a ++ x)] at hwidth
        refine .inl (by_contra fun hrest => ?_)
        have := width_pos hrest
        omega
      | cons s' spans =>
        obtain ⟨a', x', rest', ht'', ha', -, hx'⟩ := hformed s' (by simp)
        have hstart : width a' = width (a ++ x) := ha'.trans hcontiguous.1
        obtain ⟨rfl, rfl⟩ := append_inj_of_width ((ht''.symm.trans ht).trans (List.append_assoc a x rest).symm) hstart
        exact .inr (opens_of_formed hx' ((List.isChain_cons_cons.1 hapart).1 hcode))
    have hih := ih (by rw [ht, List.append_assoc]) hcontiguous
      (fun s hs => hnonempty s (List.mem_cons_of_mem _ hs)) hapart.tail
      (fun s hs => hformed s (List.mem_cons_of_mem _ hs))
    rw [segments_of_formed hne hx hrest, spansFrom, hih, width_append]

theorem contiguous_spansFrom (i : Nat) (ss : List Segment) :
    Contiguous i ((spansFrom i ss).map Prod.snd) (i + width (ss.flatMap Segment.text)) := by
  induction ss generalizing i with
  | nil => rfl
  | cons s ss ih =>
    refine ⟨rfl, ?_⟩
    rw [List.flatMap_cons, width_append, ← Nat.add_assoc]
    exact ih _

theorem isChain_spansFrom (i : Nat) (t : Text) :
    (spansFrom i (segments t)).IsChain fun s s' => s.1 = .code → s'.1 ≠ .code := by
  fun_induction segments t generalizing i with
  | case1 => exact .nil
  | case2 c t ih =>
    rw [spansFrom]
    refine List.isChain_cons.2 ⟨fun s' hs' hcode => ?_, ih _⟩
    cases hrest : (Segment.next c t).2 with
    | nil => simp [hrest, segments, spansFrom] at hs'
    | cons d u =>
      have hopens : opens (d :: u) = true := by simpa [hrest] using (formed_next c t).2 hcode
      rw [hrest, segments, spansFrom] at hs'
      obtain rfl := Option.some.inj hs'
      exact kind_next_of_opens hopens

theorem formed_spansFrom (before t : Text) : ∀ s ∈ spansFrom (width before) (segments t),
    s.2.start < s.2.stop ∧ ∃ a x rest, before ++ t = a ++ (x ++ rest) ∧ width a = s.2.start ∧
      width (a ++ x) = s.2.stop ∧ Formed s.1 x rest := by
  fun_induction segments t generalizing before with
  | case1 => simp [spansFrom]
  | case2 c t ih =>
    intro s hs
    have hnext := next_append c t
    rw [spansFrom, List.mem_cons] at hs
    rcases hs with rfl | hs
    · have hpos := width_pos (next_text_ne_nil c t)
      refine ⟨by simpa using hpos, before, _, _, by rw [hnext], rfl, by simp, (formed_next c t).1⟩
    · rw [← width_append] at hs
      simpa [hnext] using ih _ s hs

theorem length_segments_le (t : Text) : (segments t).length ≤ t.length := by
  fun_induction segments t with
  | case1 => simp
  | case2 c t ih =>
    have hlt := next_rest_lt c t
    rw [List.length_cons]
    omega

theorem length_spansFrom (i : Nat) (ss : List Segment) : (spansFrom i ss).length = ss.length := by
  induction ss generalizing i with
  | nil => rfl
  | cons s ss ih => rw [spansFrom, List.length_cons, ih, List.length_cons]

/-- The segments of a text, and they only, are a lexing of it; and the lexer takes no more turns to find
them than the text has characters. -/
theorem isLexing_iff : (IsLexing t spans ↔ spans = segmentSpans t) ∧ (segmentSpans t).length ≤ t.length := by
  refine ⟨⟨fun h => ?_, ?_⟩, ?_⟩
  · exact eq_spansFrom (List.nil_append t).symm h.contiguous h.nonempty h.apart h.formed
  · rintro rfl
    have hformed : ∀ s ∈ segmentSpans t, _ := formed_spansFrom [] t
    refine ⟨?_, fun s hs => (hformed s hs).1, fun s hs => ?_, isChain_spansFrom 0 t, fun s hs => (hformed s hs).2⟩
    · have h := contiguous_spansFrom 0 (segments t)
      rwa [segments_flatten, Nat.zero_add] at h
    · obtain ⟨-, a, x, rest, ht, hstart, hstop, -⟩ := hformed s hs
      rw [List.nil_append] at ht
      exact ⟨⟨a, _, ht, hstart⟩, ⟨a ++ x, rest, by simp [ht], hstop⟩⟩
  · rw [segmentSpans, length_spansFrom]
    exact length_segments_le t

end

end DialectBridge
