import DialectBridge.Text.Basic
/-!
# Code, literals, quoted identifiers and comments

A query is cut into segments without parsing it: string literals `'...'`, quoted identifiers
`"..."`, comments `-- ...` and `/* ... */`, and the code between them. A quote that is written
twice does not end its segment; a segment that is never closed runs to the end of the text.
`segments_flatten` says that the segments, one after the other, are the query.
-/
namespace DialectBridge

inductive SegmentKind where
  | code
  | literal
  | identifier
  | comment
  deriving DecidableEq, Repr

/-- A run of a query and what it is. -/
structure Segment where
  kind : SegmentKind
  text : Text
  deriving DecidableEq, Repr

namespace Segment

/-- Cuts after the first `quote` that is not written twice; the opening quote stands before
the text. -/
def splitQuoted (quote : Char) : Text → Text × Text
  | [] => ([], [])
  | c :: t =>
    if c = quote then
      match t with
      | [] => ([c], [])
      | d :: u =>
        if d = quote then
          let (inside, rest) := splitQuoted quote u
          (c :: d :: inside, rest)
        else ([c], d :: u)
    else
      let (inside, rest) := splitQuoted quote t
      (c :: inside, rest)

def splitLine : Text → Text × Text
  | [] => ([], [])
  | c :: t =>
    if c = '\n' then ([], c :: t)
    else
      let (inside, rest) := splitLine t
      (c :: inside, rest)

/-- Cuts after the first `*/`. -/
def splitBlock : Text → Text × Text
  | [] => ([], [])
  | c :: t =>
    if c = '*' ∧ t.head? = some '/' then ([c, '/'], t.tail)
    else
      let (inside, rest) := splitBlock t
      (c :: inside, rest)

/-- Whether a literal, an identifier or a comment begins here. -/
def opens : Text → Bool
  | [] => false
  | c :: t =>
    c == '\'' || c == '"' || (c == '-' && t.head? == some '-') ||
      (c == '/' && t.head? == some '*')

/-- Cuts before the first place where code ends. -/
def splitCode : Text → Text × Text
  | [] => ([], [])
  | c :: t =>
    if opens (c :: t) then ([], c :: t)
    else
      let (inside, rest) := splitCode t
      (c :: inside, rest)

/-- The segment that begins with `c`, and the text after it. -/
def next (c : Char) (t : Text) : Segment × Text :=
  if c = '\'' then
    let (inside, rest) := splitQuoted '\'' t
    (⟨.literal, c :: inside⟩, rest)
  else if c = '"' then
    let (inside, rest) := splitQuoted '"' t
    (⟨.identifier, c :: inside⟩, rest)
  else if c = '-' ∧ t.head? = some '-' then
    let (inside, rest) := splitLine t
    (⟨.comment, c :: inside⟩, rest)
  else if c = '/' ∧ t.head? = some '*' then
    let (inside, rest) := splitBlock t.tail
    (⟨.comment, c :: '*' :: inside⟩, rest)
  else
    let (inside, rest) := splitCode t
    (⟨.code, c :: inside⟩, rest)

/-! Nothing is lost by a cut. -/

theorem splitQuoted_append (quote : Char) (t : Text) :
    (splitQuoted quote t).1 ++ (splitQuoted quote t).2 = t := by
  fun_induction splitQuoted quote t <;> simp_all

theorem splitLine_append (t : Text) : (splitLine t).1 ++ (splitLine t).2 = t := by
  fun_induction splitLine t <;> simp_all

theorem splitBlock_append (t : Text) : (splitBlock t).1 ++ (splitBlock t).2 = t := by
  fun_induction splitBlock t with
  | case1 => rfl
  | case2 c t h =>
    obtain ⟨rfl, h⟩ := h
    cases t <;> simp_all
  | case3 => simp_all

theorem splitCode_append (t : Text) : (splitCode t).1 ++ (splitCode t).2 = t := by
  fun_induction splitCode t <;> simp_all

theorem next_append (c : Char) (t : Text) : (next c t).1.text ++ (next c t).2 = c :: t := by
  unfold next
  split
  · simp [splitQuoted_append]
  split
  · simp [splitQuoted_append]
  split
  · simp [splitLine_append]
  split
  · rename_i h
    obtain ⟨rfl, h⟩ := h
    cases t <;> simp_all [splitBlock_append]
  · simp [splitCode_append]

theorem next_text_ne_nil (c : Char) (t : Text) : (next c t).1.text ≠ [] := by
  unfold next
  split
  · simp
  split
  · simp
  split
  · simp
  split <;> simp

theorem next_rest_lt (c : Char) (t : Text) : (next c t).2.length < (c :: t).length := by
  have h := congrArg List.length (next_append c t)
  have := List.length_pos_iff.2 (next_text_ne_nil c t)
  simp only [List.length_append] at h
  omega

end Segment

def segments : Text → List Segment
  | [] => []
  | c :: t => (Segment.next c t).1 :: segments (Segment.next c t).2
termination_by t => t.length
decreasing_by exact Segment.next_rest_lt c t

/-- The segments, one after the other, are the query. -/
theorem segments_flatten (t : Text) : (segments t).flatMap Segment.text = t := by
  fun_induction segments t with
  | case1 => rfl
  | case2 c t ih => simp [ih, Segment.next_append]

/-- The kinds and bytes of segments of which the first starts at offset `i`. -/
def spansFrom : Nat → List Segment → List (SegmentKind × Span)
  | _, [] => []
  | i, s :: more =>
    (s.kind, ⟨i, i + Text.width s.text⟩) :: spansFrom (i + Text.width s.text) more

/-- The kind and the bytes of each segment of a query. -/
def segmentSpans (t : Text) : List (SegmentKind × Span) := spansFrom 0 (segments t)

end DialectBridge
