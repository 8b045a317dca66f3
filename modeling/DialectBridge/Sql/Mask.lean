import DialectBridge.Pattern.Replacement
import DialectBridge.Sql.Segment
/-!
# Masked queries

Patterns that look for code run over a copy of the query in which comments and the insides of
literals and quoted identifiers are blank. The copy has as many bytes as the query
(`width_mask`), so an offset found in it is an offset into the query.
-/
namespace DialectBridge

namespace Segment

/-- The segment with nothing but code left to see. A literal or an identifier keeps its first
character, and also its last one where this is the same quote. -/
def masked (s : Segment) : Text :=
  match s.kind with
  | .code => s.text
  | .comment => Text.spaces (Text.width s.text)
  | .literal | .identifier =>
    match s.text with
    | [] => []
    | quote :: inside =>
      -- the quote counts even if it is the second of a pair and closes nothing
      if inside.getLast? = some quote then
        quote :: Text.spaces (Text.width inside - quote.utf8Size) ++ [quote]
      else quote :: Text.spaces (Text.width inside)

end Segment

/-- The query with comments, and what stands between quotes, turned into blanks. -/
def mask (sql : Text) : Text := (segments sql).flatMap Segment.masked

/-- The query with each segment that satisfies `select` replaced. -/
def mapSegments (select : SegmentKind → Bool) (f : Text → Text) (sql : Text) : Text :=
  (segments sql).flatMap fun s => if select s.kind then f s.text else s.text

def mapCode (f : Text → Text) (sql : Text) : Text := mapSegments (· == .code) f sql

/-- The query with `f` applied to all but the comments. -/
def mapOutsideComments (f : Text → Text) (sql : Text) : Text :=
  mapSegments (· != .comment) f sql

def maskComments (sql : Text) : Text :=
  mapSegments (· == .comment) (fun t => Text.spaces (Text.width t)) sql

/-- The query with the matches of `p` inside each run of code replaced. -/
def replaceCode (p : Pattern) (replacement sql : Text) : Text :=
  mapCode (p.replaceAll replacement) sql

theorem Text.width_spaces (n : Nat) : Text.width (Text.spaces n) = n := by
  induction n with
  | zero => rfl
  | succ n ih =>
    have h : ' '.utf8Size = 1 := by decide
    simp only [Text.spaces] at ih
    simp [Text.spaces, List.replicate_succ, ih, h, Nat.add_comm]

theorem Segment.width_masked (s : Segment) : Text.width s.masked = Text.width s.text := by
  obtain ⟨kind, text⟩ := s
  cases kind
  · rfl
  case comment => simp [masked, Text.width_spaces]
  all_goals
    cases text with
    | nil => rfl
    | cons quote inside =>
      simp only [masked]
      split
      · rename_i h
        obtain ⟨front, rfl⟩ := List.getLast?_eq_some_iff.1 h
        simp [Text.width_spaces]
      · simp [Text.width_spaces]

theorem width_flatMap_masked (ss : List Segment) :
    Text.width (ss.flatMap Segment.masked) = Text.width (ss.flatMap Segment.text) := by
  induction ss with
  | nil => rfl
  | cons s ss ih => simp [ih, s.width_masked]

/-- A masked query has as many bytes as the query. -/
theorem width_mask (sql : Text) : Text.width (mask sql) = Text.width sql := by
  rw [mask, width_flatMap_masked, segments_flatten]

end DialectBridge
