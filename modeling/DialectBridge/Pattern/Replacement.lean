import DialectBridge.Pattern.Search
/-!
# Replacing matches

A replacement is text with references to groups: `$1` and `${1}` by number, `$name` and
`${name}` by name, and `$$` for a dollar sign. A reference without braces takes all the ASCII
letters, digits and underscores that follow. `parts_of_noDollar` says that a text without a
dollar sign stands for itself.
-/
namespace DialectBridge

/-- A piece of a replacement. -/
inductive ReplacementPart where
  /-- A character as it is. -/
  | char (c : Char)
  /-- The text of the group with a number. -/
  | number (i : Nat)
  /-- The text of the group with a name. -/
  | name (t : Text)
  deriving DecidableEq, Repr

namespace ReplacementPart

/-- What the text between the braces, or after the dollar sign, refers to. -/
def reference (t : Text) : ReplacementPart :=
  match Text.readNat? 10 (Nat.pow 2 32) t with
  | some i => number i
  | none => name t

def isReferenceChar (c : Char) : Bool := c.isAlphanum || c == '_'

/-- The pieces of a replacement; `skip` characters belong to a reference already read. -/
def partsFrom : Nat → Text → List ReplacementPart
  | _, [] => []
  | skip + 1, _ :: t => partsFrom skip t
  | 0, c :: t =>
    if c = '$' then
      match t with
      | '$' :: _ => char '$' :: partsFrom 1 t
      | '{' :: r =>
        if r.contains '}' then
          let inside := r.takeWhile (· != '}')
          reference inside :: partsFrom (inside.length + 2) t
        else char '$' :: partsFrom 0 t
      | _ =>
        let inside := t.takeWhile isReferenceChar
        if inside.isEmpty then char '$' :: partsFrom 0 t
        else reference inside :: partsFrom inside.length t
    else char c :: partsFrom 0 t

def parts (t : Text) : List ReplacementPart := partsFrom 0 t

theorem parts_of_noDollar {t : Text} (h : '$' ∉ t) : parts t = t.map char := by
  unfold parts
  induction t with
  | nil => rfl
  | cons c t ih =>
    simp only [List.mem_cons, not_or] at h
    simp [partsFrom, Ne.symm h.1, ih h.2]

/-- The text of a piece for a match, `names` giving the numbers of the named groups. -/
def expand (names : List (Text × Nat)) (m : Match) : ReplacementPart → Text
  | char c => [c]
  | number i => m.groupD i
  | name t => match names.lookup t with
    | some i => m.groupD i
    | none => []

end ReplacementPart

namespace Pattern

/-- The text from `c` on with each of the given matches, which follow one another, replaced. -/
def replaceMatches (f : Match → Text) : Cursor → List Match → Text
  | c, [] => c.right
  | c, m :: ms => c.upTo m.first ++ f m ++ replaceMatches f m.last ms

/-- `t` with every match of `p` replaced. -/
def replaceAllBy (p : Pattern) (f : Match → Text) (t : Text) : Text :=
  replaceMatches f (.atStart t) (p.findAll t)

def replaceFirstBy (p : Pattern) (f : Match → Text) (t : Text) : Text :=
  replaceMatches f (.atStart t) (p.find? t).toList

/-- The text that a replacement stands for at a match. -/
def expandAt (names : List (Text × Nat)) (replacement : Text) (m : Match) : Text :=
  (ReplacementPart.parts replacement).flatMap (·.expand names m)

def replaceAll (p : Pattern) (replacement t : Text) : Text :=
  p.replaceAllBy (expandAt [] replacement) t

end Pattern
end DialectBridge
