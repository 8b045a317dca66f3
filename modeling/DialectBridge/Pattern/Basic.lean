import DialectBridge.Pattern.CharSet
/-!
# Patterns and the order in which they match

A pattern describes texts. From a place in a text it may match in several ways, and these are
tried in order: the left branch of an alternative before the right one, one more round of a
greedy repetition before its end. `Pattern.run` hands each way to a continuation and returns
the first answer that the continuation gives.
-/
namespace DialectBridge

/-- What stands to the left of a place, nearest character first, and how many bytes it has. -/
structure Passed where
  text : Text
  width : Nat
  width_eq : width = Text.width text
  deriving DecidableEq, Repr

namespace Passed

def nil : Passed := ⟨[], 0, rfl⟩

/-- The character `c` after all that is passed. -/
def add (c : Char) (p : Passed) : Passed :=
  ⟨c :: p.text, c.utf8Size + p.width, by simp [p.width_eq]⟩

end Passed

/-- A place in a text: what stands to its left and to its right. -/
structure Cursor where
  left : Passed
  right : Text
  deriving DecidableEq, Repr

namespace Cursor

def atStart (t : Text) : Cursor := ⟨.nil, t⟩

def offset (c : Cursor) : Nat := c.left.width

/-- The text between this place and a later one of the same text. -/
def upTo (c d : Cursor) : Text := ((Text.upTo? c.right (d.offset - c.offset)).getD [])

end Cursor

/-- A condition on a place that takes no text. Word conditions name their word characters. -/
inductive Assertion where
  | textStart
  | textEnd
  | lineStart
  | lineEnd
  | lineStartCrlf
  | lineEndCrlf
  | wordEdge (word : CharSet)
  | noWordEdge (word : CharSet)
  | wordStart (word : CharSet)
  | wordEnd (word : CharSet)
  | wordStartHalf (word : CharSet)
  | wordEndHalf (word : CharSet)
  deriving DecidableEq, Repr

namespace Assertion

def next (s : CharSet) : Text → Bool
  | [] => false
  | c :: _ => s.contains c

def holds (a : Assertion) (c : Cursor) : Bool :=
  let left := c.left.text
  match a with
  | textStart => left.isEmpty
  | textEnd => c.right.isEmpty
  | lineStart => left.isEmpty || next (.single '\n') left
  | lineEnd => c.right.isEmpty || next (.single '\n') c.right
  | lineStartCrlf =>
    left.isEmpty || next (.single '\n') left ||
      (next (.single '\r') left && !next (.single '\n') c.right)
  | lineEndCrlf =>
    c.right.isEmpty || next (.single '\r') c.right ||
      (next (.single '\n') c.right && !next (.single '\r') left)
  | wordEdge w => next w left != next w c.right
  | noWordEdge w => next w left == next w c.right
  | wordStart w => !next w left && next w c.right
  | wordEnd w => next w left && !next w c.right
  | wordStartHalf w => !next w left
  | wordEndHalf w => !next w c.right

end Assertion

/-- A description of texts. -/
inductive Pattern where
  /-- The empty text. -/
  | empty
  /-- One character of the set. -/
  | one (s : CharSet)
  /-- The empty text at a place where the condition holds. -/
  | check (a : Assertion)
  /-- `p`, then `q`. -/
  | seq (p q : Pattern)
  /-- `p`, or else `q`. -/
  | alt (p q : Pattern)
  /-- Any number of rounds of `p`, which has to take some text in each: as many as possible if
  `greedy`, otherwise as few as possible. -/
  | star (greedy : Bool) (p : Pattern)
  /-- `p`, remembered as the group `i`. -/
  | group (i : Nat) (p : Pattern)
  deriving Repr

/-- The groups matched so far, latest first: number, start and end. -/
abbrev Groups := List (Nat × Cursor × Cursor)

namespace Pattern

/-- Rounds of `body`, at most one for each character of `fuel`, and then `k`. -/
def rounds {α : Type} (greedy : Bool)
    (body : (Cursor → Groups → Option α) → Cursor → Groups → Option α)
    (k : Cursor → Groups → Option α) : Text → Cursor → Groups → Option α
  | [], c, g => k c g
  | _ :: fuel, c, g =>
    let again := fun (_ : Unit) => body (fun c' g' => rounds greedy body k fuel c' g') c g
    if greedy then (again ()).orElse (fun _ => k c g) else (k c g).orElse again

/-- The first answer of `k` over the ways in which a pattern matches from a place. -/
def run {α : Type} : Pattern → (Cursor → Groups → Option α) → Cursor → Groups → Option α
  | empty, k, c, g => k c g
  | one s, k, c, g =>
    match c.right with
    | [] => none
    | x :: r => if s.contains x then k ⟨c.left.add x, r⟩ g else none
  | check a, k, c, g => if a.holds c then k c g else none
  | seq p q, k, c, g => run p (fun c' g' => run q k c' g') c g
  | alt p q, k, c, g => (run p k c g).orElse fun _ => run q k c g
  | star greedy p, k, c, g => rounds greedy (fun k' c' g' => run p k' c' g') k c.right c g
  | group i p, k, c, g => run p (fun c' g' => k c' ((i, c, c') :: g')) c g

/-! ## Building patterns -/

instance : Append Pattern := ⟨seq⟩

def sym (c : Char) : Pattern := one (.single c)

/-- The letters of `t` in either case, and its other characters as they are. -/
def word : Text → Pattern
  | [] => empty
  | [c] => one (.caseless c)
  | c :: t => seq (one (.caseless c)) (word t)

/-- A string constant in a pattern stands for its letters in either case. -/
instance : Coe String Pattern := ⟨fun s => word s.toList⟩

/-- The first of the patterns that matches; nothing if there is none. -/
def oneOf : List Pattern → Pattern
  | [] => one .empty
  | [p] => p
  | p :: ps => alt p (oneOf ps)

/-- `p` or the empty text, `p` first. -/
def opt (p : Pattern) : Pattern := alt p empty

/-- `p` as often as possible; every match of `p` takes some text. -/
def many (p : Pattern) : Pattern := star true p

/-- `p` once or more, as often as possible. -/
def many1 (p : Pattern) : Pattern := seq p (star true p)

def blanks : Pattern := many (one .blank)

/-- Some white space. -/
def blanks1 : Pattern := many1 (one .blank)

def digits1 : Pattern := many1 (one .digit)

def edge : Pattern := check (.wordEdge .word)

def textStart : Pattern := check .textStart

def textEnd : Pattern := check .textEnd

/-- Any character but a line feed. -/
def lineChar : Pattern := one ⟨[(0, 9), (11, 0x10FFFF)]⟩

def anyChar : Pattern := one .all

/-- A character that is not white space. -/
def nonBlank : Pattern := one (CharSet.complement .blank)

/-- A word of its own. -/
def keyword (t : Text) : Pattern := edge ++ word t ++ edge

end Pattern
end DialectBridge
