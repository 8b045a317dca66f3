import DialectBridge.Sql.Mask
/-!
# Parentheses and query blocks

These functions read a masked query, where every parenthesis left is code. A query block is
what stands between a parenthesis and its partner, or the whole query; offsets say where.
-/
namespace DialectBridge

/-- A text as seen through parentheses: how many more of them it opens than closes. -/
def depth (t : Text) : Int := t.count '(' - t.count ')'

namespace Paren

/-- The offset of the parenthesis that closes the last of `n` open ones. A closing parenthesis
without a partner counts as the last one. -/
def closing? : Nat → List (Nat × Char) → Option Nat
  | _, [] => none
  | n, (i, c) :: rest =>
    if c = '(' then closing? (n + 1) rest
    else if c = ')' then if n ≤ 1 then some i else closing? (n - 1) rest
    else closing? n rest

/-- The offset of the first parenthesis that closes what is not opened here, `n` being open;
`stop` if there is none. -/
def unmatchedClose (stop : Nat) : Nat → List (Nat × Char) → Nat
  | _, [] => stop
  | n, (i, c) :: rest =>
    if c = '(' then unmatchedClose stop (n + 1) rest
    else if c = ')' then if n = 0 then i else unmatchedClose stop (n - 1) rest
    else unmatchedClose stop n rest

/-- The offset just past the first parenthesis, read from right to left, that opens what is not
closed here, `n` being closed; 0 if there is none. -/
def unmatchedOpen : Nat → List (Nat × Char) → Nat
  | _, [] => 0
  | n, (i, c) :: rest =>
    if c = ')' then unmatchedOpen (n + 1) rest
    else if c = '(' then if n = 0 then i + 1 else unmatchedOpen (n - 1) rest
    else unmatchedOpen n rest

def commas : Nat → List (Nat × Char) → List Nat
  | _, [] => []
  | n, (i, c) :: rest =>
    if c = '(' then commas (n + 1) rest
    else if c = ')' then commas (n - 1) rest
    else if c = ',' ∧ n = 0 then i :: commas n rest
    else commas n rest

end Paren

def matchingParen? (masked : Text) (opening : Nat) : Option Nat :=
  Paren.closing? 0 ((Text.indexed masked).dropWhile (·.1 < opening))

/-- The start of the query block around `pos`: just past the nearest `(` that is not closed
before `pos`, or 0. -/
def scopeStart (masked : Text) (pos : Nat) : Nat :=
  Paren.unmatchedOpen 0 ((Text.indexed masked).takeWhile (·.1 < pos)).reverse

/-- The end of the query block around `pos`: the nearest `)` that is not opened after `pos`, or
the end of the text. -/
def scopeEnd (masked : Text) (pos : Nat) : Nat :=
  Paren.unmatchedClose (Text.width masked) 0 ((Text.indexed masked).dropWhile (·.1 < pos))

/-- How many more parentheses are opened than closed from `start` up to `stop`. -/
def depthBetween? (masked : Text) (start stop : Nat) : Option Int :=
  (Text.slice? masked start stop).map depth

/-- The matches of `p` from `start` up to `stop`, read as a text of its own, that are not inside
parentheses opened there. -/
def depthZeroMatches? (masked : Text) (start stop : Nat) (p : Pattern) : Option (List Span) :=
  (Text.slice? masked start stop).map fun block =>
    ((p.findAll block).filter fun m => depth m.first.left.text == 0).map fun m =>
      ⟨start + m.start, start + m.stop⟩

namespace Paren
open Pattern

def flat : Pattern := many (one (.complement ⟨[(0x28, 0x29)]⟩))

def selectHead : Pattern :=
  edge ++ "SELECT" ++ edge ++ opt (blanks1 ++ oneOf ["DISTINCT", "ALL"] ++ edge)

end Paren

/-- The offset just past the heading of the query block around `pos`, if it has one. -/
def enclosingSelect? (masked : Text) (pos : Nat) : Option (Option Nat) := do
  let heads ← depthZeroMatches? masked (scopeStart masked pos) pos Paren.selectHead
  return heads.getLast?.map Span.stop

/-- The pieces of `sql` between the given offsets, from `start` to `stop`, trimmed. -/
def cutAt? (sql : Text) (start stop : Nat) : List Nat → Option (List Text)
  | [] => do return [Text.trim (← Text.slice? sql start stop)]
  | i :: more => do
    let piece ← Text.slice? sql start i
    return Text.trim piece :: (← cutAt? sql (i + 1) stop more)

/-- The arguments between the parentheses at `opening` and `closing`, trimmed. Blank
parentheses hold no argument. -/
def splitArgs? (sql masked : Text) (opening closing : Nat) : Option (List Text) := do
  let inside ← Text.slice? masked (opening + 1) closing
  let commas := Paren.commas 0 (Text.indexedFrom (opening + 1) inside)
  let args ← cutAt? sql (opening + 1) closing commas
  return if args = [[]] then [] else args

end DialectBridge
