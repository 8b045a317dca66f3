import DialectBridge.Regex.Property
/-!
# Classes of characters in regular expressions

A class such as `[a-z&&[^aeiou]]` is built from characters, ranges, named classes and nested
classes. `ClassExpr.set?` gives the characters that it stands for. A class that is not read as
Unicode may only hold ASCII characters.
-/
namespace DialectBridge.Regex

/-- The classes `\d`, `\s` and `\w`. -/
inductive Shorthand where
  | digit
  | blank
  | word
  deriving DecidableEq, Repr

inductive SetOperator where
  | intersection
  | difference
  | symmetricDifference
  deriving DecidableEq, Repr

/-- What stands in brackets. -/
inductive ClassExpr where
  | empty
  | range (lo hi : Char)
  | ascii (set : CharSet) (negated : Bool)
  | shorthand (s : Shorthand) (negated : Bool)
  | property (q : PropertyQuery) (negated : Bool)
  | bracket (negated : Bool) (e : ClassExpr)
  | union (first rest : ClassExpr)
  | operator (op : SetOperator) (a b : ClassExpr)
  deriving Repr

def asciiWord : CharSet := ⟨[(0x30, 0x39), (0x41, 0x5A), (0x5F, 0x5F), (0x61, 0x7A)]⟩

/-- The classes that have a name between `[:` and `:]`. -/
def asciiClasses : List (String × CharSet) := [
  ("alnum", ⟨[(0x30, 0x39), (0x41, 0x5A), (0x61, 0x7A)]⟩),
  ("alpha", ⟨[(0x41, 0x5A), (0x61, 0x7A)]⟩),
  ("ascii", ⟨[(0, 0x7F)]⟩),
  ("blank", ⟨[(0x9, 0x9), (0x20, 0x20)]⟩),
  ("cntrl", ⟨[(0, 0x1F), (0x7F, 0x7F)]⟩),
  ("digit", ⟨[(0x30, 0x39)]⟩),
  ("graph", ⟨[(0x21, 0x7E)]⟩),
  ("lower", ⟨[(0x61, 0x7A)]⟩),
  ("print", ⟨[(0x20, 0x7E)]⟩),
  ("punct", ⟨[(0x21, 0x2F), (0x3A, 0x40), (0x5B, 0x60), (0x7B, 0x7E)]⟩),
  ("space", ⟨[(0x9, 0xD), (0x20, 0x20)]⟩),
  ("upper", ⟨[(0x41, 0x5A)]⟩),
  ("word", asciiWord),
  ("xdigit", ⟨[(0x30, 0x39), (0x41, 0x46), (0x61, 0x66)]⟩)]

/-- How a class is read. -/
structure ClassMode where
  /-- Letters match in either case. -/
  caseless : Bool
  /-- The class is one of Unicode characters. -/
  unicode : Bool
  deriving DecidableEq, Repr

namespace ClassMode

/-- Both cases of the ASCII letters in a set. -/
def foldAscii (s : CharSet) : CharSet :=
  let letters := (List.range 26).flatMap fun k => [0x41 + k, 0x61 + k]
  let other (n : Nat) : Nat := if n < 0x60 then n + 32 else n - 32
  .ofRanges (s.ranges ++ (letters.filter s.ranges.has).map fun n => (other n, other n))

/-- A set with the other case of its letters, if case does not count. -/
def fold (mode : ClassMode) (s : CharSet) : CharSet :=
  if !mode.caseless then s else if mode.unicode then s.foldCase else foldAscii s

def allows (mode : ClassMode) (s : CharSet) : Bool :=
  mode.unicode || s.ranges.all fun r => r.2 ≤ 0x7F

/-- A set as it stands in brackets: both cases, and the rest of the characters if negated. -/
def close? (mode : ClassMode) (negated : Bool) (s : CharSet) : Option CharSet :=
  let s := mode.fold s
  let s := if negated then s.complement else s
  if mode.allows s then some s else none

end ClassMode

def Shorthand.set? (mode : ClassMode) (negated : Bool) (s : Shorthand) : Option CharSet :=
  let set := match s, mode.unicode with
    | digit, true => .digit
    | blank, true => .blank
    | word, true => .word
    | digit, false => ⟨[(0x30, 0x39)]⟩
    | blank, false => ⟨[(0x9, 0xD), (0x20, 0x20)]⟩
    | word, false => asciiWord
  let set := if negated then set.complement else set
  if mode.allows set then some set else none

/-- The characters of a property, which needs Unicode. -/
def PropertyQuery.close? (mode : ClassMode) (negated : Bool) (q : PropertyQuery) :
    Option CharSet := do
  if !mode.unicode then none
  mode.close? negated (← q.set?)

namespace ClassExpr

def set? (mode : ClassMode) : ClassExpr → Option CharSet
  | empty => some .empty
  | range lo hi =>
    let s : CharSet := ⟨[(lo.toNat, hi.toNat)]⟩
    if mode.allows s then some s else none
  | ascii s negated => mode.close? negated s
  | shorthand s negated => s.set? mode negated
  | property q negated => q.close? mode negated
  | bracket negated e => do mode.close? negated (← set? mode e)
  | union a b => do return .union (← set? mode a) (← set? mode b)
  | operator op a b => do
    let x := mode.fold (← set? mode a)
    let y := mode.fold (← set? mode b)
    return match op with
      | .intersection => .intersection x y
      | .difference => .difference x y
      | .symmetricDifference => .symmetricDifference x y

/-- How deep brackets, unions and operators stand in one another; `inUnion` says that the
expression is the rest of a union. -/
def height (inUnion : Bool) : ClassExpr → Nat
  | bracket _ e => 1 + height false e
  | union a b => (if inUnion then 0 else 1) + max (height false a) (height true b)
  | operator _ a b => 1 + max (height false a) (height false b)
  | _ => 0

end ClassExpr
end DialectBridge.Regex
