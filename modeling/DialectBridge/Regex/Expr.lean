import DialectBridge.Regex.Class
import DialectBridge.Regex.Node
/-!
# Regular expressions as they are written

`Expr` is a regular expression as a user writes it, and `Expr.node?` the simplified expression
that it stands for. Flags change what follows them up to the end of their group. There is none
for a property that does not exist, or for a class that could match half a character.
-/
namespace DialectBridge.Regex

inductive Flag where
  | caseInsensitive
  | multiLine
  | dotMatchesNewLine
  | swapGreed
  | unicode
  | crlf
  | ignoreWhitespace
  deriving DecidableEq, Repr

/-- The flags that are set and the flags that are cleared. -/
structure FlagChange where
  on : List Flag
  off : List Flag
  deriving DecidableEq, Repr

/-- A condition on a place, as it is written. -/
inductive Look where
  | lineStart
  | lineEnd
  | textStart
  | textEnd
  | wordEdge
  | noWordEdge
  | wordStart
  | wordEnd
  | wordStartHalf
  | wordEndHalf
  deriving DecidableEq, Repr

/-- A regular expression as it is written. -/
inductive Expr where
  | empty
  | flags (change : FlagChange)
  /-- A character; `byte` if it is written as two hexadecimal digits. -/
  | char (c : Char) (byte : Bool)
  | dot
  | look (l : Look)
  | shorthand (s : Shorthand) (negated : Bool)
  | property (q : PropertyQuery) (negated : Bool)
  | bracket (negated : Bool) (e : ClassExpr)
  | rep (least : Nat) (most : Option Nat) (greedy : Bool) (e : Expr)
  | capture (index : Nat) (e : Expr)
  | within (change : FlagChange) (e : Expr)
  | cat (first rest : Expr)
  | alt (first rest : Expr)
  deriving Repr

abbrev Flags := List Flag

def FlagChange.apply (change : FlagChange) (flags : Flags) : Flags :=
  change.on ++ flags.filter fun f => !change.off.contains f

/-- How classes are read under the given flags. -/
def Flags.classMode (flags : Flags) : ClassMode :=
  ⟨flags.contains .caseInsensitive, flags.contains .unicode⟩

def Flags.word (flags : Flags) : CharSet :=
  if flags.contains .unicode then .word else asciiWord

namespace Look

/-- The condition that is meant under the given flags. -/
def assertion (flags : Flags) : Look → Assertion
  | lineStart =>
    if !flags.contains .multiLine then .textStart
    else if flags.contains .crlf then .lineStartCrlf else .lineStart
  | lineEnd =>
    if !flags.contains .multiLine then .textEnd
    else if flags.contains .crlf then .lineEndCrlf else .lineEnd
  | textStart => .textStart
  | textEnd => .textEnd
  | wordEdge => .wordEdge flags.word
  | noWordEdge => .noWordEdge flags.word
  | wordStart => .wordStart flags.word
  | wordEnd => .wordEnd flags.word
  | wordStartHalf => .wordStartHalf flags.word
  | wordEndHalf => .wordEndHalf flags.word

end Look

namespace Expr

/-- The nodes that an expression stands for under the given flags, and the flags after it. The
rest of a sequence (`inCat`) and the rest of some alternatives (`inAlt`) are lists of nodes; all
else is one node. -/
def nodes? (inCat inAlt : Bool) : Flags → Expr → Option (List Node × Flags)
  | fs, empty => some ([.empty], fs)
  | fs, Expr.flags change => some ([.empty], change.apply fs)
  | fs, char c byte =>
    if byte && !fs.contains .unicode && 0x7F < c.toNat then none
    else if !fs.contains .caseInsensitive then some ([.literal [c]], fs)
    else if fs.contains .unicode then some ([.ofSet (.caseless c) false], fs)
    else some ([.ofSet (ClassMode.foldAscii (.single c)) true], fs)
  | fs, dot =>
    if !fs.contains .unicode then none
    else
      let set : CharSet :=
        if fs.contains .dotMatchesNewLine then .all
        else if fs.contains .crlf then .complement ⟨[(0xA, 0xA), (0xD, 0xD)]⟩
        else .complement ⟨[(0xA, 0xA)]⟩
      some ([.ofSet set false], fs)
  | fs, look l => some ([.check (l.assertion fs)], fs)
  | fs, shorthand s negated => do
    return ([.ofSet (← s.set? fs.classMode negated) !fs.contains .unicode], fs)
  | fs, property q negated => do
    return ([.ofSet (← q.close? fs.classMode negated) false], fs)
  | fs, bracket negated e => do
    let set ← fs.classMode.close? negated (← e.set? fs.classMode)
    return ([.ofSet set !fs.contains .unicode], fs)
  | fs, rep least most greedy e => do
    let (ns, after) ← nodes? false false fs e
    return ([.repeated least most (greedy != fs.contains .swapGreed) (.concat ns)], after)
  | fs, capture i e => do
    let (ns, _) ← nodes? false false fs e
    return ([.capture i (.concat ns)], fs)
  | fs, within change e => do
    let (ns, _) ← nodes? false false (change.apply fs) e
    return (ns, fs)
  | fs, cat a b => do
    let (first, middle) ← nodes? false false fs a
    let (rest, after) ← nodes? true false middle b
    return (if inCat then first ++ rest else [.concat (first ++ rest)], after)
  | fs, alt a b => do
    let (first, middle) ← nodes? false false fs a
    let (rest, after) ← nodes? false true middle b
    return (if inAlt then first ++ rest else [.choice (first ++ rest)], after)

def node? (flags : Flags) (e : Expr) : Option Node :=
  (e.nodes? false false flags).map fun (ns, _) => .concat ns

/-- How deep groups, repetitions, classes, sequences and alternatives stand in one another. The
rest of a sequence (`inCat`) or of alternatives (`inAlt`) stands as deep as its beginning. -/
def height (inCat inAlt : Bool) : Expr → Nat
  | bracket _ e => 1 + e.height false
  | rep _ _ _ e => 1 + height false false e
  | capture _ e => 1 + height false false e
  | within _ e => 1 + height false false e
  | cat a b => (if inCat then 0 else 1) + max (height false false a) (height true false b)
  | alt a b => (if inAlt then 0 else 1) + max (height false false a) (height false true b)
  | _ => 0

def heightLimit : Nat := 250

end Expr
end DialectBridge.Regex
