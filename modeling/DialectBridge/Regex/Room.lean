import DialectBridge.Regex.ByteSequence
import DialectBridge.Regex.Node
/-!
# The room that an expression takes

An expression is refused if it is too large. Its size is that of two automata that read bytes:
one that runs forward and notes the groups, and one that runs backward. Counted repetitions are
written out in them, and classes become byte sequences whose ends (or beginnings) are shared as
far as a table of limited size remembers them. `Node.fits` decides, without keeping the
automata, whether both stay below the limit.
-/
namespace DialectBridge.Regex

/-- An automaton so far: the number of its states, and the bytes of the lists that its states
hold besides. -/
structure Built where
  states : Nat
  extra : Nat
  deriving DecidableEq, Repr

namespace Built

def stateSize : Nat := 32

/-- The bytes of the number of a state in a list. -/
def linkSize : Nat := 4

def rangeSize : Nat := 8

def limit : Nat := 10 * Nat.pow 2 20

/-- Some more states, and bytes of lists, if the limit allows them. -/
def grow? (states extra : Nat) (b : Built) : Option Built :=
  let b : Built := ⟨b.states + states, b.extra + extra⟩
  if limit < stateSize * b.states + b.extra then none else some b

/-- A link to a state, for which only a state that holds a list of links needs room. -/
def link? (fromList : Bool) (b : Built) : Option Built :=
  if fromList then b.grow? 0 linkSize else some b

end Built

/-! ## Classes, forward -/

structure Step where
  lo : Nat
  hi : Nat
  target : Nat
  deriving DecidableEq, Repr

/-- A state whose last range still lacks its target. The steps before it come last one first. -/
structure OpenState where
  steps : List Step
  last : Nat × Nat
  deriving Repr

/-- The hash of a list of numbers with 64 bits. -/
def hashOf (ns : List Nat) : UInt64 :=
  ns.foldl (fun h n => (h ^^^ n.toUInt64) * 1099511628211) 14695981039346656037

/-- States that are known by what they hold, in a table of limited size. A new one takes the
place of the one before it that has the same place. -/
abbrev Known (α : Type) := Array (Option (α × Nat))

/-- An automaton that is being built, with the states that are known in it. -/
structure Sharing (α : Type) where
  built : Built
  known : Known α

namespace Sharing

/-- The state for `key`, if it is the known one at a place. -/
def known? {α : Type} [DecidableEq α] (key : α) (place : Nat) (known : Known α) : Option Nat :=
  match known[place]? with
  | some (some (k, n)) => if k = key then some n else none
  | _ => none

/-- The state for `key`: the known one, or else a new one with `extra` bytes. -/
def state? {α : Type} [DecidableEq α] (key : α) (numbers : List Nat) (extra : Nat) :
    Sharing α → Option (Nat × Sharing α)
  | ⟨built, known⟩ =>
    let place := (hashOf numbers).toNat % known.size
    match known? key place known with
    | some n => some (n, ⟨built, known⟩)
    | none =>
      match built.grow? 1 extra with
      | some b => some (built.states, ⟨b, known.setIfInBounds place (some (key, built.states))⟩)
      | none => none

def steps? (steps : List Step) (s : Sharing (List Step)) : Option (Nat × Sharing (List Step)) :=
  s.state? steps (steps.flatMap fun t => [t.lo, t.hi, t.target]) (Built.rangeSize * steps.length)

/-- Makes states of open ones, each of which leads to the one behind it and the last one to
`target`. -/
def close? (target : Nat) : List OpenState → Sharing (List Step) →
    Option (Nat × Sharing (List Step))
  | [], s => some (target, s)
  | o :: behind, s => do
    let (next, s) ← close? target behind s
    s.steps? (⟨o.last.1, o.last.2, next⟩ :: o.steps).reverse

def add? (target : Nat) : List OpenState → ByteSequence → Sharing (List Step) →
    Option (List OpenState × Sharing (List Step))
  | o :: behind, r :: rs, s =>
    if o.last = r then do
      let (behind, s) ← add? target behind rs s
      return (o :: behind, s)
    else do
      let (next, s) ← close? target behind s
      return (⟨⟨o.last.1, o.last.2, next⟩ :: o.steps, r⟩ :: rs.map (⟨[], ·⟩), s)
  | _, rs, s => some (rs.map (⟨[], ·⟩), s)

def addAll? (target : Nat) : List ByteSequence → List OpenState → Sharing (List Step) →
    Option (List OpenState × Sharing (List Step))
  | [], states, s => some (states, s)
  | q :: qs, states, s => do
    let (states, s) ← add? target states q s
    addAll? target qs states s

end Sharing

/-- Adds a class of single bytes. -/
def Built.addBytes? (ranges : Nat) (b : Built) : Option Built :=
  b.grow? 2 (rangeSize * ranges)

def Built.addForward? (qs : List ByteSequence) (b : Built) : Option Built := do
  let target := b.states
  let b ← b.grow? 1 0
  let (states, s) ← Sharing.addAll? target qs [] ⟨b, .replicate 10000 none⟩
  return (← Sharing.close? target states s).2.built

/-! ## Classes, backward -/

/-- Adds a sequence of bytes, each of which leads to the state of the one before it and the first
one to `target`. -/
def Sharing.addBackward? (target : Nat) : ByteSequence → Sharing Step → Option (Sharing Step)
  | [], s => do return ⟨← s.built.link? true, s.known⟩
  | (lo, hi) :: more, s => do
    let (n, s) ← s.state? ⟨lo, hi, target⟩ [target, lo, hi] 0
    addBackward? n more s

def Sharing.addAllBackward? (target : Nat) : List ByteSequence → Sharing Step →
    Option (Sharing Step)
  | [], s => some s
  | q :: qs, s => do addAllBackward? target qs (← s.addBackward? target q)

/-- Adds the sequences of a class to the backward automaton. -/
def Built.addBackward? (qs : List ByteSequence) (b : Built) : Option Built := do
  let b ← b.grow? 2 0
  return (← Sharing.addAllBackward? (b.states - 1) qs ⟨b, .replicate 1000 none⟩).built

def Built.addSet? (backward : Bool) (s : CharSet) (b : Built) : Option Built :=
  if s.ranges.all fun r => r.2 < 0x80 then b.addBytes? s.ranges.length
  else if backward then b.addBackward? (ByteSequence.ofRanges s.ranges)
  else b.addForward? (ByteSequence.ofRanges s.ranges)

/-! ## Alternatives that are literals -/

/-- Splits a list at its empty members. -/
def splitAtEmpty {α : Type} : List (List α) → List (List (List α))
  | [] => [[]]
  | [] :: more => [] :: splitAtEmpty more
  | w :: more =>
    match splitAtEmpty more with
    | [] => [[w]]
    | first :: rest => (w :: first) :: rest

/-- The bytes that words begin with, each with what the words that begin with it go on with. -/
def byFirst (words : List (List Nat)) : List (Nat × List (List Nat)) :=
  words.foldr (fun w groups =>
    match w with
    | [] => groups
    | b :: rest =>
      match groups.lookup b with
      | some rests => (b, rest :: rests) :: groups.filter (·.1 != b)
      | none => (b, [rest]) :: groups) []

/-- The states, and the bytes of their lists, of the tree of some words with at most `fuel`
bytes, one of which is not empty. Words that follow on the end of another one are kept apart
from those before it. -/
def treeRoom : (fuel : Nat) → List (List Nat) → Nat × Nat
  | 0, _ => (0, 0)
  | fuel + 1, words =>
    let chunks := (splitAtEmpty words).map byFirst
    let full := chunks.filter (!·.isEmpty)
    let ends := if words.all (·.isEmpty) then 1 else
      (chunks.length - 1) - ((words.takeWhile (·.isEmpty)).length - 1)
    let below := (full.flatten.filter fun g => g.2.any (!·.isEmpty)).map fun g => treeRoom fuel g.2
    let here := (full.map fun c => if c.length = 1 then 0 else Built.rangeSize * c.length).sum
    (full.length + 1 + (below.map Prod.fst).sum,
      here + Built.linkSize * (full.length + ends) + (below.map Prod.snd).sum)

/-- The characters of alternatives that are all literals. -/
def Node.literals? (n : Node) : Option (List Text) :=
  n.branches.mapM fun
    | literal t => some t
    | _ => none

def Built.addWords? (backward : Bool) (words : List Text) (b : Built) : Option Built :=
  let bytes := words.map fun t => t.flatMap fun c => ByteSequence.encode c.toNat
  let bytes := if backward then bytes.map List.reverse else bytes
  let (states, extra) := treeRoom ((bytes.map List.length).foldl max 0 + 1) bytes
  b.grow? (states + 1) extra

/-! ## Expressions -/

/-- An automaton, and whether the state at the end of its last part holds a list of links. -/
abbrev Part := Built × Bool

namespace Part

/-- What `next` adds, after a link to it from the end of what there is. -/
def followedBy? (next : Built → Option Part) (p : Part) : Option Part := do
  let (b, listed) ← next p.1
  return (← b.link? p.2, listed)

/-- `n` more copies of what `one` adds. -/
def copies? (one : Built → Option Part) : Nat → Part → Option Part
  | 0, p => some p
  | n + 1, p =>
    match p.followedBy? one with
    | some p => copies? one n p
    | none => none

def exactly? (one : Built → Option Part) (n : Nat) (b : Built) : Option Part :=
  match n with
  | 0 => do return (← b.grow? 1 0, false)
  | n + 1 => do copies? one n (← one b)

/-- `n` copies of what `one` adds, each of which may be the end. -/
def optionals? (one : Built → Option Part) : Nat → Part → Option Part
  | 0, p => some p
  | n + 1, (b, listed) =>
    let next := do
      let (b, next) ← one (← b.grow? 1 0)
      return (← (← b.link? listed).grow? 0 (2 * Built.linkSize), next)
    match next with
    | some p => optionals? one n p
    | none => none

/-- Repetitions of what `one` adds; `taking` says that it always takes some text. -/
def repeated? (taking : Bool) (least : Nat) (most : Option Nat) (one : Built → Option Part)
    (b : Built) : Option Part := do
  match least, most with
  | 0, some 1 =>
    let (b, listed) ← one (← b.grow? 1 0)
    return (← (← b.grow? 1 (2 * Built.linkSize)).link? listed, false)
  | 0, none =>
    if taking then
      let (b, listed) ← one (← b.grow? 1 0)
      return (← (← b.grow? 0 Built.linkSize).link? listed, true)
    else
      let (b, listed) ← one b
      return (← (← b.grow? 3 (4 * Built.linkSize)).link? listed, false)
  | n + 1, none =>
    let (b, listed) ← exactly? one (n + 1) b
    return (← (← b.grow? 1 Built.linkSize).link? listed, true)
  | n, some m =>
    let p ← exactly? one n b
    if n = m then return p
    let (b, listed) ← optionals? one (m - n) (← p.1.grow? 1 0, p.2)
    return (← b.link? listed, false)

end Part

/-- Where an expression stands among alternatives. -/
inductive Branch where
  | alone
  | first
  | second
  | later
  deriving DecidableEq, Repr

namespace Branch

def head : Branch → Branch
  | alone => first
  | b => b

def tail : Branch → Branch
  | alone => second
  | _ => later

/-- Joins an alternative to the states in which all of them begin and end. These come after the
second one. -/
def join? (branch : Branch) (p : Part) : Option Part :=
  match branch with
  | alone => some p
  | _ => do
    let b ← p.1.grow? (if branch = second then 2 else 0) Built.linkSize
    return (← b.link? p.2, false)

end Branch

namespace Node

/-- Adds an expression, or some more alternatives, to one of the two automata. -/
def build? (backward : Bool) : Branch → Node → Built → Option Part
  | branch, empty, b => do branch.join? (← b.grow? 1 0, false)
  | branch, literal t, b => do
    branch.join? (← b.grow? (t.map fun c => (ByteSequence.encode c.toNat).length).sum 0, false)
  | branch, set s _, b => do branch.join? (← b.addSet? backward s, false)
  | branch, check _, b => do branch.join? (← b.grow? 1 0, false)
  | branch, rep least most _ n, b => do
    branch.join? (← Part.repeated? n.takesText least most (n.build? backward .alone) b)
  | branch, capture _ n, b => do
    if backward then branch.join? (← n.build? backward .alone b)
    else
      let (b, listed) ← n.build? backward .alone (← b.grow? 1 0)
      branch.join? (← (← b.grow? 1 0).link? listed, false)
  | branch, cat a c, b => do
    if backward then
      branch.join? (← Part.followedBy? (a.build? backward .alone) (← c.build? backward .alone b))
    else
      branch.join? (← Part.followedBy? (c.build? backward .alone) (← a.build? backward .alone b))
  | branch, alt a c, b =>
    match if branch = .alone then (alt a c).literals? else none with
    | some words => do return (← b.addWords? backward words, false)
    | none => do
      let (b, _) ← a.build? backward branch.head b
      c.build? backward branch.tail b

/-- Whether the automaton in one direction stays below the limit. If it need not begin where the
search does, it has three states more, which pass any bytes. -/
def fitsOneWay (backward : Bool) (n : Node) : Bool :=
  let fixed := if backward then n.endsText else n.startsText
  let room? : Option Built := do
    let b ← (⟨0, 0⟩ : Built).grow? (if fixed then 1 else 3)
      (if fixed then 0 else Built.rangeSize + Built.linkSize)
    let b ← if backward then some b else b.grow? 1 0
    let (b, listed) ← n.build? backward .alone b
    let b ← if backward then b.grow? 1 0 else b.grow? 2 0
    let b ← b.link? listed
    b.link? (!fixed)
  room?.isSome

def fits (n : Node) : Bool := n.fitsOneWay false && n.fitsOneWay true

end Node
end DialectBridge.Regex
