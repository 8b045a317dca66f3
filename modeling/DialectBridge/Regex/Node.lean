import DialectBridge.Pattern.Basic
/-!
# Simplified regular expressions

A `Node` is a regular expression without flags: every class is a set of characters, and every
condition is settled. `concat`, `choice` and `repeated` build nodes in a simplified form. They
join literals that follow one another, make one class of alternatives that are single characters,
and take out what all alternatives begin with. This form decides how much room an expression
takes and in which order its alternatives are tried.
-/
namespace DialectBridge.Regex

/-- A simplified regular expression. Sequences and alternatives are nested to the right. -/
inductive Node where
  | empty
  /-- One or more characters. -/
  | literal (t : Text)
  /-- One character of a set; `ascii` if the set was written without Unicode. -/
  | set (s : CharSet) (ascii : Bool)
  | check (a : Assertion)
  | rep (least : Nat) (most : Option Nat) (greedy : Bool) (n : Node)
  | capture (index : Nat) (n : Node)
  | cat (first rest : Node)
  | alt (first rest : Node)
  deriving DecidableEq, Repr

namespace Node

/-! ## Lengths -/

/-- The length of the shortest text that a node matches, if it matches any. -/
def shortest? : Node → Option Nat
  | empty => some 0
  | literal t => some t.length
  | set s _ => if s.ranges.isEmpty then none else some 1
  | check _ => some 0
  | rep least _ _ n => n.shortest?.map (least * ·)
  | capture _ n => n.shortest?
  | cat a b => do return (← a.shortest?) + (← b.shortest?)
  | alt a b => do return min (← a.shortest?) (← b.shortest?)

/-- Whether every match of a node is certain to take some text. -/
def takesText (n : Node) : Bool := n.shortest?.any (0 < ·)

/-- Whether a node can match only the empty text. -/
def takesNothing : Node → Bool
  | empty => true
  | literal _ => false
  | set _ _ => false
  | check _ => true
  | rep _ most _ n => most.isSome && n.takesNothing
  | capture _ n => n.takesNothing
  | cat a b => a.takesNothing && b.takesNothing
  | alt a b => a.takesNothing && b.takesNothing

/-! ## Sequences -/

def parts : Node → List Node
  | empty => []
  | cat a b => a :: b.parts
  | n => [n]

def ofParts : List Node → Node
  | [] => empty
  | [n] => n
  | n :: ns => cat n (ofParts ns)

/-- Puts a part in front of others. Two literals become one. -/
def consPart : Node → List Node → List Node
  | literal s, literal t :: ns => literal (s ++ t) :: ns
  | n, ns => n :: ns

def concat (ns : List Node) : Node := ofParts ((ns.flatMap parts).foldr consPart [])

/-! ## Alternatives -/

def branches : Node → List Node
  | alt a b => a :: b.branches
  | n => [n]

/-- The node for a set of characters; a single character is a literal. -/
def ofSet (s : CharSet) (ascii : Bool) : Node :=
  match s.ranges with
  | [] => set s true
  | [(lo, hi)] => if lo = hi then literal [Char.ofNat lo] else set s ascii
  | _ => set s ascii

def fail : Node := set .empty true

def ofBranches : List Node → Node
  | [] => fail
  | [n] => n
  | n :: ns => alt n (ofBranches ns)

def character? : Node → Option Char
  | literal [c] => some c
  | _ => none

def set? : Node → Option CharSet
  | set s _ => some s
  | _ => none

/-- The class with the characters of all alternatives, if these are all single characters or all
classes. -/
def merged? (ns : List Node) : Option Node :=
  match ns.mapM character? with
  | some cs => some (ofSet (.ofRanges (cs.map fun c => (c.toNat, c.toNat))) false)
  | none => (ns.mapM set?).map fun ss => ofSet ⟨.union (ss.map CharSet.ranges)⟩ false

/-- What two lists have in common at their start. -/
def commonStart : List Node → List Node → List Node
  | a :: as, b :: bs => if a = b then a :: commonStart as bs else []
  | _, _ => []

/-- The parts of a sequence; none for a node that is none. -/
def sequence (n : Node) : List Node :=
  match n with
  | cat _ _ => n.parts
  | _ => []

/-- What all the alternatives, which have to be sequences, begin with. -/
def sharedStart : List Node → List Node
  | [] => []
  | n :: ns => (ns.map sequence).foldl commonStart n.sequence

def weight : Node → Nat
  | rep _ _ _ n => n.weight + 1
  | capture _ n => n.weight + 1
  | cat a b => a.weight + b.weight + 1
  | alt a b => a.weight + b.weight + 1
  | _ => 1

/-- One of several alternatives. What they all begin with is taken out `fuel` times at most. -/
def choiceWithin : (fuel : Nat) → List Node → Node
  | 0, ns => ofBranches (ns.flatMap branches)
  | fuel + 1, ns =>
    match ns.flatMap branches with
    | [] => fail
    | [n] => n
    | ns =>
      match merged? ns with
      | some n => n
      | none =>
        match sharedStart ns with
        | [] => ofBranches ns
        | start =>
          let rests := ns.map fun n => concat (n.sequence.drop start.length)
          concat (start ++ [choiceWithin fuel rests])

/-- One of several alternatives. Taking out what they begin with makes them lighter. -/
def choice (ns : List Node) : Node := choiceWithin (ns.foldr (fun n k => weight n + k) 0 + 1) ns

/-! ## Repetitions -/

def repeated (least : Nat) (most : Option Nat) (greedy : Bool) (n : Node) : Node :=
  let least := if n.takesNothing then min least 1 else least
  let most := if n.takesNothing then some (min (most.getD 1) 1) else most
  if least = 0 ∧ most = some 0 then empty
  else if least = 1 ∧ most = some 1 then n
  else rep least most greedy n

/-! ## Ends of the text -/

/-- Whether a node can match only at the start of the text. -/
def startsText : Node → Bool
  | check a => a == .textStart
  | rep least _ _ n => 0 < least && n.startsText
  | capture _ n => n.startsText
  | cat a b => a.startsText || (a.takesNothing && b.startsText)
  | alt a b => a.startsText && b.startsText
  | _ => false

/-- Whether a node can match only at the end of the text. -/
def endsText : Node → Bool
  | check a => a == .textEnd
  | rep least _ _ n => 0 < least && n.endsText
  | capture _ n => n.endsText
  | cat a b => b.endsText || (b.takesNothing && a.endsText)
  | alt a b => a.endsText && b.endsText
  | _ => false

end Node
end DialectBridge.Regex
