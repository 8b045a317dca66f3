import DialectBridge.Regex.Node
/-!
# Programs of regular expressions

A program is an array of instructions, each of which names the instructions to go on with. Where
there are two of them, the first one is preferred. `Program.ofNode` writes the program of a node
from its end to its beginning, so that the place to go on at is always known. In a loop it is the
instruction that decides about one more round, which is written before the round.
-/
namespace DialectBridge.Regex

inductive Instruction where
  /-- Takes a character of a set. -/
  | take (s : CharSet) (next : Nat)
  /-- Goes on where the condition holds. -/
  | check (a : Assertion) (next : Nat)
  /-- Opens a group. -/
  | enter (next : Nat)
  /-- Closes the group opened last, which has the given number. -/
  | leave (group : Nat) (next : Nat)
  /-- Goes on at one instruction, or else at another one. -/
  | either (first second : Nat)
  /-- The end of a match. -/
  | done
  deriving Repr

/-- The instructions of a regular expression, and the one to begin with. -/
structure Program where
  code : Array Instruction
  start : Nat
  deriving Repr

namespace Program

def add (i : Instruction) (code : Array Instruction) : Program :=
  let place := code.size
  ⟨code.push i, place⟩

/-- The choice between one more round and the way out. -/
def again (greedy : Bool) (round out : Nat) : Instruction :=
  if greedy then .either round out else .either out round

/-- Rounds of what `body` adds, as many as wanted, at least one; `out` comes after them. -/
def loop (greedy : Bool) (body : Nat → Array Instruction → Program) (out : Nat)
    (code : Array Instruction) : Program :=
  let decide := code.size
  let round := body decide (code.push (again greedy out out))
  ⟨round.code.setIfInBounds decide (again greedy round.start out), round.start⟩

/-- `n` times what `body` adds. -/
def copies (body : Nat → Array Instruction → Program) : Nat → Program → Program
  | 0, p => p
  | n + 1, p => copies body n (body p.start p.code)

/-- Up to `n` rounds of what `body` adds, `out` after each of them. -/
def upTo (greedy : Bool) (body : Nat → Array Instruction → Program) (out : Nat) :
    Nat → Program → Program
  | 0, p => p
  | n + 1, p =>
    let round := body p.start p.code
    upTo greedy body out n (add (again greedy round.start out) round.code)

/-- Repetitions of what `body` adds; `taking` says that it always takes some text. Rounds that
take nothing are left by the same way as the others. -/
def repeated (taking : Bool) (least : Nat) (most : Option Nat) (greedy : Bool)
    (body : Nat → Array Instruction → Program) (out : Nat) (code : Array Instruction) : Program :=
  match most, least with
  | some m, _ => copies body least (upTo greedy body out (m - least) ⟨code, out⟩)
  | none, n + 1 => copies body n (loop greedy body out code)
  | none, 0 =>
    let p := loop greedy body out code
    if taking then ⟨p.code, code.size⟩ else add (again greedy p.start out) p.code

def addNode : Node → (next : Nat) → Array Instruction → Program
  | .empty, next, code => ⟨code, next⟩
  | .literal t, next, code =>
    t.foldr (fun c p => add (.take (.single c) p.start) p.code) ⟨code, next⟩
  | .set s _, next, code => add (.take s next) code
  | .check a, next, code => add (.check a next) code
  | .rep least most greedy n, next, code =>
    repeated n.takesText least most greedy (addNode n) next code
  | .capture i n, next, code =>
    let last := add (.leave i next) code
    let inside := addNode n last.start last.code
    add (.enter inside.start) inside.code
  | .cat a b, next, code =>
    let p := addNode b next code
    addNode a p.start p.code
  | .alt a b, next, code =>
    let q := addNode b next code
    let p := addNode a next q.code
    add (.either p.start q.start) p.code

def ofNode (n : Node) : Program := addNode n 0 #[.done]

end Program
end DialectBridge.Regex
