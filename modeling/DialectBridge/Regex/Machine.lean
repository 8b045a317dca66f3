import DialectBridge.Pattern.Search
import DialectBridge.Regex.Program
/-!
# Running a program on a text

A program runs on a text from left to right, all its ways at once. The ways that are open at a
place are kept as threads, the preferred ones first. Two threads that reach the same instruction
at the same place go on in the same way, so the second one is dropped: a search takes time in
proportion to the length of the text, whatever the expression. `Program.findAll` gives the same
matches in the same order as trying the ways one after the other would.
-/
namespace DialectBridge.Regex

/-- A way through a program so far: where it began, the places at which the groups that are
still open began, and the groups that are closed. -/
structure Thread where
  first : Cursor
  opened : List Cursor
  groups : Groups
  deriving Repr

namespace Thread

/-- The thread after it has closed the group opened last. -/
def leave (t : Thread) (group : Nat) (c : Cursor) : Thread :=
  match t.opened with
  | [] => t
  | o :: opened => ⟨t.first, opened, (group, o, c) :: t.groups⟩

def found (t : Thread) (c : Cursor) : Match := ⟨t.first, c, t.groups⟩

end Thread

/-- What the threads at one place have come to. -/
structure Front where
  /-- For each instruction, the number of the last place at which it was reached. -/
  reached : Array Nat
  /-- The threads that wait for a character, the preferred ones last. -/
  waiting : List (CharSet × Nat × Thread)
  /-- The match of the first thread that is at the end. -/
  found : Option Match

namespace Program

/-- Follows threads up to the next character, at the place `c` with the number `place`. A thread
that has come to the end stops those after it. -/
def follow (p : Program) (c : Cursor) (place : Nat) :
    (fuel : Nat) → List (Nat × Thread) → Front → Front
  | 0, _, f => f
  | _, [], f => f
  | fuel + 1, (i, t) :: more, ⟨reached, waiting, found⟩ =>
    -- a preferred thread has been here
    if reached[i]? = some place then follow p c place fuel more ⟨reached, waiting, found⟩
    else
      let reached := reached.setIfInBounds i place
      match p.code[i]? with
      | none => follow p c place fuel more ⟨reached, waiting, found⟩
      | some (.take s next) =>
        follow p c place fuel more ⟨reached, (s, next, t) :: waiting, found⟩
      | some (.check a next) =>
        if a.holds c then follow p c place fuel ((next, t) :: more) ⟨reached, waiting, found⟩
        else follow p c place fuel more ⟨reached, waiting, found⟩
      | some (.enter next) =>
        follow p c place fuel ((next, ⟨t.first, c :: t.opened, t.groups⟩) :: more)
          ⟨reached, waiting, found⟩
      | some (.leave group next) =>
        follow p c place fuel ((next, t.leave group c) :: more) ⟨reached, waiting, found⟩
      | some (.either a b) =>
        follow p c place fuel ((a, t) :: (b, t) :: more) ⟨reached, waiting, found⟩
      | some .done => ⟨reached, waiting, some (t.found c)⟩

/-- The threads that go on over the character `x`, the preferred ones first. -/
def advance (x : Char) (waiting : List (CharSet × Nat × Thread)) : List (Nat × Thread) :=
  waiting.foldl (fun ts (s, next, t) => if s.contains x then (next, t) :: ts else ts) []

/-- The match to which the given threads, and those that begin later, lead, together with the
number of the place where it stops. A thread begins at each place until there is a match, and
yields to those that began before. Each instruction is followed once at a place, and each time
adds one thread at most, which bounds the steps. -/
def search (p : Program) : (place : Nat) → List (Nat × Thread) → Option (Nat × Match) →
    Array Nat → Passed → Text → Option (Nat × Match)
  | place, threads, found, reached, left, right =>
    let c : Cursor := ⟨left, right⟩
    let threads := if found.isSome then threads else threads ++ [(p.start, ⟨c, [], []⟩)]
    if threads.isEmpty then found
    else
      let f := p.follow c place (threads.length + 2 * p.code.size) threads ⟨reached, [], none⟩
      let found := (f.found.map fun m => (place, m)).or found
      match right with
      | [] => found
      | x :: rest => search p (place + 1) (advance x f.waiting) found f.reached (left.add x) rest

/-- The first match from `c` on, and the number of characters between `c` and its end. -/
def findFrom? (p : Program) (c : Cursor) : Option (Nat × Match) :=
  (p.search 1 [] none (.replicate p.code.size 0) c.left c.right).map fun (n, m) => (n - 1, m)

def find? (p : Program) (t : Text) : Option Match := (p.findFrom? (.atStart t)).map Prod.snd

/-- The matches from `c` on, `fuel` at most; `touching` says that a match stops at `c`. An empty
match that touches the one before it is passed over, together with the next character. -/
def findAllFrom (p : Program) : (fuel : Nat) → (touching : Bool) → Cursor → List Match
  | 0, _, _ => []
  | fuel + 1, touching, c =>
    match p.findFrom? c with
    | none => []
    | some (0, m) =>
      if touching then
        match c.right with
        | [] => []
        | x :: rest => findAllFrom p fuel false ⟨c.left.add x, rest⟩
      else m :: findAllFrom p fuel true m.last
    | some (_ + 1, m) => m :: findAllFrom p fuel true m.last

/-- The matches in `t` from left to right. At each place at most one of them stops, and at most
one is passed over. -/
def findAll (p : Program) (t : Text) : List Match :=
  p.findAllFrom (2 * t.length + 2) false (.atStart t)

end Program
end DialectBridge.Regex
