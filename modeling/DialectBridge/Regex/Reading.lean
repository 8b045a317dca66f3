import DialectBridge.Regex.Bracket
import DialectBridge.Regex.Group
/-!
# Reading a regular expression

The reader goes through the text once. Groups that are still open wait on a stack, each with
what was read before it. Every round takes at least one character, so as many rounds as there
are characters, and one more for the end, are enough.
-/
namespace DialectBridge.Regex

/-- A group that is still open: how it began, whether blanks counted before it, and what was
read before it. -/
structure GroupFrame where
  head : GroupHead
  index : Nat
  extended : Bool
  alternatives : List Expr
  items : List Expr

/-- What has been read of an expression. Lists hold the last element first. -/
structure Reading where
  extended : Bool
  alternatives : List Expr
  items : List Expr
  stack : List GroupFrame
  captures : Nat
  names : List (Text × Nat)

namespace Reading

/-- The items of a sequence, last one first, as one expression. -/
def sequenceOf : List Expr → Expr
  | [] => .empty
  | last :: before => before.foldl (fun rest item => .cat item rest) last

def choiceOf : List Expr → Expr
  | [] => .empty
  | last :: before => before.foldl (fun rest item => .alt item rest) last

/-- What has been read since the innermost open group began. -/
def inner (r : Reading) : Expr := choiceOf (sequenceOf r.items :: r.alternatives)

def push (r : Reading) (e : Expr) : Reading := { r with items := e :: r.items }

/-- The last item is repeated; there must be one, and it must not be a change of flags. -/
def repeat? (r : Reading) (least : Nat) (most : Option Nat) (greedy : Bool) : Option Reading :=
  match r.items with
  | [] => none
  | .flags _ :: _ => none
  | .empty :: _ => none
  | e :: before => some { r with items := .rep least most greedy e :: before }

/-- A group begins. -/
def openGroup? (r : Reading) (head : GroupHead) : Option Reading :=
  match head with
  | .flags change =>
    let extended :=
      if change.on.contains .ignoreWhitespace then true
      else if change.off.contains .ignoreWhitespace then false else r.extended
    some { r.push (.flags change) with extended := extended }
  | .within change =>
    let extended :=
      if change.on.contains .ignoreWhitespace then true
      else if change.off.contains .ignoreWhitespace then false else r.extended
    some { r with
      extended := extended
      stack := ⟨head, 0, r.extended, r.alternatives, r.items⟩ :: r.stack
      alternatives := []
      items := [] }
  | .capture name =>
    let index := r.captures + 1
    let names := match name with
      | some n => (n, index) :: r.names
      | none => r.names
    if name.any fun n => (r.names.lookup n).isSome then none
    else some { r with
      captures := index
      names := names
      stack := ⟨head, index, r.extended, r.alternatives, r.items⟩ :: r.stack
      alternatives := []
      items := [] }

/-- The innermost open group ends. -/
def closeGroup? (r : Reading) : Option Reading :=
  match r.stack with
  | [] => none
  | frame :: stack =>
    let e := match frame.head with
      | .within change => .within change r.inner
      | _ => .capture frame.index r.inner
    some { r with
      extended := frame.extended
      alternatives := frame.alternatives
      items := e :: frame.items
      stack := stack }

end Reading

/-- A question mark after a repetition asks for as few rounds as possible. -/
def laziness (t : Text) : Bool × Text :=
  match t with
  | '?' :: r => (false, r)
  | _ => (true, t)

def readFrom? : (fuel : Nat) → Text → Reading → Option Reading
  | 0, _, _ => none
  | fuel + 1, t, r =>
    match passSpace r.extended t with
    | [] => if r.stack.isEmpty then some r else none
    | '(' :: t => do
      let (head, rest) ← groupHead? r.extended t
      readFrom? fuel rest (← r.openGroup? head)
    | ')' :: t => do readFrom? fuel t (← r.closeGroup?)
    | '|' :: t =>
      readFrom? fuel t
        { r with alternatives := Reading.sequenceOf r.items :: r.alternatives, items := [] }
    | '[' :: t => do
      let (e, rest) ← class? r.extended t
      readFrom? fuel rest (r.push e)
    | '?' :: t => do
      let (greedy, rest) := laziness t
      readFrom? fuel rest (← r.repeat? 0 (some 1) greedy)
    | '*' :: t => do
      let (greedy, rest) := laziness t
      readFrom? fuel rest (← r.repeat? 0 none greedy)
    | '+' :: t => do
      let (greedy, rest) := laziness t
      readFrom? fuel rest (← r.repeat? 1 none greedy)
    | '\x7B' :: t => do
      let (least, most, rest) ← bounds? r.extended t
      let (greedy, rest) := laziness (passSpace r.extended rest)
      readFrom? fuel rest (← r.repeat? least most greedy)
    | '\\' :: t => do
      let (e, rest) ← escape? r.extended t
      readFrom? fuel rest (r.push e)
    | '.' :: t => readFrom? fuel t (r.push .dot)
    | '^' :: t => readFrom? fuel t (r.push (.look .lineStart))
    | '$' :: t => readFrom? fuel t (r.push (.look .lineEnd))
    | c :: t => readFrom? fuel t (r.push (.char c false))

/-- The expression that a text writes, and the numbers of its named groups. -/
def read? (t : Text) : Option (Expr × List (Text × Nat)) := do
  let r ← readFrom? (t.length + 1) t ⟨false, [], [], [], 0, []⟩
  return (r.inner, r.names)

end DialectBridge.Regex
