import DialectBridge.Regex.Escape
/-!
# Classes in brackets

A class is a list of items, ranges and classes between brackets, and the operators `&&`, `--`
and `~~` join two such lists. Classes that are still open and operators that still lack their
right side wait on a stack, so the reader goes through the text once.
-/
namespace DialectBridge.Regex

/-- What waits while a class is read: an opened class with the items before it, or an operator
with what stands to its left. -/
inductive ClassFrame where
  | opened (negated : Bool) (before : List ClassExpr)
  | operator (op : SetOperator) (left : ClassExpr)

/-- The items of a union, the last one first, as one expression. -/
def unionOf : List ClassExpr → ClassExpr
  | [] => .empty
  | last :: before => before.foldl (fun rest item => .union item rest) last

/-- An operator that waits gets its right side. -/
def applyOperator (right : ClassExpr) : List ClassFrame → ClassExpr × List ClassFrame
  | .operator op left :: stack => (.operator op left right, stack)
  | stack => (right, stack)

def classItem? (extended : Bool) (t : Text) : Option (Expr × Text) :=
  match t with
  | '\\' :: r => escape? extended r
  | c :: r => some (.char c false, r)
  | [] => none

/-- An item that stands alone. -/
def itemClass? : Expr → Option ClassExpr
  | .char c _ => some (.range c c)
  | .shorthand s negated => some (.shorthand s negated)
  | .property q negated => some (.property q negated)
  | _ => none

/-- The character after a hyphen, white space and comments aside. -/
def afterHyphen (extended : Bool) (t : Text) : Option Char :=
  if !extended then t.head?
  else
    match t.dropWhile Unicode.isBlank with
    | [] => t.head?
    | '#' :: r =>
      match r.dropWhile Unicode.isBlank with
      | [] => t.head?
      | c :: _ => some c
    | c :: _ => some c

/-- An item or a range of a class. -/
def classRange? (extended : Bool) (t : Text) : Option (ClassExpr × Text) := do
  let (first, rest) ← classItem? extended t
  let rest := passSpace extended rest
  match rest with
  | [] => none
  | '-' :: r =>
    let next := afterHyphen extended r
    if next = some ']' ∨ next = some '-' then return (← itemClass? first, rest)
    let (second, rest) ← classItem? extended (passSpace extended r)
    match first, second with
    | .char lo _, .char hi _ => if lo ≤ hi then return (.range lo hi, rest) else none
    | _, _ => none
  | _ => return (← itemClass? first, rest)

/-- The start of a class after `[`: whether it is negated, the hyphens or the bracket that
stand for themselves, and the text after them. -/
def classStart? (extended : Bool) (t : Text) : Option (Bool × List ClassExpr × Text) :=
  let rec hyphens (fuel : Nat) (items : List ClassExpr) (t : Text) : List ClassExpr × Text :=
    match fuel, t with
    | fuel + 1, '-' :: r => hyphens fuel (ClassExpr.range '-' '-' :: items) (passSpace extended r)
    | _, _ => (items, t)
  let t := passSpace extended t
  let (negated, t) := match t with
    | '^' :: r => (true, passSpace extended r)
    | _ => (false, t)
  let (items, t) := hyphens t.length [] t
  let (items, t) := match items, t with
    | [], ']' :: r => ([ClassExpr.range ']' ']'], passSpace extended r)
    | _, _ => (items, t)
  if t.isEmpty then none else some (negated, items, t)

def namedClass? (t : Text) : Option (ClassExpr × Text) :=
  match t with
  | ':' :: r =>
    let (negated, r) := match r with
      | '^' :: r => (true, r)
      | _ => (false, r)
    let name := r.takeWhile (· != ':')
    match r.drop name.length with
    | ':' :: ']' :: rest =>
      (asciiClasses.find? fun c => c.1.toList == name).map fun c => (.ascii c.2 negated, rest)
    | _ => none
  | _ => none

/-- The class whose items are read, those of the innermost open class being `items`, last one
first. -/
def classFrom? (extended : Bool) : (fuel : Nat) → Text → List ClassExpr → List ClassFrame →
    Option (Expr × Text)
  | 0, _, _, _ => none
  | fuel + 1, t, items, stack =>
    match passSpace extended t with
    | [] => none
    | '[' :: r =>
      match namedClass? r with
      | some (c, rest) => classFrom? extended fuel rest (c :: items) stack
      | none => do
        let (negated, first, rest) ← classStart? extended r
        classFrom? extended fuel rest first (.opened negated items :: stack)
    | ']' :: r =>
      match applyOperator (unionOf items) stack with
      | (e, [.opened negated _]) => some (.bracket negated e, r)
      | (e, .opened negated before :: stack) =>
        classFrom? extended fuel r (.bracket negated e :: before) stack
      | _ => none
    | '&' :: '&' :: r =>
      let (left, stack) := applyOperator (unionOf items) stack
      classFrom? extended fuel r [] (.operator .intersection left :: stack)
    | '-' :: '-' :: r =>
      let (left, stack) := applyOperator (unionOf items) stack
      classFrom? extended fuel r [] (.operator .difference left :: stack)
    | '~' :: '~' :: r =>
      let (left, stack) := applyOperator (unionOf items) stack
      classFrom? extended fuel r [] (.operator .symmetricDifference left :: stack)
    | t => do
      let (item, rest) ← classRange? extended t
      classFrom? extended fuel rest (item :: items) stack

/-- The class after its first bracket. -/
def class? (extended : Bool) (t : Text) : Option (Expr × Text) := do
  let (negated, items, rest) ← classStart? extended t
  classFrom? extended (t.length + 1) rest items [.opened negated []]

end DialectBridge.Regex
