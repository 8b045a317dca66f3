import DialectBridge.Sql.Edit
/-!
# Function calls

Calls of a function are replaced from the right to the left: a call that stands among the
arguments of another one starts further right, so it is replaced before the call around it is
read. Each round looks only at calls that start before the one of the round before, so the
rounds come to an end.
-/
namespace DialectBridge
open Pattern

/-- A call `NAME(...)` found in a query. -/
structure Call where
  /-- The offset of the name. -/
  start : Nat
  /-- The offset just past the closing parenthesis. -/
  stop : Nat
  /-- The text between the parentheses. -/
  inner : Text
  /-- The arguments, trimmed. -/
  args : List Text
  /-- The text after the closing parenthesis. -/
  tail : Text
  deriving DecidableEq, Repr

namespace Call

def head (name : Text) : Pattern := edge ++ word name ++ blanks ++ sym '('

/-- The last head of a call of `name` that starts before `limit`. -/
def lastBefore? (name masked : Text) (limit : Nat) : Option Match :=
  ((head name).findAll masked).reverse.find? fun m => m.start < limit

theorem start_lt_of_lastBefore? {name masked : Text} {limit : Nat} {m : Match}
    (h : lastBefore? name masked limit = some m) : m.start < limit := by
  simpa using List.find?_some h

/-- The call with the given head, whose closing parenthesis is at `closing`. -/
def read? (sql masked : Text) (m : Match) (closing : Nat) : Option Call := do
  return {
    start := m.start
    stop := closing + 1
    inner := ← Text.slice? sql m.stop closing
    args := ← splitArgs? sql masked (m.stop - 1) closing
    tail := ← Text.from? sql (closing + 1) }

end Call

/-- Replaces the calls of `name` that start before `limit`. -/
def replaceCallsBefore {σ : Type} (name : Text) (f : Call → Editing σ (Option (Text × Nat)))
    (limit : Nat) (sql : Text) : Editing σ Text :=
  let masked := mask sql
  match h : Call.lastBefore? name masked limit with
  | none => return sql
  | some m =>
    have := Call.start_lt_of_lastBefore? h
    match matchingParen? masked (m.stop - 1) with
    | none => replaceCallsBefore name f m.start sql -- it is not closed; others may be
    | some closing => do
      let call ← Call.read? sql masked m closing
      match ← f call with
      | none => replaceCallsBefore name f m.start sql
      | some (replacement, consumed) => do
        let next ← Text.splice? sql call.start (call.stop + consumed) replacement
        -- the replacement starts at `m.start`, so it is not visited
        replaceCallsBefore name f m.start next
termination_by limit

/-- Replaces the calls of `name`, innermost first. For each call `f` gives its replacement and
the number of bytes of the tail that this replaces too, or nothing to leave the call alone. -/
def replaceCallsWithTail {σ : Type} (sql name : Text)
    (f : Call → Editing σ (Option (Text × Nat))) : Editing σ Text :=
  replaceCallsBefore name f (Text.width sql + 1) sql

/-- Replaces the calls of `name`, innermost first; `f` gives the replacement of a call. -/
def replaceCalls {σ : Type} (sql name : Text) (f : Call → Editing σ (Option Text)) :
    Editing σ Text :=
  replaceCallsWithTail sql name fun call => do return (← f call).map fun r => (r, 0)

/-- Renames the calls of `old` to `new`; the text between the parentheses stays. -/
def renameCalls {σ : Type} (sql old new : Text) : Editing σ Text :=
  replaceCalls sql old fun call => return some (new ++ "(" ++ call.inner ++ ")")

def withinGroupHead : Pattern :=
  textStart ++ blanks ++ "WITHIN" ++ blanks1 ++ "GROUP" ++ blanks ++ sym '('

def orderByHead : Pattern := textStart ++ "ORDER" ++ blanks1 ++ "BY" ++ blanks1

/-- The clause `WITHIN GROUP (ORDER BY ...)` at the start of `tail`: its list, and the number of
bytes that it takes. -/
def withinGroup? (tail : Text) : Option (Option (Text × Nat)) :=
  let masked := mask tail
  match withinGroupHead.find? masked with
  | none => some none
  | some head =>
    match matchingParen? masked (head.stop - 1) with
    | none => some none
    | some closing => do
      let inner := Text.trim (← Text.slice? tail head.stop closing)
      let order := orderByHead.replaceFirstBy (fun _ => []) inner
      return some (Text.trim order, closing + 1)

/-- The text between two single quotes. -/
def unquote? (t : Text) : Option Text :=
  match t with
  -- quotes further inside are not looked at
  | '\'' :: rest => if rest.getLast? = some '\'' then some rest.dropLast else none
  | _ => none

def nameStart : Pattern := one ⟨[(0x41, 0x5A), (0x5F, 0x5F), (0x61, 0x7A)]⟩

/-- A name: a letter or an underscore, then word characters, `$` and `#`. -/
def identifier : Pattern :=
  nameStart ++ many (one ⟨(0x23, 0x24) :: Unicode.wordRanges⟩)

/-- Names joined by points, and nothing else. -/
def identifierPath : Pattern :=
  textStart ++ identifier ++ many (sym '.' ++ identifier) ++ textEnd

/-- Whether `t` is a name such as `name`, `alias.name` or `schema.table.name`. -/
def isIdentifierPath (t : Text) : Bool := identifierPath.occursIn t

end DialectBridge
