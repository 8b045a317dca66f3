import DialectBridge.Warning
/-!
# Row limits of Oracle

A condition `ROWNUM <= n` of a query block becomes `TOP n` in its heading, and so does
`FETCH FIRST n ROWS ONLY` where the block has no order; an ordered block gets an `OFFSET`
instead. Each step moves one limit, and steps are repeated until none is left to move.
-/
namespace DialectBridge.ToTsql
open Pattern

def topAhead : Pattern := textStart ++ blanks1 ++ "TOP" ++ edge

/-- Puts ` TOP limit` after the heading of the query block around `pos`; nothing if the block
has no heading or has a `TOP` already. -/
def insertTop? (sql : Text) (pos limit : Nat) : Option (Option Text) := do
  let masked := mask sql
  match ← enclosingSelect? masked pos with
  | none => return none
  | some place =>
    if topAhead.occursIn (← Text.from? masked place) then return none
    else return some (← Text.insert? sql place (" TOP " ++ Text.ofNat limit))

/-- A comparison of `ROWNUM` that keeps the first rows: group 1 is the operator and group 2 the
number, both missing from `= 1`. -/
def rownumTest : Pattern :=
  "ROWNUM" ++ blanks ++
    oneOf [
      .group 1 (sym '<' ++ opt (sym '=')) ++ blanks ++ .group 2 digits1,
      sym '=' ++ blanks ++ sym '1']

/-- A place where `ROWNUM` is tested: the pattern, what is left of its match, and what must not
follow. -/
structure RownumForm where
  pattern : Pattern
  kept : String
  stop : Option Pattern

/-- The forms of a test of `ROWNUM`: before other conditions, after one, and alone. -/
def rownumForms : List RownumForm := [
  { pattern := edge ++ "WHERE" ++ blanks1 ++ rownumTest ++ blanks1 ++ "AND" ++ edge
    kept := "WHERE"
    stop := none },
  { pattern := blanks1 ++ "AND" ++ blanks1 ++ rownumTest ++ edge
    kept := ""
    stop := none },
  { pattern := blanks ++ edge ++ "WHERE" ++ blanks1 ++ rownumTest ++ edge
    kept := ""
    stop := some (textStart ++ blanks ++ oneOf ["AND", "OR"] ++ edge) }]

/-- The number of rows that a matched test of `ROWNUM` lets through; none if its number is
2^64 or more, or is not written in ASCII digits. -/
def rownumLimit? (m : Match) : Option Nat :=
  match m.group? 1, m.group? 2 with
  | some operator, some digits => do
    let n ← Text.readNat? 10 (Nat.pow 2 64) digits
    -- `< 0` lets no row through, and neither does `< 1`
    return if operator = "<".toList then n - 1 else n
  | _, _ => some 1

/-- Moves one matched test of `ROWNUM` into a `TOP`. A test under an `OR` stays: since `AND`
binds tighter, it limits one branch only. -/
def moveRownum (sql masked : Text) (form : RownumForm) (m : Match) : Reporting (Option Text) := do
  if form.stop.any fun p => p.occursIn m.last.right then return none
  let start := scopeStart masked m.start
  let stop := scopeEnd masked m.start
  if !(← depthZeroMatches? masked start stop (keyword "OR")).isEmpty then return none
  match rownumLimit? m with
  | none => return none
  | some limit =>
    let next ← Text.splice? sql m.start m.stop form.kept
    match ← insertTop? next m.start limit with
    | some done => return some done
    | none =>
      warnOnce .rowLimit "ROWNUM filter found in a SELECT that already has TOP. Manual review required."
      return none

def rownumStep (sql : Text) : Reporting (Option Text) :=
  let masked := mask sql
  rownumForms.findSomeM? fun form =>
    (form.pattern.findAll masked).findSomeM? fun m => moveRownum sql masked form m

/-- Tests of `ROWNUM` become `TOP`; a `ROWNUM` that is left becomes a row number. -/
def rownumLimit (sql : Text) : Reporting Text := do
  let out ← fixpoint rownumStep sql
  if (keyword "ROWNUM").occursIn (mask out) then
    warn .rowLimit "ROWNUM could not be converted to TOP and was replaced with ROW_NUMBER() OVER (ORDER BY (SELECT NULL)). Manual review required."
    return replaceCode (keyword "ROWNUM") "ROW_NUMBER() OVER (ORDER BY (SELECT NULL))" out
  return out

/-- `FETCH FIRST n ROWS ONLY`: group 1 is the blanks before it and group 2 the number. -/
def fetchFirstClause : Pattern :=
  .group 1 blanks ++ edge ++ "FETCH" ++ blanks1 ++ oneOf ["FIRST", "NEXT"] ++ blanks1 ++
    .group 2 digits1 ++ blanks1 ++ "ROW" ++ opt "S" ++ blanks1 ++ "ONLY" ++ edge

/-- `OFFSET n ROWS` at the end of a text. -/
def offsetBefore : Pattern :=
  edge ++ "OFFSET" ++ blanks1 ++ digits1 ++ blanks1 ++ "ROW" ++ opt "S" ++ blanks ++ textEnd

/-- Changes one matched `FETCH` clause, unless it follows an `OFFSET` clause. -/
def moveFetch (sql masked : Text) (m : Match) : Reporting (Option Text) := do
  match m.groupSpan? 1, (m.group? 2).bind (Text.readNat? 10 (Nat.pow 2 64)) with
  | some space, some limit =>
    let fetch := space.stop
    if offsetBefore.occursIn (← Text.upTo? masked fetch) then return none
    let scope := scopeStart masked fetch
    let orders ← depthZeroMatches? masked scope fetch (edge ++ "ORDER" ++ blanks1 ++ "BY" ++ edge)
    if !orders.isEmpty then
      return some (← Text.splice? sql fetch m.stop <|
        "OFFSET 0 ROWS FETCH NEXT " ++ Text.ofNat limit ++ " ROWS ONLY")
    -- the clause goes with the white space in front of it
    let next ← Text.splice? sql m.start m.stop []
    match ← insertTop? next m.start limit with
    | some done => return some done
    | none =>
      warnOnce .rowLimit "FETCH FIRST found in a SELECT that already has TOP. Manual review required."
      return none
  | _, _ => return none

def fetchStep (sql : Text) : Reporting (Option Text) :=
  let masked := mask sql
  (fetchFirstClause.findAll masked).findSomeM? fun m => moveFetch sql masked m

/-- `FETCH` clauses become `TOP`, or get an `OFFSET` in an ordered query block. -/
def fetchFirst (sql : Text) : Reporting Text := fixpoint fetchStep sql

end DialectBridge.ToTsql
