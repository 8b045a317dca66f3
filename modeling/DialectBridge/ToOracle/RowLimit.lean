import DialectBridge.Unicode.Blank
import DialectBridge.Warning
/-!
# Row limits of T-SQL

`TOP n` in the heading of a query block becomes the condition `ROWNUM <= n` of the same block:
in front of the conditions that the block has, or in a `WHERE` of its own. An `OFFSET 0` with a
`FETCH` becomes `FETCH FIRST`.
-/
namespace DialectBridge.ToOracle
open Pattern

/-- `SELECT` with `TOP n`: group 1 is the blanks and the word before `TOP`, the number is group
2 in parentheses and group 3 without. -/
def topClause : Pattern :=
  edge ++ "SELECT" ++ opt (.group 1 (blanks1 ++ oneOf ["DISTINCT", "ALL"])) ++ blanks1 ++ "TOP" ++
    blanks ++
    oneOf [sym '(' ++ blanks ++ .group 2 digits1 ++ blanks ++ sym ')', .group 3 digits1] ++
    blanks1

/-- `PERCENT` or `WITH TIES` at the start of a text. -/
def topModifier : Pattern :=
  textStart ++ oneOf ["PERCENT", "WITH" ++ blanks1 ++ "TIES"] ++ edge

def setOperator : Pattern := edge ++ oneOf ["UNION", "INTERSECT", "EXCEPT", "MINUS"] ++ edge

/-- What can follow the conditions of a block. -/
def afterWhere : Pattern :=
  edge ++
    oneOf ["GROUP" ++ blanks1 ++ "BY", "HAVING", "ORDER" ++ blanks1 ++ "BY", "UNION", "INTERSECT",
      "EXCEPT", "MINUS", "OFFSET", "FETCH"] ++
    edge

def orderOrGroup : Pattern := edge ++ oneOf ["ORDER", "GROUP"] ++ blanks1 ++ "BY" ++ edge

/-- White space and semicolons, which may end a block. -/
def isBlockEnd (c : Char) : Bool := Unicode.isBlank c || c == ';'

/-- Puts `ROWNUM <= limit` before the conditions from `start` to `stop`. Conditions joined by
`OR` go into parentheses, since `AND` binds tighter. -/
def addToConditions? (sql masked limit : Text) (start stop : Nat) : Option Text := do
  let condition ← Text.slice? sql start stop
  let kept := Text.dropTrailing isBlockEnd condition
  let trailing ← Text.from? condition (Text.width kept)
  let ors ← depthZeroMatches? masked start (start + Text.width kept) (keyword "OR")
  if ors.isEmpty then Text.insert? sql start (" ROWNUM <= " ++ limit ++ " AND")
  else
    Text.splice? sql start stop <|
      " ROWNUM <= " ++ limit ++ " AND (" ++ Text.trimStart kept ++ ")" ++ trailing

/-- Puts a `WHERE` in front of the clause at offset `clause`, after the blanks before it. -/
def addBeforeClause? (sql masked limit : Text) (clause : Nat) : Option Text := do
  let place := Text.width (Text.trimEnd (← Text.upTo? masked clause))
  let space ← Text.slice? sql place clause
  if space.isEmpty then Text.insert? sql clause (" WHERE ROWNUM <= " ++ limit ++ " ")
  else Text.insert? sql place (space ++ "WHERE ROWNUM <= " ++ limit)

/-- What goes between a block and the `WHERE` at its end: a line feed if the block has several
lines. -/
def separator (content : Text) : Text := if content.contains '\n' then "\n" else " "

/-- Puts a `WHERE` at the end of the block from `body` to `stop`. -/
def addAtEnd? (sql limit : Text) (body stop : Nat) : Option Text := do
  let content := Text.dropTrailing isBlockEnd (← Text.slice? sql body stop)
  Text.insert? sql (body + Text.width content) (separator content ++ "WHERE ROWNUM <= " ++ limit)

/-- Where the condition of a block goes. -/
inductive FilterPlace where
  /-- To the conditions that the block has, from `start` to `stop`. -/
  | conditions (start stop : Nat)
  /-- In front of the clause at offset `start`. -/
  | clause (start : Nat)
  /-- To the end of the block from `body` to `stop`. -/
  | atEnd (body stop : Nat)
  deriving DecidableEq, Repr

/-- Where the condition goes in the query block whose select list starts at `body`. -/
def filterPlace? (sql : Text) (body : Nat) : Option FilterPlace := do
  let masked := mask sql
  let stop := scopeEnd masked body
  let operators ← depthZeroMatches? masked body stop setOperator
  let blockStop := (operators.head?.map Span.start).getD stop
  match (← depthZeroMatches? masked body blockStop (keyword "WHERE")).head? with
  | some clause =>
    let clauses ← depthZeroMatches? masked clause.stop blockStop afterWhere
    return .conditions clause.stop ((clauses.head?.map Span.start).getD blockStop)
  | none =>
    -- the set operators are among these words, so no clause of another block is found
    match (← depthZeroMatches? masked body stop afterWhere).head? with
    | some clause => return .clause clause.start
    | none => return .atEnd body blockStop

def addFilterAt? (sql limit : Text) : FilterPlace → Option Text
  | .conditions start stop => addToConditions? sql (mask sql) limit start stop
  | .clause start => addBeforeClause? sql (mask sql) limit start
  | .atEnd body stop => addAtEnd? sql limit body stop

/-- Adds `ROWNUM <= limit` to the conditions of the query block whose select list starts at
`body`. -/
def addRownumFilter? (sql : Text) (body : Nat) (limit : Text) : Option Text := do
  addFilterAt? sql limit (← filterPlace? sql body)

/-- The query without a matched `TOP` clause, and the offset of its select list. -/
def dropTop? (sql : Text) (m : Match) : Option (Text × Nat) := do
  let keyword ← Text.slice? sql m.start (m.start + 6)
  let distinct ← match m.groupSpan? 1 with
    | some span => Text.slice? sql span.start span.stop
    | none => some []
  let head := keyword ++ distinct ++ " "
  return (← Text.splice? sql m.start m.stop head, m.start + Text.width head)

def moveTop (sql : Text) (m : Match) (limit : Text) : Reporting Text := do
  let (next, body) ← dropTop? sql m
  let masked := mask next
  let orders ← depthZeroMatches? masked body (scopeEnd masked body) orderOrGroup
  if !orders.isEmpty then
    warnOnce .rowLimit "TOP converted to ROWNUM with ORDER BY. Results may differ - consider using a subquery or FETCH FIRST n ROWS ONLY."
  addRownumFilter? next body limit

/-- Moves the first `TOP` clause that is a plain number of rows. -/
def topStep (sql : Text) : Reporting (Option Text) :=
  ((topClause.findAll (mask sql)).filter fun m => !topModifier.occursIn m.last.right).findSomeM?
    fun m => match (m.group? 2).or (m.group? 3) with
      | some limit => some <$> moveTop sql m limit
      | none => return none

def topToRownum (sql : Text) : Reporting Text := fixpoint topStep sql

/-- `OFFSET 0 ROWS FETCH NEXT n ROWS ONLY`; the number is group 1. -/
def offsetZeroFetch : Pattern :=
  edge ++ "OFFSET" ++ blanks1 ++ "0" ++ blanks1 ++ "ROW" ++ opt "S" ++ blanks1 ++ "FETCH" ++
    blanks1 ++ oneOf ["NEXT", "FIRST"] ++ blanks1 ++ .group 1 digits1 ++ blanks1 ++ "ROW" ++
    opt "S" ++ blanks1 ++ "ONLY" ++ edge

/-- An `OFFSET` of no rows is left out. -/
def offsetFetch (sql : Text) : Reporting Text :=
  replaceSpans sql offsetZeroFetch fun m =>
    match m.groupSpan? 1 with
    | some count => do
      return some ("FETCH FIRST " ++ (← Text.slice? sql count.start count.stop) ++ " ROWS ONLY")
    | none => return none

end DialectBridge.ToOracle
