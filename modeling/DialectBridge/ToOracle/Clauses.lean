import DialectBridge.ToOracle.RowLimit
/-!
# Clauses and names of T-SQL

Names in brackets, hints for the optimizer, and the `FROM` that Oracle asks of every query.
-/
namespace DialectBridge.ToOracle
open Pattern

/-- A name in brackets; the name is group 1. -/
def bracketed : Pattern :=
  sym '[' ++ .group 1 (many1 (one (.complement ⟨[(0x5B, 0x5B), (0x5D, 0x5D)]⟩))) ++ sym ']'

def bracketIdentifiers (sql : Text) : Reporting Text := do
  let out ← replaceSpans sql bracketed fun m =>
    match m.groupSpan? 1 with
    | some name => do
      return some ("\"" ++ (← Text.slice? sql name.start name.stop) ++ "\"")
    | none => return none
  if bracketed.occursIn (mask sql) then
    warnOnce .identifier "Bracketed identifiers converted to double-quoted identifiers, which are case-sensitive in Oracle. Verify identifier case."
  return out

/-- Any text with at most one level of parentheses, up to a closing one. -/
def restOfList : Pattern :=
  Paren.flat ++ many (sym '(' ++ Paren.flat ++ sym ')' ++ Paren.flat) ++ sym ')'

def hintNames : Pattern :=
  oneOf ["NOLOCK", "READUNCOMMITTED", "READCOMMITTED", "READPAST", "ROWLOCK", "PAGLOCK",
    "TABLOCK" ++ opt "X", "UPDLOCK", "XLOCK", "HOLDLOCK", "NOWAIT", "SERIALIZABLE",
    "REPEATABLEREAD", "INDEX"]

/-- The hints of a table, with the blanks before them. -/
def tableHint : Pattern :=
  oneOf [
    blanks ++ edge ++ "WITH" ++ blanks ++ sym '(' ++ blanks ++ hintNames ++ edge ++ restOfList,
    blanks ++ sym '(' ++ blanks ++ "NOLOCK" ++ blanks ++ sym ')']

/-- The options of a query, with the blanks before them. -/
def queryOption : Pattern :=
  blanks ++ edge ++ "OPTION" ++ blanks ++ sym '(' ++ restOfList

def tableHints (sql : Text) : Reporting Text := do
  let once ← replaceSpans sql tableHint fun _ => return some []
  let out ← replaceSpans once queryOption fun _ => return some []
  if tableHint.occursIn (mask sql) || queryOption.occursIn (mask once) then
    warnOnce .tableHint "Table hints and OPTION clauses were removed. Oracle expresses optimizer hints as /*+ ... */ comments."
  return out

def afterFrom : Pattern :=
  edge ++ oneOf ["WHERE", "GROUP" ++ blanks1 ++ "BY", "HAVING", "ORDER" ++ blanks1 ++ "BY"] ++ edge

/-- A text to put in and the offset where it goes. -/
structure Insertion where
  place : Nat
  text : Text
  deriving DecidableEq, Repr

/-- What the query block that starts at `body` lacks: nothing if it has a `FROM`, otherwise a
`FROM DUAL` before its conditions or at its end. -/
def missingFrom? (sql masked : Text) (body : Nat) : Option (Option Insertion) := do
  let stop := scopeEnd masked body
  let operators ← depthZeroMatches? masked body stop setOperator
  let blockStop := (operators.head?.map Span.start).getD stop
  if !(← depthZeroMatches? masked body blockStop (keyword "FROM")).isEmpty then return none
  match (← depthZeroMatches? masked body blockStop afterFrom).head? with
  | some clause => return some ⟨clause.start, "FROM DUAL "⟩
  | none =>
    let content := Text.dropTrailing isBlockEnd (← Text.slice? sql body blockStop)
    return some ⟨body + Text.width content, " FROM DUAL"⟩

/-- Every query block without a `FROM` gets a `FROM DUAL`. The insertions are made from the
right, so that the offsets of the others stay good. -/
def fromDual (sql : Text) : Reporting Text := do
  let masked := mask sql
  let missing ← ((keyword "SELECT").findAll masked).mapM fun m => missingFrom? sql masked m.stop
  let insertions := missing.filterMap id
  (insertions.mergeSort fun a b => b.place ≤ a.place).foldlM
    (fun out i => Text.insert? out i.place i.text) sql

end DialectBridge.ToOracle
