import DialectBridge.Warning
/-!
# Constructs left to a human

Some constructs are reported and not changed. Detection reads the masked query, so that
literals and comments raise nothing, and never edits.
-/
namespace DialectBridge.Detection
open Pattern

/-- A pattern and the warning that it raises. -/
structure Check where
  pattern : Pattern
  category : Category
  message : String

def oracleChecks : List Check := [
  { pattern := oneOf [
      edge ++ "CONNECT" ++ blanks1 ++ "BY" ++ edge,
      edge ++ "START" ++ blanks1 ++ "WITH" ++ edge,
      keyword "SYS_CONNECT_BY_PATH"]
    category := .hierarchical
    message := "CONNECT BY detected. Hierarchical queries require manual conversion using CTEs or recursive queries." },
  { pattern := oneOf [
      sym '+' ++ blanks ++ digits1 ++ blanks ++ sym '/' ++ blanks ++ "24" ++ edge,
      keyword "INTERVAL"]
    category := .dateArithmetic
    message := "Complex date arithmetic detected. Verify DATEADD() conversion is semantically correct." },
  { pattern := sym '(' ++ blanks ++ sym '+' ++ blanks ++ sym ')'
    category := .outerJoin
    message := "Oracle outer join operator (+) detected. Rewrite the join with LEFT or RIGHT OUTER JOIN." },
  { pattern := keyword "ROWID"
    category := .pseudocolumn
    message := "ROWID has no T-SQL equivalent. Use the table's primary key instead." },
  { pattern := sym '.' ++ blanks ++ oneOf ["NEXTVAL", "CURRVAL"] ++ edge
    category := .sequence
    message := "Sequence access (.NEXTVAL/.CURRVAL) must be rewritten as NEXT VALUE FOR <sequence>." },
  { pattern := oneOf [
      edge ++ "FETCH" ++ blanks1 ++ oneOf ["FIRST", "NEXT"] ++ blanks1 ++ digits1 ++ blanks1 ++
        "PERCENT" ++ edge,
      edge ++ "ROW" ++ opt "S" ++ blanks1 ++ "WITH" ++ blanks1 ++ "TIES" ++ edge]
    category := .rowLimit
    message := "FETCH FIRST with PERCENT or WITH TIES needs manual conversion to TOP ... PERCENT / WITH TIES." },
  { pattern := edge ++ "KEEP" ++ blanks ++ sym '(' ++ blanks ++ "DENSE_RANK" ++ edge
    category := .aggregation
    message := "KEEP (DENSE_RANK FIRST/LAST ...) has no T-SQL equivalent. Rewrite with ROW_NUMBER() or FIRST_VALUE()." },
  { pattern := edge ++ opt "UN" ++ "PIVOT" ++ blanks ++ sym '('
    category := .unsupported
    message := "PIVOT/UNPIVOT syntax differs between Oracle and T-SQL. Manual review required." }]

def plainName : Pattern :=
  one ⟨[(0x41, 0x5A), (0x5F, 0x5F), (0x61, 0x7A)]⟩ ++ many (one .word)

def tsqlChecks : List Check := [
  { pattern := sym '@' ++ opt (sym '@') ++ plainName
    category := .tsqlOnly
    message := "T-SQL variables (@name) must be replaced with Oracle bind variables (:name)." },
  { pattern := oneOf [textStart, one .blank, sym ',', sym '('] ++ sym '#' ++ opt (sym '#') ++ plainName
    category := .tsqlOnly
    message := "Temporary tables (#name) must be replaced with global temporary tables or a WITH clause." },
  { pattern := edge ++ "TOP" ++ blanks ++
      oneOf [sym '(' ++ blanks ++ digits1 ++ blanks ++ sym ')', digits1] ++ blanks1 ++
      oneOf ["PERCENT", "WITH" ++ blanks1 ++ "TIES"] ++ edge
    category := .rowLimit
    message := "TOP ... PERCENT / WITH TIES needs manual conversion to FETCH FIRST ... PERCENT / WITH TIES." },
  { pattern := edge ++ oneOf ["CROSS", "OUTER"] ++ blanks1 ++ "APPLY" ++ edge
    category := .unsupported
    message := "CROSS/OUTER APPLY requires Oracle 12c or later. Verify the target version or rewrite with LATERAL." },
  { pattern := edge ++ "TRY_" ++ oneOf ["CAST", "CONVERT"] ++ blanks ++ sym '('
    category := .unsupported
    message := "TRY_CAST/TRY_CONVERT have no direct Oracle equivalent. Use CAST(... DEFAULT NULL ON CONVERSION ERROR) on Oracle 12.2 or later." }]

/-- Raises the warning of each check whose pattern occurs. -/
def runChecks (masked : Text) (checks : List Check) : Reporting Unit :=
  checks.forM fun check => do
    if check.pattern.occursIn masked then warnOnce check.category check.message

def subqueryOpen : Pattern := sym '(' ++ blanks ++ "SELECT" ++ edge

/-- Whether some subquery, subqueries in it included, has a `WHERE`. -/
def hasSubqueryWithWhere? (masked : Text) : Option Bool :=
  (subqueryOpen.findAll masked).anyM fun m =>
    match matchingParen? masked m.start with
    | none => return false
    | some closing => do return (keyword "WHERE").occursIn (← Text.slice? masked m.start closing)

/-- A list in parentheses and an `IN` with another one. -/
def tupleIn : Pattern :=
  sym '(' ++ Paren.flat ++ sym ',' ++ Paren.flat ++ sym ')' ++ blanks ++ opt ("NOT" ++ blanks1) ++ "IN" ++
    blanks ++ sym '('

/-- The word at the end of a text, as group 1. -/
def trailingWord : Pattern := .group 1 (many1 (one .word)) ++ blanks ++ textEnd

/-- Words after which a list in parentheses is a row value, and not the arguments of a call. -/
def conditionKeywords : List String := ["WHERE", "AND", "OR", "NOT", "ON", "WHEN", "HAVING"]

/-- Whether a row value is tested for membership. -/
def hasTupleMembership (masked : Text) : Bool :=
  (tupleIn.findAll masked).any fun m =>
    match trailingWord.find? m.first.left.text.reverse with
    | some w => conditionKeywords.any fun k => Text.sameLetters (w.groupD 1) k
    | none => true -- a call would have its name there

/-- Reports the constructs of Oracle that no rule changes. -/
def detectOracle (sql : Text) : Reporting Text := do
  let masked := mask sql
  runChecks masked oracleChecks
  if (keyword "ROWNUM").occursIn masked &&
      (edge ++ "ORDER" ++ blanks1 ++ "BY" ++ edge).occursIn masked then
    warnOnce .rowLimit "ROWNUM used with ORDER BY. Manual review required - results may differ. Consider using ROW_NUMBER() OVER(ORDER BY ...) instead."
  if ← hasSubqueryWithWhere? masked then
    warnOnce .correlatedSubquery "Possible correlated subquery detected. Verify query logic after conversion."
  if hasTupleMembership masked then
    warnOnce .tupleMembership "Tuple membership test ((a, b) IN (...)) is not supported in T-SQL. Rewrite with EXISTS or a JOIN."
  return sql

/-- Reports the constructs of T-SQL that no rule changes. -/
def detectTsql (sql : Text) : Reporting Text := do
  runChecks (mask sql) tsqlChecks
  return sql

end DialectBridge.Detection
