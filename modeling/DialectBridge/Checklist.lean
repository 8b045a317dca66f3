import DialectBridge.ToTsql.Aggregates
/-!
# The checklist for a converted query

Five checks look in a T-SQL query for what the rules should have removed and for what a human
has still to do. A report renders their outcome; a query is ready when no check fails.
-/
namespace DialectBridge.Checklist
open Pattern

/-- How bad a failed check is. -/
inductive Severity where
  | ok
  | warning
  | critical
  deriving DecidableEq, Repr

def Severity.name : Severity → String
  | ok => "OK"
  | warning => "WARNING"
  | critical => "CRITICAL"

/-- The outcome of a check. A check that passed has severity `ok`. -/
structure Outcome where
  name : String
  passed : Bool
  severity : Severity
  message : Text
  /-- What has to be done by hand. -/
  action : Option Text
  deriving DecidableEq, Repr

namespace Outcome

def pass (name : String) (message : Text) : Outcome := ⟨name, true, .ok, message, none⟩

def fail (name : String) (severity : Severity) (message : Text) (action : Option Text) : Outcome :=
  ⟨name, false, severity, message, action⟩

def title (o : Outcome) : Text := (Text.upper o.name).map fun c => if c = '_' then ' ' else c

/-- The lines that show the outcome. -/
def render (o : Outcome) : List Text :=
  let status : Text := if o.passed then "[PASS] " else "[FAIL] "
  let action : List Text := match o.action with
    | some a => ["    ACTION: " ++ a]
    | none => []
  ([[], status ++ o.title, ("    Status: " : Text) ++ o.severity.name, "    " ++ o.message] :
    List Text) ++ action

end Outcome

/-- The outcome of all checks of a query. -/
structure Report where
  outcomes : List Outcome
  deriving DecidableEq, Repr

namespace Report

def total (r : Report) : Nat := r.outcomes.length

def passed (r : Report) : Nat := r.outcomes.countP (·.passed)

def failures (r : Report) (s : Severity) : Nat :=
  r.outcomes.countP fun o => !o.passed && o.severity == s

/-- Whether no critical check failed. -/
def overallPass (r : Report) : Bool := r.failures .critical == 0

/-- Whether no check failed. -/
def ready (r : Report) : Bool := r.failures .critical == 0 && r.failures .warning == 0

def ruler : Text := List.replicate 80 '='

def render (r : Report) : Text :=
  let overall : Text := if r.overallPass then "PASS" else "FAIL"
  let ready : Text := if r.ready then "YES" else "NO (manual fixes required)"
  let head : List Text := [ruler, "QA CHECKLIST REPORT", ruler]
  let summary : List Text := [
    [], ruler, "SUMMARY", ruler,
    "Total Checks: " ++ Text.ofNat r.total,
    "Passed: " ++ Text.ofNat r.passed,
    "Critical Failures: " ++ Text.ofNat (r.failures .critical),
    "Warnings: " ++ Text.ofNat (r.failures .warning), [],
    "Overall Status: " ++ overall,
    "Ready for SQL Server execution: " ++ ready, ruler]
  Text.join "\n" (head ++ r.outcomes.flatMap Outcome.render ++ summary)

end Report

/-! ## The checks -/

def htmlEntities : List String := ["&gt;", "&lt;", "&amp;", "&quot;", "&apos;", "&nbsp;"]

/-- No entity is left outside of comments. -/
def checkHtmlEntities (uncommented : Text) : Outcome :=
  let found := htmlEntities.filter fun e => Text.has e.toList uncommented
  if found.isEmpty then .pass "html_entities" "No HTML entities remain"
  else
    .fail "html_entities" .critical
      ("Found HTML entities: " ++ Text.join ", " (found.map String.toList)) none

/-- Functions of Oracle that must not be left. -/
def oracleFunctions : List String := ["NVL", "NVL2", "DECODE", "TRUNC", "ADD_MONTHS", "SUBSTR",
  "INSTR", "TO_CHAR", "TO_DATE", "LISTAGG"]

def oracleKeywords : List String := ["SYSDATE", "SYSTIMESTAMP", "ROWNUM"]

/-- A call of a function of Oracle; its name is group 1. -/
def oracleCall : Pattern :=
  edge ++ .group 1 (oneOf (oracleFunctions.map fun f => word f.toList)) ++ blanks ++ sym '('

def oracleKeyword : Pattern :=
  edge ++ .group 1 (oneOf (oracleKeywords.map fun w => word w.toList)) ++ edge

/-- What is left of Oracle in a masked query, each name once. -/
def oracleRemains (masked : Text) : List String :=
  -- only letters of ASCII become capitals: a long s that was taken for an s stays
  let seen := (oracleCall.findAll masked ++ oracleKeyword.findAll masked).map fun m =>
    Text.upper (m.groupD 1)
  (oracleFunctions ++ oracleKeywords).filter (fun name => seen.contains name.toList) ++
    if Text.has "||" masked then ["||"] else []

/-- Nothing of Oracle is left in code. -/
def checkOracleFunctions (masked : Text) : Outcome :=
  let found := oracleRemains masked
  if found.isEmpty then .pass "oracle_functions" "All Oracle functions converted"
  else
    .fail "oracle_functions" .critical
      ("Oracle functions still present: " ++ Text.join ", " (found.map String.toList)) none

def stringAggCall : Pattern := edge ++ "STRING_AGG" ++ blanks ++ sym '('

/-- An aggregate over a derived set of distinct values. -/
def distinctDerivedSet : Pattern :=
  "SELECT" ++ blanks1 ++ "STRING_AGG" ++ .star false anyChar ++ "FROM" ++ blanks ++ sym '(' ++
    blanks ++ "SELECT" ++ blanks1 ++ "DISTINCT" ++ edge

/-- No skeleton of a distinct aggregate is left to fill in. -/
def checkStringAggDistinct (converted masked placeholder : Text) : Outcome :=
  let name := "string_agg_distinct"
  if !stringAggCall.occursIn masked then .pass name "No STRING_AGG in query (N/A)"
  else if !distinctDerivedSet.occursIn masked then
    .pass name "STRING_AGG found (non-DISTINCT or already correct)"
  else if Text.has placeholder converted then
    .fail name .warning
      ("STRING_AGG DISTINCT pattern found but requires manual fix (replace " ++ placeholder ++
        " placeholder)")
      (some ("Replace " ++ placeholder ++
        " with the actual table or CTE and add the WHERE correlation"))
  else .pass name "STRING_AGG DISTINCT uses a derived set"

def regexpCall : Pattern := edge ++ "REGEXP_" ++ ToTsql.regexpNames ++ blanks ++ sym '('

/-- Regular expression functions come with their warning and their marker. -/
def checkRegexp (converted masked : Text) (raised : List Category) : Outcome :=
  let name := "regexp_like"
  if !regexpCall.occursIn masked then .pass name "No REGEXP functions in query (N/A)"
  else if !raised.contains .regexpLike then
    .fail name .warning "REGEXP functions found but missing version warning" none
  else if Text.has ToTsql.regexpMarker converted then
    .pass name "REGEXP functions carry the version warning"
  else .fail name .warning "REGEXP functions found but the version comment is missing" none

/-- What is wrong with the shape of a query. -/
def syntaxIssues (uncommented masked : Text) : List Text :=
  let opened := masked.count '('
  let closed := masked.count ')'
  (if Text.has "&gt;" uncommented || Text.has "&lt;" uncommented then
    ["HTML entities in operators".toList] else []) ++
  (if opened ≠ closed then
    ["Unbalanced parentheses: " ++ Text.ofNat opened ++ " open, " ++ Text.ofNat closed ++ " close"]
    else []) ++
  (if (keyword "SELECT").occursIn masked then [] else ["Missing SELECT keyword".toList])

def checkSyntax (uncommented masked : Text) : Outcome :=
  let issues := syntaxIssues uncommented masked
  if issues.isEmpty then .pass "syntax" "Basic syntax checks passed"
  else .fail "syntax" .critical ("Syntax issues: " ++ Text.join "; " issues) none

/-- Runs every check on a converted query, given the categories of the warnings that came with
it. -/
def run (converted : Text) (raised : List Category) (placeholder : Text) : Report :=
  let masked := mask converted
  let uncommented := maskComments converted
  ⟨[checkHtmlEntities uncommented, checkOracleFunctions masked,
    checkStringAggDistinct converted masked placeholder, checkRegexp converted masked raised,
    checkSyntax uncommented masked]⟩

end DialectBridge.Checklist
