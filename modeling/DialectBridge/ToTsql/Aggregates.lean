import DialectBridge.Sql.Call
import DialectBridge.Warning
/-!
# Aggregates and regular expressions of Oracle

`LISTAGG(DISTINCT ...)` has no counterpart. It becomes the skeleton of a subquery, in which the
placeholder stands for the table that a human has to fill in.
-/
namespace DialectBridge.ToTsql
open Pattern

/-- An argument that begins with `DISTINCT`; the rest is group 1. -/
def distinctArgument : Pattern :=
  textStart ++ "DISTINCT" ++ blanks1 ++ .group 1 (many1 anyChar) ++ textEnd

def descending : Pattern := edge ++ "DESC" ++ textEnd

/-- The column that the skeleton gives to a value: the last part of a name, else `val`. -/
def skeletonColumn (value : Text) : Text :=
  if isIdentifierPath value then ((Text.splitOn (· == '.') value).getLast?).getD "val" else "val"

def distinctSkeleton (placeholder value separator : Text) (order : Option Text) : Text :=
  let column := skeletonColumn value
  let direction : Text := if order.any descending.occursIn then " DESC" else ""
  "(SELECT STRING_AGG(dv." ++ column ++ ", " ++ separator ++ ") WITHIN GROUP (ORDER BY dv." ++
    column ++ direction ++ ") FROM (SELECT DISTINCT " ++ value ++ " AS " ++ column ++ " FROM " ++
    placeholder ++ " WHERE 1 = 1 /* correlate with the outer query */) AS dv)"

/-- `LISTAGG` becomes `STRING_AGG`; the clause `WITHIN GROUP` goes along. -/
def listagg (placeholder sql : Text) : Reporting Text :=
  replaceCallsWithTail sql "LISTAGG" fun call => do
    let parts : Option (Text × Text) := match call.args with
      | [expr] => some (expr, "''")
      | [expr, separator] => some (expr, separator)
      | _ => none
    match parts with
    | none => return none
    | some (expr, separator) =>
      let clause ← withinGroup? call.tail
      let order := clause.map Prod.fst
      let consumed := (clause.map Prod.snd).getD 0
      match distinctArgument.find? expr with
      | none =>
        let suffix : Text := match order with
          | some order => " WITHIN GROUP (ORDER BY " ++ order ++ ")"
          | none => []
        return some ("STRING_AGG(" ++ expr ++ ", " ++ separator ++ ")" ++ suffix, consumed)
      | some m =>
        warn .listaggDistinct <|
          "LISTAGG(DISTINCT ...) has no direct T-SQL equivalent. A STRING_AGG subquery skeleton was generated: replace " ++
            placeholder ++ " with the source table and add the correlation to the outer query."
        return some (distinctSkeleton placeholder (Text.trim (m.groupD 1)) separator order, consumed)

/-- Statistical aggregates and their T-SQL names, in the order in which they are renamed. -/
def aggregateNames : List (String × String) := [
  ("STDDEV_POP", "STDEVP"), ("STDDEV_SAMP", "STDEV"), ("STDDEV", "STDEV"), ("VAR_POP", "VARP"),
  ("VAR_SAMP", "VAR"), ("VARIANCE", "VAR")]

def overAhead : Pattern := textStart ++ blanks ++ "OVER" ++ edge

/-- Statistical aggregates are renamed; `MEDIAN` becomes a percentile over a window. -/
def aggregates (sql : Text) : Reporting Text := do
  let sql ← aggregateNames.foldlM (fun sql names => renameCalls sql names.1 names.2) sql
  replaceCalls sql "MEDIAN" fun call =>
    match call.args with
    | [value] => do
      warnOnce .aggregation "MEDIAN converted to PERCENTILE_CONT(0.5), which is a window function in T-SQL. Rework GROUP BY queries accordingly."
      let window : Text := if overAhead.occursIn call.tail then "" else " OVER ()"
      return some ("PERCENTILE_CONT(0.5) WITHIN GROUP (ORDER BY " ++ value ++ ")" ++ window)
    | _ => return none

/-- The comment put in front of each call of a regular expression function. -/
def regexpMarker : Text := "/* WARNING: Requires SQL Server 2025+ for REGEXP functions. For older SQL Server: rewrite with LIKE/PATINDEX or CLR. */"

/-- The names of the regular expression functions after `REGEXP_`. -/
def regexpNames : Pattern := oneOf ["LIKE", "SUBSTR", "REPLACE", "INSTR", "COUNT"]

def regexpWord : Pattern := edge ++ "REGEXP_" ++ regexpNames ++ edge

/-- The marker is put in front of each name of a regular expression function that does not have
it yet. -/
def regexpFunctions (sql : Text) : Reporting Text := do
  let out ← replaceSpans sql regexpWord fun m => do
    let before ← Text.upTo? sql m.start
    if regexpMarker.isSuffixOf (Text.trimEnd before) then return none
    else return some (regexpMarker ++ " " ++ (← Text.slice? sql m.start m.stop))
  if regexpWord.occursIn (mask sql) then
    warnOnce .regexpLike "REGEXP functions require SQL Server 2025 or later. On older versions rewrite them with LIKE, PATINDEX or CLR functions."
  return out

end DialectBridge.ToTsql
