import DialectBridge.Format.ConvertStyle
import DialectBridge.Format.DataType
import DialectBridge.Format.DateMask
import DialectBridge.Format.NumberMask
import DialectBridge.Sql.Call
import DialectBridge.Warning
/-!
# Function calls of T-SQL

Rules that turn calls of T-SQL functions into Oracle expressions. A call with a number of
arguments that the rule does not know is left alone.
-/
namespace DialectBridge.ToOracle
open Pattern

/-- `ISNULL` becomes `NVL`, and `IIF` a `CASE`. -/
def nullFunctions (sql : Text) : Reporting Text := do
  let sql ← renameCalls sql "ISNULL" "NVL"
  replaceCalls sql "IIF" fun call =>
    match call.args with
    | [condition, yes, no] =>
      return some <|
        "CASE WHEN " ++ condition ++ " THEN " ++ yes ++ " ELSE " ++ no ++ " END"
    | _ => return none

/-- A cast to `DATE` becomes `TRUNC`; another type gets its Oracle spelling. -/
def castTypes (sql : Text) : Reporting Text :=
  replaceCalls sql "CAST" fun call =>
    match call.args with
    | [arg] =>
      return do
        let m ← DataType.castTarget.find? arg
        let type := Text.trim (m.groupD 2)
        if Text.sameLetters type "DATE" then some ("TRUNC(" ++ m.groupD 1 ++ ")")
        else return "CAST(" ++ m.groupD 1 ++ " AS " ++ (← DataType.toOracle? type) ++ ")"
    | _ => return none

/-- A call of `name` and nothing else; what stands between the parentheses is group 1. -/
def wholeCall (name : Text) : Pattern :=
  textStart ++ word name ++ blanks ++ sym '(' ++ .group 1 (many1 anyChar) ++ sym ')' ++ textEnd

/-- The date that `DATEFROMPARTS(YEAR(d), MONTH(d), 1)` cuts to its month, or
`DATEFROMPARTS(YEAR(d), 1, 1)` to its year. -/
def truncFromParts? (year month day : Text) : Option Text := do
  let date := Text.trim ((← (wholeCall "YEAR").find? year).groupD 1)
  if day ≠ "1".toList then none
  else if month = "1".toList then some ("TRUNC(" ++ date ++ ", 'YYYY')")
  else
    let m ← (wholeCall "MONTH").find? month
    if Text.trim (m.groupD 1) = date then some ("TRUNC(" ++ date ++ ", 'MM')") else none

/-- The date that is `amount` units after `date`. -/
def dateAdd? (unit amount date : Text) : Option Text :=
  let is (names : List String) : Bool := names.any (·.toList == Text.upper unit)
  if is ["MONTH", "MM", "M"] then some ("ADD_MONTHS(" ++ date ++ ", " ++ amount ++ ")")
  else if is ["YEAR", "YYYY", "YY"] then
    some ("ADD_MONTHS(" ++ date ++ ", 12 * (" ++ amount ++ "))")
  else if is ["DAY", "DD", "D"] then some ("(" ++ date ++ " + " ++ amount ++ ")")
  else if is ["WEEK", "WK", "WW"] then some ("(" ++ date ++ " + 7 * (" ++ amount ++ "))")
  else if is ["HOUR", "HH"] then some ("(" ++ date ++ " + (" ++ amount ++ ") / 24)")
  else if is ["MINUTE", "MI", "N"] then some ("(" ++ date ++ " + (" ++ amount ++ ") / 1440)")
  else if is ["SECOND", "SS", "S"] then some ("(" ++ date ++ " + (" ++ amount ++ ") / 86400)")
  else none

/-- The warning for a date function with a unit that has no counterpart. -/
def unknownUnit (function : String) (unit : Text) : Text :=
  function ++ "(" ++ unit ++
    ", ...) has no direct Oracle equivalent. Manual conversion required."

/-- `DATEADD` becomes arithmetic on dates. -/
def dateAdd (sql : Text) : Reporting Text :=
  replaceCalls sql "DATEADD" fun call =>
    match call.args with
    | [unit, amount, date] =>
      match dateAdd? unit amount date with
      | some new => return some new
      | none => do
        warn .dateArithmetic (unknownUnit "DATEADD" unit)
        return none
    | _ => return none

/-- `DATEDIFF` becomes `MONTHS_BETWEEN` or a difference of days. -/
def dateDiff (sql : Text) : Reporting Text :=
  replaceCalls sql "DATEDIFF" fun call =>
    match call.args with
    | [unit, start, finish] =>
      let is (names : List String) : Bool := names.any (·.toList == Text.upper unit)
      if is ["MONTH", "MM", "M"] then do
        warnOnce .dateArithmetic "DATEDIFF(MONTH, ...) converted to MONTHS_BETWEEN, which returns fractional months. Wrap it in TRUNC() if whole months are required."
        return some ("MONTHS_BETWEEN(" ++ finish ++ ", " ++ start ++ ")")
      else if is ["DAY", "DD", "D"] then
        return some ("(TRUNC(" ++ finish ++ ") - TRUNC(" ++ start ++ "))")
      else do
        warn .dateArithmetic (unknownUnit "DATEDIFF" unit)
        return none
    | _ => return none

def dateFunctions (sql : Text) : Reporting Text := do
  let sql ← castTypes sql
  let sql ← replaceCalls sql "DATEFROMPARTS" fun call =>
    match call.args with
    | [year, month, day] => return truncFromParts? year month day
    | _ => return none
  let sql ← dateAdd sql
  let sql ← dateDiff sql
  replaceCalls sql "EOMONTH" fun call =>
    match call.args with
    | [date] => return some ("LAST_DAY(" ++ date ++ ")")
    | [date, months] => return some ("LAST_DAY(ADD_MONTHS(" ++ date ++ ", " ++ months ++ "))")
    | _ => return none

def dateType : Pattern :=
  textStart ++
    oneOf ["DATE", "DATETIME",
      "DATETIME2" ++ opt (blanks ++ sym '(' ++ blanks ++ digits1 ++ blanks ++ sym ')'),
      "SMALLDATETIME"] ++
    textEnd

def charType : Pattern :=
  textStart ++ opt "N" ++ opt "VAR" ++ "CHAR" ++
    opt (blanks ++ sym '(' ++ blanks ++ oneOf [digits1, "MAX"] ++ blanks ++ sym ')') ++
    textEnd

/-- The Oracle function that converts to a type. -/
def converterFor? (type : Text) : Option String :=
  if dateType.occursIn type then some "TO_DATE"
  else if charType.occursIn type then some "TO_CHAR"
  else none

/-- `CONVERT` with a type, a value and perhaps a style. -/
def convertCall (type value : Text) (style : Option Text) : Reporting (Option Text) := do
  let mask := style.map fun s => (ConvertStyle.readStyle? s).bind ConvertStyle.mask?
  match style, mask with
  | some style, some none =>
    warn .dateFormat <|
      "CONVERT style " ++ style ++
        " has no known Oracle format mask. Manual conversion required."
    return none
  | _, _ =>
    match converterFor? type with
    | none =>
      warn .unsupported <|
        "CONVERT to " ++ type ++ " has no direct Oracle equivalent. Manual conversion required."
      return none
    | some function =>
      match mask.join with
      | some mask => return some (function ++ "(" ++ value ++ ", '" ++ mask ++ "')")
      | none => return some (function ++ "(" ++ value ++ ")")

/-- `CONVERT` becomes `TO_DATE` or `TO_CHAR`, and `FORMAT` becomes `TO_CHAR`. -/
def conversionFunctions (sql : Text) : Reporting Text := do
  let sql ← replaceCalls sql "CONVERT" fun call =>
    match call.args with
    | [type, value] => convertCall type value none
    | [type, value, style] => convertCall type value (some style)
    | _ => return none
  replaceCalls sql "FORMAT" fun call =>
    match call.args with
    | [value, format] =>
      match unquote? format with
      | none => do
        warn .dateFormat <|
          "FORMAT with a computed format (" ++ format ++ ") cannot be converted automatically."
        return none
      | some mask =>
        let new := if NumberMask.isNet mask then NumberMask.toOracle mask else DateMask.toOracle mask
        return some ("TO_CHAR(" ++ value ++ ", '" ++ new ++ "')")
    | _ => do
      warn .dateFormat "FORMAT with a culture argument cannot be converted automatically."
      return none

def stringFunctions (sql : Text) : Reporting Text := do
  let sql ← renameCalls sql "SUBSTRING" "SUBSTR"
  let sql ← replaceCalls sql "CHARINDEX" fun call =>
    match call.args with
    | [needle, text] => return some ("INSTR(" ++ text ++ ", " ++ needle ++ ")")
    | [needle, text, start] =>
      return some ("INSTR(" ++ text ++ ", " ++ needle ++ ", " ++ start ++ ")")
    | _ => return none
  let sql ← renameCalls sql "DATALENGTH" "LENGTHB"
  renameCalls sql "LEN" "LENGTH"

/-- `STRING_AGG` becomes `LISTAGG`, which needs an order; without one it is the value. -/
def stringAgg (sql : Text) : Reporting Text :=
  replaceCallsWithTail sql "STRING_AGG" fun call => do
    match call.args with
    | [value, separator] =>
      let (order, consumed) := (← withinGroup? call.tail).getD (value, 0)
      return some ("LISTAGG(" ++ value ++ ", " ++ separator ++ ") WITHIN GROUP (ORDER BY " ++
        order ++ ")", consumed)
    | _ => return none

/-- Statistical aggregates and their Oracle names, in the order in which they are renamed. -/
def aggregateNames : List (String × String) := [
  ("STDEVP", "STDDEV_POP"), ("STDEV", "STDDEV"), ("VARP", "VAR_POP"), ("VAR", "VARIANCE")]

def emptyOver : Pattern :=
  textStart ++ blanks ++ "OVER" ++ blanks ++ sym '(' ++ blanks ++ sym ')'

/-- Statistical aggregates are renamed, and a percentile of one half over the whole result
becomes `MEDIAN`. -/
def aggregates (sql : Text) : Reporting Text := do
  let sql ← aggregateNames.foldlM (fun sql names => renameCalls sql names.1 names.2) sql
  replaceCallsWithTail sql "PERCENTILE_CONT" fun call => do
    if call.args ≠ ["0.5".toList] then return none
    match ← withinGroup? call.tail with
    | none => return none
    | some (order, consumed) =>
      match emptyOver.find? (← Text.from? call.tail consumed) with
      | none => return none
      | some window =>
        if order.contains ',' || "DESC".toList.isSuffixOf (Text.upper order) then return none
        return some ("MEDIAN(" ++ order ++ ")", consumed + window.stop)

end DialectBridge.ToOracle
