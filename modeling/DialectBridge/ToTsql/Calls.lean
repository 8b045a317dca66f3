import DialectBridge.Format.ConvertStyle
import DialectBridge.Format.DataType
import DialectBridge.Format.DateMask
import DialectBridge.Format.NumberMask
import DialectBridge.Sql.Call
import DialectBridge.Warning
/-!
# Function calls of Oracle

Rules that turn calls of Oracle functions into T-SQL expressions. A call with a number of
arguments that the rule does not know is left alone.
-/
namespace DialectBridge.ToTsql
open Pattern

/-- `NVL` becomes `ISNULL`. -/
def nvl (sql : Text) : Reporting Text := renameCalls sql "NVL" "ISNULL"

/-- `NVL2` becomes a `CASE`. -/
def nvl2 (sql : Text) : Reporting Text :=
  replaceCalls sql "NVL2" fun call =>
    match call.args with
    | [value, ifSet, ifNull] =>
      return some <|
        "CASE WHEN " ++ value ++ " IS NOT NULL THEN " ++ ifSet ++ " ELSE " ++ ifNull ++ " END"
    | _ => return none

/-- The branches of a `CASE` for the searches and results of `DECODE`; a text left over is the
default. A search for `NULL` tests with `IS NULL`. -/
def decodeBranches (expr : Text) : List Text → Text
  | search :: result :: more =>
    let test : Text := if Text.sameLetters search "NULL" then " IS NULL" else " = " ++ search
    " WHEN " ++ expr ++ test ++ " THEN " ++ result ++ decodeBranches expr more
  | [otherwise] => " ELSE " ++ otherwise
  | [] => []

def decode (sql : Text) : Reporting Text :=
  replaceCalls sql "DECODE" fun call =>
    match call.args with
    | expr :: search :: result :: more =>
      return some <|
        "CASE" ++ decodeBranches expr (search :: result :: more) ++ " END"
    | _ => return none

/-- The type of a `CAST` gets its T-SQL spelling. -/
def castTypes (sql : Text) : Reporting Text :=
  replaceCalls sql "CAST" fun call =>
    match call.args with
    | [arg] =>
      return do
        let m ← DataType.castTarget.find? arg
        let type ← DataType.toTsql? (m.groupD 2)
        return "CAST(" ++ m.groupD 1 ++ " AS " ++ type ++ ")"
    | _ => return none

def integer : Pattern := textStart ++ opt (sym '-') ++ digits1 ++ textEnd

/-- The units that `TRUNC` cuts dates to, and how T-SQL does it. -/
def truncToUnit? (value unit : Text) : Option Text :=
  if ["DD", "DDD", "J"].any (·.toList == unit) then
    some ("CAST(" ++ value ++ " AS DATE)")
  else if ["MM", "MON", "MONTH", "RM"].any (·.toList == unit) then
    some ("DATEFROMPARTS(YEAR(" ++ value ++ "), MONTH(" ++ value ++ "), 1)")
  else if ["YYYY", "SYYYY", "YYY", "YY", "Y", "YEAR", "SYEAR"].any (·.toList == unit) then
    some ("DATEFROMPARTS(YEAR(" ++ value ++ "), 1, 1)")
  else none

/-- `TRUNC` of a date becomes a cast or a date made of parts, `TRUNC` of a number a `ROUND`. -/
def trunc (sql : Text) : Reporting Text :=
  replaceCalls sql "TRUNC" fun call =>
    match call.args with
    | [value] => return some ("CAST(" ++ value ++ " AS DATE)")
    | [value, unit] =>
      if integer.occursIn unit then
        return some ("ROUND(" ++ value ++ ", " ++ unit ++ ", 1)")
      else match unquote? unit with
        | none => do
          warn .dateFormat <|
            "TRUNC with a computed format (" ++ unit ++ ") cannot be converted automatically."
          return none
        | some mask =>
          match truncToUnit? value (Text.upper (Text.trim mask)) with
          | some new => return some new
          | none => do
            warn .dateFormat <|
              "TRUNC with format '" ++ mask ++
                "' has no direct T-SQL equivalent. Manual conversion required."
            return none
    | _ => return none

/-- Functions that count in months. -/
def dateFunctions (sql : Text) : Reporting Text := do
  let sql ← replaceCalls sql "ADD_MONTHS" fun call =>
    match call.args with
    | [date, months] => return some ("DATEADD(MONTH, " ++ months ++ ", " ++ date ++ ")")
    | _ => return none
  let sql ← replaceCalls sql "MONTHS_BETWEEN" fun call =>
    match call.args with
    | [later, earlier] => do
      warnOnce .dateArithmetic "MONTHS_BETWEEN converted to DATEDIFF(MONTH, ...), which counts month boundaries and returns an integer. Verify fractional month logic."
      return some ("DATEDIFF(MONTH, " ++ earlier ++ ", " ++ later ++ ")")
    | _ => return none
  renameCalls sql "LAST_DAY" "EOMONTH"

/-- `TO_CHAR` becomes a cast or a `FORMAT`. -/
def toChar (sql : Text) : Reporting Text :=
  replaceCalls sql "TO_CHAR" fun call =>
    match call.args with
    | [value] => return some ("CAST(" ++ value ++ " AS VARCHAR(4000))")
    | [value, format] =>
      match unquote? format with
      | none => do
        warn .dateFormat <|
          "TO_CHAR with a computed format (" ++ format ++ ") cannot be converted automatically."
        return none
      | some mask =>
        if NumberMask.isOracle mask then do
          warn .dateFormat <|
            "TO_CHAR number format '" ++ mask ++
              "' converted to FORMAT(). Verify rounding and padding."
          return some ("FORMAT(" ++ value ++ ", '" ++ NumberMask.toNet mask ++ "')")
        else return some ("FORMAT(" ++ value ++ ", '" ++ DateMask.toNet mask ++ "')")
    | _ => do
      warn .dateFormat "TO_CHAR with NLS parameters cannot be converted automatically."
      return none

/-- `TO_DATE` becomes a cast, or a `CONVERT` where its mask has a style. -/
def toDate (sql : Text) : Reporting Text :=
  replaceCalls sql "TO_DATE" fun call =>
    match call.args with
    | [value] => return some ("CAST(" ++ value ++ " AS DATETIME)")
    | value :: format :: _ =>
      match (unquote? format).bind ConvertStyle.ofMask? with
      | some style =>
        return some <|
          "CONVERT(DATETIME, " ++ value ++ ", " ++ Text.ofNat style ++ ")"
      | none => do
        warn .dateFormat <|
          "TO_DATE format " ++ format ++
            " has no matching CONVERT style. Converted to TRY_CAST; verify the input format."
        return some ("TRY_CAST(" ++ value ++ " AS DATETIME)")
    | [] => return none

def toNumber (sql : Text) : Reporting Text :=
  replaceCalls sql "TO_NUMBER" fun call =>
    match call.args with
    | [value] => return some ("CAST(" ++ value ++ " AS DECIMAL(38, 10))")
    | value :: _ => do
      warn .dateFormat "TO_NUMBER format mask dropped. Converted to TRY_CAST; verify the input format."
      return some ("TRY_CAST(" ++ value ++ " AS DECIMAL(38, 10))")
    | [] => return none

def conversionFunctions (sql : Text) : Reporting Text := do
  toNumber (← toDate (← toChar sql))

def stringFunctions (sql : Text) : Reporting Text := do
  let sql ← replaceCalls sql "SUBSTR" fun call =>
    match call.args with
    | [_, _, _] => return some ("SUBSTRING(" ++ call.inner ++ ")")
    | [text, start] =>
      return some <|
        "SUBSTRING(" ++ text ++ ", " ++ start ++ ", LEN(" ++ text ++ "))"
    | _ => return none
  let sql ← replaceCalls sql "INSTR" fun call =>
    match call.args with
    | [text, needle] => return some ("CHARINDEX(" ++ needle ++ ", " ++ text ++ ")")
    | [text, needle, start] =>
      return some <|
        "CHARINDEX(" ++ needle ++ ", " ++ text ++ ", " ++ start ++ ")"
    | _ :: _ :: _ :: _ :: _ => do
      warn .unsupported "INSTR with an occurrence argument has no CHARINDEX equivalent. Manual conversion required."
      return none
    | _ => return none
  let sql ← renameCalls sql "LENGTHB" "DATALENGTH"
  renameCalls sql "LENGTH" "LEN"

end DialectBridge.ToTsql
