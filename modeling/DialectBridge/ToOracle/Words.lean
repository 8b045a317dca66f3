import DialectBridge.Sql.Call
import DialectBridge.Warning
/-!
# Words and operators of T-SQL

Rules that replace a word or an operator wherever it stands in code.
-/
namespace DialectBridge.ToOracle
open Pattern

def emptyCall (name : Text) : Pattern :=
  edge ++ word name ++ blanks ++ sym '(' ++ blanks ++ sym ')'

def currentDatetime (sql : Text) : Text :=
  replaceCode (emptyCall "NEWID") "SYS_GUID()" <|
    replaceCode (emptyCall "GETUTCDATE") "SYS_EXTRACT_UTC(SYSTIMESTAMP)" <|
      replaceCode (emptyCall "SYSDATETIME") "SYSTIMESTAMP" <|
        replaceCode (emptyCall "GETDATE") "SYSDATE" sql

/-- A plus sign next to a quote. -/
def plusByLiteral : Pattern :=
  oneOf [sym '\'' ++ blanks ++ sym '+', sym '+' ++ blanks ++ sym '\'']

/-- `CONCAT` and a plus sign next to a string literal become `||`. -/
def concatenation (sql : Text) : Reporting Text := do
  let sql ← replaceCalls sql "CONCAT" fun call =>
    if 2 ≤ call.args.length then return some ("(" ++ Text.join " || " call.args ++ ")")
    else return none
  let out ← replaceSpans sql plusByLiteral fun m => do
    return some (Text.replaceFirst "+" "||" (← Text.slice? sql m.start m.stop))
  let masked := mask out
  if masked.contains '+' && masked.contains '\'' then
    warn .concatenation "Operator (+) left between non-literal operands. If it concatenates strings, replace it with (||); verify numeric additions are not affected."
  return out

def setOperators (sql : Text) : Text := replaceCode (keyword "EXCEPT") "MINUS" sql

end DialectBridge.ToOracle
