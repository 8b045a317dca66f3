import DialectBridge.Warning
/-!
# Words and operators of Oracle

Rules that replace a word or an operator wherever it stands in code.
-/
namespace DialectBridge.ToTsql
open Pattern

def sysGuid : Pattern := edge ++ "SYS_GUID" ++ blanks ++ sym '(' ++ blanks ++ sym ')'

/-- The words for the current time and for a new identifier. -/
def currentDatetime (sql : Text) : Text :=
  replaceCode sysGuid "NEWID()" <|
    replaceCode (keyword "SYSTIMESTAMP") "SYSDATETIME()" <|
      replaceCode (keyword "SYSDATE") "GETDATE()" sql

def concatenation (sql : Text) : Text := mapCode (Text.replaceAll "||" "+") sql

def setOperators (sql : Text) : Text := replaceCode (keyword "MINUS") "EXCEPT" sql

/-- `FROM DUAL` with the blanks before it. -/
def dualClause : Pattern := blanks ++ edge ++ "FROM" ++ blanks1 ++ "DUAL" ++ edge

/-- `FROM DUAL` is left out. -/
def fromDual (sql : Text) : Reporting Text := replaceSpans sql dualClause fun _ => return some []

end DialectBridge.ToTsql
