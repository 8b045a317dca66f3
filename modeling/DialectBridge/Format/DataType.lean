import DialectBridge.Pattern.Search
/-!
# Data types

The types that a cast can name are spelled differently in the two dialects. `DATE` means
different things in them and is known to neither function.
-/
namespace DialectBridge.DataType
open Pattern

/-- What a `CAST` holds: the value is group 1 and the type group 2. -/
def castTarget : Pattern :=
  textStart ++ .group 1 (many anyChar ++ nonBlank) ++ blanks1 ++ "AS" ++ blanks1 ++
    .group 2 (many1 anyChar) ++ textEnd

/-- Parentheses at the end of a type, with whatever stands between them, as group 1. -/
def precision : Pattern := opt (.group 1 (sym '(' ++ many lineChar ++ sym ')')) ++ textEnd

/-- `VARCHAR2` or `NVARCHAR2` with its length, in bytes or characters. -/
def oracleChar : Pattern :=
  textStart ++ .group 1 (opt "N") ++ "VARCHAR2" ++ blanks ++ sym '(' ++ blanks ++
    .group 2 digits1 ++ opt (blanks1 ++ oneOf ["BYTE", "CHAR"]) ++ blanks ++ sym ')' ++ textEnd

/-- `NUMBER` with or without a precision. -/
def oracleNumber : Pattern := textStart ++ "NUMBER" ++ blanks ++ precision

/-- `VARCHAR` or `NVARCHAR` with its length, which may be `MAX`. -/
def tsqlChar : Pattern :=
  textStart ++ .group 1 (opt "N") ++ "VARCHAR" ++ blanks ++ sym '(' ++ blanks ++
    .group 2 (oneOf [digits1, "MAX"]) ++ blanks ++ sym ')' ++ textEnd

def tsqlNumeric : Pattern := textStart ++ oneOf ["DECIMAL", "NUMERIC"] ++ blanks ++ precision

/-- Oracle types without parameters and their T-SQL spelling. -/
def oracleNames : List (String × String) := [
  ("CLOB", "VARCHAR(MAX)"), ("NCLOB", "NVARCHAR(MAX)"), ("BLOB", "VARBINARY(MAX)"),
  ("TIMESTAMP", "DATETIME2"), ("BINARY_DOUBLE", "FLOAT"), ("BINARY_FLOAT", "REAL")]

def tsqlNames : List (String × String) := [
  ("VARBINARY(MAX)", "BLOB"), ("BIT", "NUMBER(1)"), ("TINYINT", "NUMBER(3)"),
  ("SMALLINT", "NUMBER(5)"), ("INT", "NUMBER(10)"), ("INTEGER", "NUMBER(10)"),
  ("BIGINT", "NUMBER(19)"), ("REAL", "BINARY_FLOAT"), ("DATETIME", "TIMESTAMP"),
  ("SMALLDATETIME", "TIMESTAMP")]

/-- The T-SQL spelling of an Oracle type, if it has one of its own. -/
def toTsql? (type : Text) : Option Text :=
  let t := Text.trim type
  match oracleChar.find? t with
  | some m => some (m.groupD 1 ++ "VARCHAR(" ++ m.groupD 2 ++ ")")
  | none =>
    match oracleNumber.find? t with
    | some m =>
      match m.group? 1 with
      | some p => some ("DECIMAL" ++ p)
      | none => some "FLOAT"
    | none => (oracleNames.find? fun n => n.1.toList == Text.upper t).map fun n => n.2.toList

def toOracle? (type : Text) : Option Text :=
  let t := Text.trim type
  match tsqlChar.find? t with
  | some m =>
    if Text.sameLetters (m.groupD 2) "MAX" then some (m.groupD 1 ++ "CLOB")
    else some (m.groupD 1 ++ "VARCHAR2(" ++ m.groupD 2 ++ ")")
  | none =>
    match tsqlNumeric.find? t with
    | some m => some ("NUMBER" ++ m.groupD 1)
    | none =>
      match tsqlNames.find? fun n => n.1.toList == Text.upper t with
      | some n => some n.2
      | none => if "DATETIME2".toList.isPrefixOf (Text.upper t) then some "TIMESTAMP" else none

end DialectBridge.DataType
