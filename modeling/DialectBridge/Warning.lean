import DialectBridge.Sql.Edit
/-!
# Warnings

A conversion never refuses a query; what it cannot do safely it reports. A warning has a
category, by which a user can hide it, and a message. `Reporting` is the computation in which
the rules run: its log is the list of warnings in the order in which they were raised.
-/
namespace DialectBridge

/-- What kind of construct a warning is about. -/
inductive Category where
  | invalidInput
  | hierarchical
  | rowLimit
  | dateArithmetic
  | dateFormat
  | correlatedSubquery
  | tupleMembership
  | outerJoin
  | listaggDistinct
  | regexpLike
  | concatenation
  | aggregation
  | pseudocolumn
  | sequence
  | identifier
  | tableHint
  | tsqlOnly
  | unsupported
  | custom
  deriving DecidableEq, Repr

namespace Category

def all : List Category := [invalidInput, hierarchical, rowLimit, dateArithmetic, dateFormat,
  correlatedSubquery, tupleMembership, outerJoin, listaggDistinct, regexpLike, concatenation,
  aggregation, pseudocolumn, sequence, identifier, tableHint, tsqlOnly, unsupported, custom]

def name : Category → String
  | invalidInput => "INVALID_INPUT"
  | hierarchical => "HIERARCHICAL"
  | rowLimit => "ROW_LIMIT"
  | dateArithmetic => "DATE_ARITHMETIC"
  | dateFormat => "DATE_FORMAT"
  | correlatedSubquery => "CORRELATED_SUBQUERY"
  | tupleMembership => "TUPLE_MEMBERSHIP"
  | outerJoin => "OUTER_JOIN"
  | listaggDistinct => "LISTAGG_DISTINCT"
  | regexpLike => "REGEXP_LIKE"
  | concatenation => "CONCATENATION"
  | aggregation => "AGGREGATION"
  | pseudocolumn => "PSEUDOCOLUMN"
  | sequence => "SEQUENCE"
  | identifier => "IDENTIFIER"
  | tableHint => "TABLE_HINT"
  | tsqlOnly => "TSQL_ONLY"
  | unsupported => "UNSUPPORTED"
  | custom => "CUSTOM"

def ofName? (t : Text) : Option Category := all.find? fun c => c.name.toList == t

theorem mem_all (c : Category) : c ∈ all := by cases c <;> decide

theorem ofName?_name (c : Category) : ofName? c.name.toList = some c := by
  cases c <;> decide

end Category

structure Warning where
  category : Category
  message : Text
  deriving DecidableEq, Repr

namespace Warning

def render (w : Warning) : Text := "WARNING [" ++ w.category.name ++ "]: " ++ w.message

end Warning

/-- A computation on queries that raises warnings. -/
abbrev Reporting := Editing (List Warning)

def warn (category : Category) (message : Text) : Reporting Unit :=
  modify (· ++ [⟨category, message⟩])

/-- Raises a warning unless the very same one has been raised before. -/
def warnOnce (category : Category) (message : Text) : Reporting Unit :=
  modify fun ws => if (⟨category, message⟩ : Warning) ∈ ws then ws else ws ++ [⟨category, message⟩]

/-- The dialect that a conversion starts from, and the one that it ends in. -/
inductive Direction where
  | oracleToTsql
  | tsqlToOracle
  deriving DecidableEq, Repr

namespace Direction

def name : Direction → String
  | oracleToTsql => "oracle-to-tsql"
  | tsqlToOracle => "tsql-to-oracle"

def ofName? (t : Text) : Option Direction :=
  if t = "oracle-to-tsql".toList ∨ t = "forward".toList then some oracleToTsql
  else if t = "tsql-to-oracle".toList ∨ t = "reverse".toList then some tsqlToOracle
  else none

theorem ofName?_name (d : Direction) : ofName? d.name.toList = some d := by cases d <;> decide

/-- The way back. -/
def opposite : Direction → Direction
  | oracleToTsql => tsqlToOracle
  | tsqlToOracle => oracleToTsql

end Direction

/-- One step of a conversion, known by its name. It may write the placeholder for a table that
it cannot know. -/
structure Rule where
  name : String
  apply : (placeholder sql : Text) → Reporting Text

end DialectBridge
