import DialectBridge.CustomRule
import DialectBridge.ToOracle
import DialectBridge.ToTsql
/-!
# Conversion

A converter runs the rules of a direction one after the other and then the rules of the user,
and hides the warnings that the user does not want to see. A text that is not a query comes back
as it is, with a warning.
-/
namespace DialectBridge
open Pattern

def Direction.rules : Direction → List Rule
  | oracleToTsql => ToTsql.rules
  | tsqlToOracle => ToOracle.rules

/-- The name that stands for a table which cannot be known. -/
def defaultPlaceholder : Text := "<source_table>"

/-- A rule that rewrote the query. -/
inductive Change where
  | builtin (name : String)
  | custom (name source : Text)
  deriving DecidableEq, Repr

structure Conversion where
  query : Text
  /-- The warnings that are shown, in the order in which they were raised. -/
  warnings : List Warning
  /-- The number of warnings that are hidden. -/
  hidden : Nat
  /-- The rules that changed the query, in order. -/
  changes : List Change
  deriving DecidableEq, Repr

namespace Converter

/-- What stands in front of the first word of a query. -/
def isLead (c : Char) : Bool := Unicode.isBlank c || c == '('

def queryHead : Pattern := textStart ++ oneOf ["SELECT", "WITH"] ++ edge

/-- Why a text cannot be converted, if it cannot. -/
def objection? (query : Text) : Option Text :=
  let head := (mask query).dropWhile isLead
  if (Text.trim head).isEmpty then
    return "Empty query: nothing to convert."
  else if !queryHead.occursIn head then
    return "Query does not appear to be a SELECT statement. Only SELECT queries are supported."
  else none

/-- Runs named steps one after the other, and lists those that changed the query. -/
def runSteps (steps : List (Change × (Text → Reporting Text))) (sql : Text) :
    Reporting (Text × List Change) :=
  match steps with
  | [] => return (sql, [])
  | (change, step) :: more => do
    let next ← step sql
    let (last, changes) ← runSteps more next
    return (last, if next = sql then changes else change :: changes)

end Converter

structure Converter where
  customRules : List CompiledRule
  placeholder : Text
  suppressed : List Category
  deriving Repr

namespace Converter

/-- A converter with nothing but the rules of a direction. -/
def builtin : Converter := ⟨[], defaultPlaceholder, []⟩

/-- The steps of a direction: its rules, and then the rules of the user that apply. -/
def steps (c : Converter) (d : Direction) : List (Change × (Text → Reporting Text)) :=
  d.rules.map (fun r => (.builtin r.name, r.apply c.placeholder)) ++
    (c.customRules.filter (·.appliesTo d)).map fun r =>
      (.custom r.rule.displayName r.source, r.apply)

/-- Converts a query; the warnings raised are in the log. -/
def apply (c : Converter) (d : Direction) (query : Text) : Reporting (Text × List Change) :=
  match objection? query with
  | some message => do
    warn .invalidInput message
    return (query, [])
  | none => runSteps (c.steps d) query

/-- Converts a query. There is no result only where a rule would cut a character in two. -/
def convert? (c : Converter) (d : Direction) (query : Text) : Option Conversion := do
  let ((sql, changes), raised) ← (c.apply d query).run []
  let shown := raised.filter fun w => !c.suppressed.contains w.category
  return ⟨sql, shown, raised.length - shown.length, changes⟩

/-- Converts a query. Where there is no result the query stays as it is. -/
def convert (c : Converter) (d : Direction) (query : Text) : Conversion :=
  (c.convert? d query).getD ⟨query, [], 0, []⟩

end Converter
end DialectBridge
