import DialectBridge.CustomRule
import DialectBridge.Toml.Reader
/-!
# Configuration files

A configuration file can end the search for more files, name the placeholder, suppress
categories of warnings and add rules. Keys that are not known do not count; a known key with a
value of the wrong kind makes the whole file malformed.
-/
namespace DialectBridge

/-- What a configuration file says. -/
structure Config where
  /-- Whether the directories above are not searched. -/
  root : Bool
  placeholder : Option Text
  suppressed : List Category
  rules : List CustomRule
  deriving DecidableEq, Repr

namespace Config
open Toml (Value Entries)

/-- Reads the value of a key, if the key is there. -/
def optional? {α : Type} (entries : Entries) (key : String) (read? : Value → Option α) :
    Option (Option α) :=
  match entries.get? key with
  | none => some none
  | some v => (read? v).map some

def text? : Value → Option Text
  | .string t => some t
  | _ => none

def flag? : Value → Option Bool
  | .boolean b => some b
  | _ => none

/-- A name for which `ofName?` knows what it names. It may also be written as the only key of a
table, with nothing in it. -/
def named? {α : Type} (ofName? : Text → Option α) : Value → Option α
  | .string t => ofName? t
  | .table _ [(t, .array [])] => ofName? t
  | .table _ [(t, .table _ [])] => ofName? t
  | _ => none

def list? {α : Type} (read? : Value → Option α) : Value → Option (List α)
  | .array items => items.mapM read?
  | .tables items => items.reverse.mapM read?
  | _ => none

/-- A rule. It may also be written as the list of all its fields, in their order. A date stands
for a rule without fields. -/
def rule? : Value → Option CustomRule
  | .table _ entries => do
    return ⟨← optional? entries "name" text?,
      ← optional? entries "direction" (named? Direction.ofName?),
      ← optional? entries "substitution" text?,
      ← optional? entries "detect" text?,
      ← optional? entries "warning" text?⟩
  | .array (name :: direction :: substitution :: detect :: warning :: _) => do
    return ⟨← text? name, ← named? Direction.ofName? direction, ← text? substitution,
      ← text? detect, ← text? warning⟩
  | .dateTime => some ⟨none, none, none, none, none⟩
  | _ => none

/-- The configuration in a document. -/
def ofEntries? (entries : Entries) : Option Config := do
  let root ← optional? entries "root" flag?
  let placeholder ← optional? entries "source-table-placeholder" text?
  let suppressed ← optional? entries "suppress-warnings" (list? (named? Category.ofName?))
  let rules ← optional? entries "rules" (list? rule?)
  return ⟨root.getD false, placeholder, suppressed.getD [], rules.getD []⟩

/-- Whether all rules ask for exactly one action; if not, the first fault. -/
def validate (c : Config) : Except Error Unit := c.rules.forM CustomRule.validate

/-- The configuration that a text writes. The path is for messages only. -/
def parse (path content : Text) : Except Error Config := do
  match (Toml.read? content).bind ofEntries? with
  | none => throw (.configMalformed path)
  | some c =>
    c.validate
    return c

end Config

end DialectBridge
