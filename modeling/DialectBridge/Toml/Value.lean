import DialectBridge.Text.Basic
/-!
# Values of a TOML document

A document is a table of values. How a table came into being decides who may still add to it, so
a table keeps its origin while a document is put together: a table written in braces is closed,
and each table gets a heading at most once.
-/
namespace DialectBridge.Toml

/-- How a table came into being. -/
inductive Origin where
  /-- It has a heading of its own, or is the whole document. -/
  | heading
  /-- It was named on the way to another table. -/
  | implied
  /-- It was named by a key with points. -/
  | dotted
  /-- It is written in braces. -/
  | braces
  deriving DecidableEq, Repr

/-- A value. What a number or a date is, no setting depends on. -/
inductive Value where
  | string (t : Text)
  | boolean (b : Bool)
  | number
  | dateTime
  /-- Values in brackets. -/
  | array (items : List Value)
  /-- Tables that share a heading in double brackets, the last one first. -/
  | tables (items : List Value)
  | table (origin : Origin) (entries : List (Text × Value))
  deriving Repr

abbrev Entries := List (Text × Value)

/-- A place in a document: keys from the outermost to the innermost. -/
abbrev Path := List Text

namespace Entries

/-- The entries with the value of `key` replaced by what `f` makes of it, or with a new value. -/
def alter? (key : Text) (f : Option Value → Option Value) : Entries → Option Entries
  | [] => do return [(key, ← f none)]
  | (k, v) :: more =>
    if k = key then do return (k, ← f (some v)) :: more
    else do return (k, v) :: (← alter? key f more)

/-- Changes the table at `path` with `f`, which gets its origin and its entries. Tables that are
missing on the way come into being with the given origin; the last of several tables with one
heading counts. A key with points may not enter a table that has a heading. -/
def alterAt? (made : Origin) (f : Origin → Entries → Option (Origin × Entries)) :
    Path → Origin → Entries → Option (Origin × Entries)
  | [], origin, entries => f origin entries
  | key :: path, origin, entries => do
    let inside (o : Origin) (es : Entries) : Option Value := do
      let (o', es') ← alterAt? made f path o es
      return .table o' es'
    let entries ← entries.alter? key fun
      | none => inside made []
      | some (.table .braces _) => none
      | some (.table .heading es) => if made = .dotted then none else inside .heading es
      | some (.table o es) => inside o es
      | some (.tables (.table o es :: before)) => do return .tables ((← inside o es) :: before)
      | some _ => none
    return (origin, entries)

def add? (key : Text) (value : Value) : Entries → Option Entries :=
  alter? key fun
    | none => some value
    | some _ => none

/-- Adds the value of a key, which may have points: `path` are the keys before the last one. -/
def insert? (path : Path) (key : Text) (value : Value) (origin : Origin) (entries : Entries) :
    Option (Origin × Entries) :=
  alterAt? .dotted (fun o es =>
    if (o == .dotted) == path.isEmpty then none else do return (o, ← es.add? key value))
    path origin entries

end Entries

inductive Line where
  /-- `[path.key]` opens a table. -/
  | heading (path : Path) (key : Text)
  /-- `[[path.key]]` opens one more table of several. -/
  | tablesHeading (path : Path) (key : Text)
  /-- `path.key = value` adds to the table that is open. -/
  | entry (path : Path) (key : Text) (value : Value)
  deriving Repr

namespace Document

/-- The document so far, and the table that is open in it. -/
structure State where
  entries : Entries
  opened : Path

/-- Opens a table. One that has been implied gets its heading now. -/
def openTable? (key : Text) : Entries → Option Entries :=
  Entries.alter? key fun
    | none => some (.table .heading [])
    | some (.table .implied es) => some (.table .heading es)
    | some _ => none

def openOneMore? (key : Text) : Entries → Option Entries :=
  Entries.alter? key fun
    | none => some (.tables [.table .heading []])
    | some (.tables before) => some (.tables (.table .heading [] :: before))
    | some _ => none

def step? (s : State) (line : Line) : Option State := do
  let change (path : Path) (f : Origin → Entries → Option (Origin × Entries)) : Option Entries := do
    return (← Entries.alterAt? .implied f path .heading s.entries).2
  match line with
  | .heading path key =>
    return ⟨← change path fun o es => do return (o, ← openTable? key es), path ++ [key]⟩
  | .tablesHeading path key =>
    return ⟨← change path fun o es => do return (o, ← openOneMore? key es), path ++ [key]⟩
  | .entry path key value =>
    return ⟨← change s.opened fun o es => es.insert? path key value o, s.opened⟩

def ofLines? (lines : List Line) : Option Entries := do
  return (← lines.foldlM step? ⟨[], []⟩).entries

end Document

namespace Entries

def get? (entries : Entries) (key : String) : Option Value := entries.lookup key.toList

end Entries
end DialectBridge.Toml
