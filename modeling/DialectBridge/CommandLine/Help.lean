import DialectBridge.CommandLine.Arguments
import DialectBridge.Text.Search
/-!
# Help on a command

What a command is for, how it is called, the commands below it, the words it takes and its
options, in columns.
-/
namespace DialectBridge.Arguments

def columns (rows : List (Text × Text)) : List Text :=
  let width := (rows.map fun r => r.1.length).foldl max 0
  rows.map fun (a, b) => "  " ++ a ++ Text.spaces (width - a.length + 2) ++ b

/-- An option as it stands in a list of options. -/
def Spec.listed (s : Spec) : Text :=
  match s.short with
  | some c => '-' :: c :: ", " ++ s.shown
  | none => "    " ++ s.shown

/-- The lines of a part of the help, under a title. -/
def part (title : Text) (rows : List (Text × Text)) : List Text :=
  if rows.isEmpty then [] else [] :: title :: columns rows

def Command.helpLines (c : Command) : List Text :=
  let below : List Command :=
    if c.subcommands.isEmpty then [] else c.subcommands ++ [c.helper]
  let commands := below.map fun s => (s.name.toList, s.about.toList)
  let words := c.words.map fun (shown, about) => (shown.toList, about.toList)
  let options := c.options.map fun s => (s.listed, s.about.toList)
  let usage := Text.join " " ([c.path.toList, c.form.toList].filter (· ≠ []))
  [c.about.toList, [], "Usage: " ++ usage] ++
    part "Commands:" commands ++ part "Arguments:" words ++ part "Options:" options

end DialectBridge.Arguments
