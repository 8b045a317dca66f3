import DialectBridge.CommandLine.Run
/-!
# The program

Runs the command line over the files of the machine.
-/
namespace DialectBridge.Main

/-- Whether something can be opened at a path. -/
def isPresent (path : String) : IO Bool := do
  try
    let _ ← IO.FS.Handle.mk path .read
    return true
  catch _ => return false

/-- The text of a file, if it has one. -/
def readText? (path : String) : IO (Option Text) := do
  try
    return some (← IO.FS.readFile path).toList
  catch _ => return none

/-- Writes a file, in a directory that is made if it is missing. -/
def writeText (path : Text) (text : String) : IO Bool := do
  try
    match Path.parent? path with
    | some (c :: directory) => IO.FS.createDirAll (String.ofList (c :: directory))
    | _ => pure ()
    IO.FS.writeFile (String.ofList path) text
    return true
  catch _ => return false

/-- The files of the machine. -/
def files : FileSystem IO where
  present path := isPresent (String.ofList path)
  read? path := readText? (String.ofList path)
  write path text := writeText path (String.ofList text)

partial def readAll (stream : IO.FS.Stream) (before : List Text) : IO Text := do
  let line ← stream.getLine
  if line.isEmpty then return before.reverse.flatten
  else readAll stream (line.toList :: before)

def environment? (name : Text) : IO (Option Text) := do
  return (← IO.getEnv (String.ofList name)).map String.toList

end DialectBridge.Main

open DialectBridge in
def main (arguments : List String) : IO UInt32 := do
  let outcome ← CommandLine.run {
    arguments := arguments.map String.toList
    input := do Main.readAll (← IO.getStdin) []
    directory := (← IO.currentDir).toString.toList
    home := (← Main.environment? "HOME").getD []
    environment := {
      logFilter := ← Main.environment? "ORA2TSQL_LOG"
      logStyle := ← Main.environment? "ORA2TSQL_LOG_STYLE"
      optOut := ← Main.environment? Config.optOutVariable
      forbidColor := ← Main.environment? "NO_COLOR"
      forceColor := ← Main.environment? "CLICOLOR_FORCE" }
    files := Main.files }
  IO.eprint (String.ofList outcome.errors)
  IO.print (String.ofList outcome.output)
  return outcome.code.toUInt32
