import DialectBridge.Text.Style
/-!
# Arguments of a command

A command knows options, with and without a value, and may have commands below it. Arguments are
read from left to right: `--name`, `--name value`, `--name=value`, `-n`, `-n value`, `-nvalue`,
and short options in one word. After `--` nothing is an option any more. What was given is then
checked against the rules of the command: options that exclude or need one another.
-/
namespace DialectBridge.Arguments

/-- What happens when an option is given. -/
inductive Kind where
  /-- It is noted. -/
  | flag
  /-- It takes a value, shown under a name; an empty one may not do. -/
  | value (shown : String) (mayBeEmpty : Bool)
  /-- Help is shown and nothing else is done. -/
  | help
  /-- The version is shown and nothing else is done. -/
  | version
  deriving DecidableEq, Repr

structure Spec where
  long : String
  short : Option Char
  kind : Kind
  about : String
  /-- The options that must not stand beside this one. -/
  excludes : List String
  /-- The options that must stand beside this one. -/
  needs : List String
  deriving DecidableEq, Repr

namespace Spec

def shown (s : Spec) : Text :=
  match s.kind with
  | .value name _ => "--" ++ s.long ++ " <" ++ name ++ ">"
  | _ => ("--" : Text) ++ s.long

end Spec

/-- A command: its options and the commands below it. One that has commands below it shows its
help if it is given nothing. -/
structure Command where
  name : String
  /-- What it is for. -/
  about : String
  /-- The commands above it and its name. -/
  path : String
  /-- What follows its name in a call. -/
  form : String
  /-- The words that it takes, as they are shown, and what they are for. -/
  words : List (String × String)
  options : List Spec
  subcommands : List Command

namespace Command

def subcommand? (c : Command) (t : Text) : Option Command :=
  c.subcommands.find? fun b => b.name.toList == t

/-- The command that shows help on the commands below. -/
def helper (c : Command) : Command :=
  ⟨"help", "Print this message or the help of the given subcommand(s)", c.path ++ " help",
    "[COMMAND]...", [("[COMMAND]...", "Print help for the subcommand(s)")], [], []⟩

/-- Whether a word asks for help on the commands below. -/
def isHelpWord (c : Command) (t : Text) : Bool := !c.subcommands.isEmpty && t == "help".toList

def long? (c : Command) (t : Text) : Option Spec := c.options.find? fun s => s.long.toList == t

def short? (c : Command) (x : Char) : Option Spec := c.options.find? fun s => s.short == some x

end Command

/-- Why arguments are not taken. -/
inductive Fault where
  | unexpected (argument : Text)
  | unknownCommand (argument : Text)
  | missingValue (option : Spec)
  | extraValue (option : Spec) (value : Text)
  | repeated (option : Spec)
  | conflict (option other : Spec)
  | missingOptions (options : List Spec)
  deriving DecidableEq, Repr

/-- What is wrong in a call stands out in a color, and so does an option that is to be given. -/
def wrong (t : Text) : Text := Terminal.paint (.colored .yellow) t

def Fault.message : Fault → Text
  | unexpected a => "unexpected argument '" ++ wrong a ++ "' found"
  | unknownCommand a => "unrecognized subcommand '" ++ wrong a ++ "'"
  | missingValue s => "a value is required for '" ++ wrong s.shown ++ "' but none was supplied"
  | extraValue s v =>
    "unexpected value '" ++ wrong v ++ "' for '" ++ Terminal.paint .bolder s.shown ++
      "' found; no more were expected"
  | repeated s => "the argument '" ++ wrong s.shown ++ "' cannot be used multiple times"
  | conflict s o =>
    "the argument '" ++ wrong s.shown ++ "' cannot be used with '" ++ wrong o.shown ++ "'"
  | missingOptions os =>
    "the following required arguments were not provided:" ++
      os.flatMap fun o => ("\n  " : Text) ++ Terminal.paint (.colored .green) o.shown

inductive Stop where
  | fault (f : Fault)
  /-- Help on a command was asked for. -/
  | help (command : Command)
  /-- A command was given nothing to do. -/
  | nothingGiven (command : Command)
  | version

/-- An option that was given, with its value if it takes one. -/
structure Given where
  option : Spec
  value : Option Text
  deriving DecidableEq, Repr

/-- The options given to a command, in order, and the command below it that follows, with its
own. -/
structure Taken where
  given : List Given
  subcommand : Option (String × Taken)

namespace Taken

def has (t : Taken) (long : String) : Bool := t.given.any fun g => g.option.long == long

def value? (t : Taken) (long : String) : Option Text :=
  (t.given.find? fun g => g.option.long == long).bind Given.value

end Taken

/-! ## Reading -/

/-- The options read so far. The last one, `pending`, counts only when the next one comes: until
then it may get its value. -/
structure Reading where
  given : List Given
  pending : Option Given

namespace Reading

/-- Notes an option. That it lacks its value comes before that it is given again, and this before
that the value must not be empty. -/
def note (given : List Given) (g : Given) : Except Stop (List Given) :=
  let again := given.any fun h => h.option.long == g.option.long
  match g.option.kind, g.value with
  | .value _ _, none => .error (.fault (.missingValue g.option))
  | .value _ false, some [] =>
    .error (.fault (if again then .repeated g.option else .missingValue g.option))
  | _, _ => if again then .error (.fault (.repeated g.option)) else .ok (given ++ [g])

/-- The options given, the last one included. -/
def settle (r : Reading) : Except Stop (List Given) :=
  match r.pending with
  | none => .ok r.given
  | some g => note r.given g

def waiting? (r : Reading) : Option Spec :=
  match r.pending with
  | some ⟨s, none⟩ => some s
  | _ => none

/-- An option that takes no value. -/
def react (command : Command) (r : Reading) (s : Spec) : Except Stop Reading := do
  let given ← r.settle
  match s.kind with
  | .help => .error (.help command)
  | .version => .error .version
  | _ => return ⟨← note given ⟨s, none⟩, none⟩

/-- An option that takes a value, which may be attached to it. -/
def expect (r : Reading) (s : Spec) (attached : Option Text) : Except Stop Reading := do
  let given ← r.settle
  match attached with
  | some v => return ⟨← note given ⟨s, some v⟩, none⟩
  | none => return ⟨given, some ⟨s, none⟩⟩

def long (command : Command) (r : Reading) (t : Text) : Except Stop Reading :=
  let name := t.takeWhile (· != '=')
  let attached := if name.length < t.length then some (t.drop (name.length + 1)) else none
  match command.long? name with
  | none => .error (.fault (.unexpected ("--" ++ name)))
  | some s =>
    match s.kind, attached with
    | .value _ _, _ => r.expect s attached
    | _, some v => .error (.fault (.extraValue s v))
    | _, none => r.react command s

/-- Options by their letters, after the hyphen. What follows the letter of an option that takes
a value is this value. -/
def shorts (command : Command) : Reading → Text → Except Stop Reading
  | r, [] => .ok r
  | r, x :: t =>
    match command.short? x with
    | none => .error (.fault (.unexpected ['-', x]))
    | some s =>
      match s.kind, t with
      | .value _ _, [] => r.expect s none
      | .value _ _, '=' :: v => r.expect s (some v)
      | .value _ _, v => r.expect s (some v)
      | _, _ => do shorts command (← r.react command s) t

end Reading

/-- Whether two options exclude one another. -/
def exclude (a b : Spec) : Bool := a.excludes.contains b.long || b.excludes.contains a.long

/-- The first option of those given that another one excludes, and that other one. -/
def conflict? (given : List Given) : Option (Spec × Spec) :=
  given.findSome? fun g =>
    (given.find? fun h => h.option.long != g.option.long && exclude g.option h.option).map
      fun h => (g.option, h.option)

def missing (command : Command) (given : List Given) : List Spec :=
  command.options.filter fun s =>
    (given.any fun g => g.option.needs.contains s.long) &&
      !given.any fun g => g.option.long == s.long

/-- Checks the options that a command was given. -/
def check (command : Command) (given : List Given) : Except Stop Unit :=
  match conflict? given, missing command given with
  | some (a, b), _ => .error (.fault (.conflict a b))
  | none, [] => .ok ()
  | none, options => .error (.fault (.missingOptions options))

def finish (command : Command) (r : Reading) (subcommand : Option (String × Taken)) :
    Except Stop Taken := do
  let given ← r.settle
  if subcommand.isNone && given.isEmpty && !command.subcommands.isEmpty then
    throw (.nothingGiven command)
  check command given
  return ⟨given, subcommand⟩

def stray (command : Command) (afterHyphens : Bool) (argument : Text) : Fault :=
  if command.subcommands.isEmpty then .unexpected argument
  else if afterHyphens &&
      (command.isHelpWord argument || (command.subcommand? argument).isSome) then
    .unexpected argument
  else .unknownCommand argument

/-- Help on the command that some words lead to. There is also help on help. -/
def helpOn (command : Command) : List Text → Stop
  | [] => .help command
  | word :: more =>
    match command.subcommand? word with
    | some c => helpOn c more
    | none => if command.isHelpWord word then helpOn command.helper more
      else .fault (.unknownCommand word)

/-- Reads the arguments of a command. -/
def readFrom (command : Command) : Reading → List Text → Except Stop Taken
  | r, [] => finish command r none
  | r, ['-', '-'] :: more =>
    match more with
    | [] => finish command r none
    | next :: _ => .error (.fault (stray command true next))
  | r, ('-' :: '-' :: name) :: more => do readFrom command (← r.long command name) more
  | r, ('-' :: x :: letters) :: more => do
    readFrom command (← r.shorts command (x :: letters)) more
  | r, word :: more =>
    match r.waiting?, command.subcommand? word with
    | some s, _ => readFrom command ⟨r.given, some ⟨s, some word⟩⟩ more
    | none, some c => do
      let taken ← readFrom c ⟨[], none⟩ more
      finish command r (some (c.name, taken))
    | none, none =>
      .error (if command.isHelpWord word then helpOn command more
        else .fault (stray command false word))

/-- What the arguments of a command say. -/
def read (command : Command) (arguments : List Text) : Except Stop Taken :=
  readFrom command ⟨[], none⟩ arguments

end DialectBridge.Arguments
