import DialectBridge.CommandLine.Arguments
import DialectBridge.Config.Template
/-!
# What the program can be asked to do

The options and commands of the program, and what a list of arguments asks for. Making a
configuration file goes before a command, and a command before a conversion.
-/
namespace DialectBridge
open Arguments

/-- A query to convert, and how. -/
structure Job where
  query : Option Text
  file : Option Text
  output : Option Text
  reverse : Bool
  hideWarnings : Bool
  check : Bool
  ignoreConfig : Bool
  deriving DecidableEq, Repr

/-- What the program is asked to do. -/
inductive Request where
  | makeConfig (force : Bool)
  | showConfig
  | validateConfig
  | convert (job : Job)
  deriving DecidableEq, Repr

namespace Request

def flag (long : String) (short : Option Char) (about : String) : Spec :=
  ⟨long, short, .flag, about, [], []⟩

/-- The option that asks for help. -/
def help : Spec := ⟨"help", some 'h', .help, "Print help", [], []⟩

def options : List Spec := [
  ⟨"query", some 'q', .value "SQL" true, "SQL query to convert", ["file"], []⟩,
  ⟨"file", some 'f', .value "PATH" false,
    "File containing the query to convert (`-` reads stdin)", [], []⟩,
  ⟨"output", some 'o', .value "PATH" false,
    "Write the converted query to this file instead of stdout", [], []⟩,
  flag "reverse" (some 'r') "Convert T-SQL to Oracle instead of Oracle to T-SQL",
  flag "no-warnings" none "Do not print conversion warnings",
  ⟨"check", none, .flag, "Run the QA checklist on the converted query (exit code 1 on FAIL)",
    ["reverse"], []⟩,
  flag "no-config" none "Ignore .ora2tsql.toml configuration files",
  flag "verbose" (some 'v') "Log each rule that rewrites the query",
  flag "init" none "Create a template .ora2tsql.toml in the current directory",
  ⟨"force", none, .flag, "Overwrite existing .ora2tsql.toml when using --init", [], ["init"]⟩,
  help,
  ⟨"version", some 'V', .version, "Print version", [], []⟩]

def commands : List Command := [
  ⟨"config", "Configuration management commands", "ora2tsql config", "<COMMAND>", [],
    [help], [
    ⟨"show", "Display the configuration files in cascade order", "ora2tsql config show", "", [],
      [help], []⟩,
    ⟨"validate", "Check all config files for errors without converting anything",
      "ora2tsql config validate", "", [], [help], []⟩]⟩]

def program : Command :=
  ⟨"ora2tsql",
    "CLI tool for rewriting Oracle SELECT queries as T-SQL (Azure SQL / SQL Server) and back",
    "ora2tsql", "[OPTIONS] [COMMAND]", [], options, commands⟩

def version : Text := "0.1.0"

/-- The command that follows `config`, if this is what was given. -/
def configCommand? (t : Taken) : Option Request := do
  let (_, config) ← t.subcommand
  let (name, _) ← config.subcommand
  return if name = "show" then showConfig else validateConfig

/-- What the given options and commands ask for. -/
def ofTaken (t : Taken) : Request :=
  if t.has "init" then makeConfig (t.has "force")
  else (configCommand? t).getD (convert {
    query := t.value? "query"
    file := t.value? "file"
    output := t.value? "output"
    reverse := t.has "reverse"
    hideWarnings := t.has "no-warnings"
    check := t.has "check"
    ignoreConfig := t.has "no-config" })

end Request
end DialectBridge
