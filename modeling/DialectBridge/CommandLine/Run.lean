import DialectBridge.Checklist
import DialectBridge.CommandLine.Help
import DialectBridge.CommandLine.Log
import DialectBridge.CommandLine.Request
import DialectBridge.Config.Cascade
/-!
# Running the program

`run` does what the arguments ask for, over any file system, and gives what the program writes
to its two outputs and its exit code. A task first makes a transcript; the filter of the log then
decides which of its records are written.
-/
namespace DialectBridge.CommandLine

/-- What the variables of the environment say. -/
structure Environment where
  /-- The filter of the log. -/
  logFilter : Option Text
  /-- Whether the log shows styles. -/
  logStyle : Option Text
  /-- Whether the user opts out of the own configuration. -/
  optOut : Option Text
  /-- Whether colors are forbidden. -/
  forbidColor : Option Text
  /-- Whether colors are forced. -/
  forceColor : Option Text
  deriving DecidableEq, Repr

/-- What surrounds a run. -/
structure Surroundings (m : Type → Type) where
  arguments : List Text
  /-- The text that comes in when it is asked for. -/
  input : m Text
  /-- The directory that the program runs in. -/
  directory : Text
  /-- The directory of the user. -/
  home : Text
  environment : Environment
  files : FileSystem m

/-- What a run of the program shows. -/
structure Outcome where
  code : Nat
  output : Text
  errors : Text
  deriving DecidableEq, Repr

/-- How a task ends. -/
inductive Ending where
  | success
  /-- Not well, but all has been said. -/
  | failure
  /-- With a message, and perhaps with what caused it. -/
  | fault (message : Text) (cause : Option Text)
  deriving DecidableEq, Repr

/-- What a task has to say. -/
structure Transcript where
  output : Text
  log : List Log.Record
  ending : Ending
  deriving Repr

def failed (context : Text) (e : Error) : Ending :=
  .fault ("error: " ++ context) (some e.message)

variable {m : Type → Type} [Monad m]

/-! ## Configuration -/

/-- The record of a step in a search for configuration files. -/
def searchRecord (event : Cascade.Event) : Log.Record where
  level := .debug
  target := "ora2tsql::config::cascade"
  message := match event with
    | .loading path => "Loading config " ++ path
    | .loadingOwn path => "Loading user config " ++ path
    | .optedOut => "User config disabled by " ++ Config.optOutVariable

def search (s : Surroundings m) : m (List Log.Record × Except Error (List LoadedConfig)) := do
  let optOut := Cascade.isYes s.environment.optOut
  let found ← Cascade.discover (Cascade.loader s.files) s.directory s.home optOut
  return (found.events.map searchRecord, found.result)

def makeConfig (s : Surroundings m) (force : Bool) : m Transcript := do
  if !force && (← s.files.present Config.fileName) then
    return ⟨[], [], .fault
      ("error: " ++ Config.fileName ++ " already exists. Use --force to overwrite.") none⟩
  else if ← s.files.write Config.fileName Config.template then
    return ⟨Text.unlines ["Created " ++ Config.fileName], [], .success⟩
  else
    return ⟨[], [], .fault ("error: Failed to write " ++ Config.fileName)
      (some "Is a directory (os error 21)")⟩

/-- The lines that show a rule, the `i`th one of its file. -/
def ruleLines (i : Nat) (rule : CustomRule) : List Text :=
  let shown (name : Text) (value : Option Text) : List Text :=
    value.toList.map fun v => "    " ++ name ++ ": " ++ v
  [("  Rule " : Text) ++ Text.ofNat i ++ ": " ++ rule.displayName] ++
    shown "direction" (rule.direction.map fun d => d.name.toList) ++
    shown "substitution" rule.substitution ++ shown "detect" rule.detect ++
    shown "warning" rule.warning ++ [[]]

/-- The lines that show a configuration. -/
def configLines (loaded : LoadedConfig) : List Text :=
  let c := loaded.config
  let root : Text := if c.root then "true" else "false"
  let suppressed := Text.join ", " (c.suppressed.map fun k => k.name.toList)
  let placeholder : List Text :=
    c.placeholder.toList.map fun p => ("# source-table-placeholder: " : Text) ++ p
  let hidden : List Text :=
    if c.suppressed.isEmpty then [] else ["# suppress-warnings: " ++ suppressed]
  let head : List Text := ["# Source: " ++ loaded.path, "# root: " ++ root]
  let count : List Text := ["# rules: " ++ Text.ofNat c.rules.length, []]
  head ++ placeholder ++ hidden ++ count ++
    (c.rules.zipIdx 1).flatMap fun (rule, i) => ruleLines i rule

def showConfig (s : Surroundings m) : m Transcript := do
  let (records, result) ← search s
  match result with
  | .error e => return ⟨[], records, failed "Failed to discover config files" e⟩
  | .ok found =>
    let own := Cascade.ownPath s.home
    let present ← s.files.present own
    let head : List Text :=
      if found.isEmpty then ["No configuration files found."]
      else ["Configuration files (in cascade order):", []]
    let tail : List Text :=
      ["User config path: " ++ own, if present then "  (exists)" else "  (not found)"]
    return ⟨Text.unlines (head ++ found.flatMap configLines ++ tail), records, .success⟩

def validateConfig (s : Surroundings m) : m Transcript := do
  let (records, result) ← search s
  let checked : Except Error (List LoadedConfig) := do
    let found ← result
    let _ ← Converter.ofSettings (Settings.merge found)
    return found
  match checked with
  | .error e => return ⟨[], records, .fault ("Configuration error: " ++ e.message) none⟩
  | .ok found =>
    let line (c : LoadedConfig) : Text :=
      "  " ++ c.path ++ " (" ++ Text.ofNat c.config.rules.length ++ " rules)"
    let lines : List Text :=
      if found.isEmpty then ["No configuration files found."]
      else "All configuration files are valid:".toList :: found.map line
    return ⟨Text.unlines lines, records, .success⟩

/-! ## Conversion -/

/-- The path that stands for what comes in. -/
def inputPath : Text := "/dev/stdin"

/-- The path that stands for what the program puts out. -/
def outputPath : Text := "/dev/stdout"

def readQuery (s : Surroundings m) (job : Job) : m (Except Ending Text) := do
  match job.query, job.file with
  | some query, _ => return .ok query
  | none, some path =>
    if Path.same path "-" || Path.same path inputPath then return .ok (← s.input)
    else
      match ← s.files.readQuery path with
      | .ok query => return .ok query
      | .error e => return .error (failed ("Failed to read " ++ path) e)
  | none, none =>
    return .error (.fault "error: No query given. Use --query <SQL> or --file <PATH>." none)

def converterFor (s : Surroundings m) (job : Job) :
    m (List Log.Record × Except Ending Converter) := do
  if job.ignoreConfig then return ([], .ok .builtin)
  else
    let (records, result) ← search s
    match result with
    | .error e => return (records, .error (failed "Failed to load configuration" e))
    | .ok found =>
      match Converter.ofSettings (Settings.merge found) with
      | .error e => return (records, .error (failed "Failed to compile rules" e))
      | .ok converter => return (records, .ok converter)

def changeRecord (change : Change) : Log.Record where
  level := .debug
  target := "ora2tsql::convert"
  message := match change with
    | .builtin name => "Rule " ++ name ++ " rewrote the query"
    | .custom name source => "Custom rule " ++ name ++ " from " ++ source ++ " rewrote the query"

def conversionRecords (d : Direction) (c : Conversion) : List Log.Record :=
  c.changes.map changeRecord ++ [{
    level := .info
    target := "ora2tsql::convert"
    message := "Converted query (" ++ d.name ++ "): " ++ Text.ofNat c.warnings.length ++
      " warning(s), " ++ Text.ofNat c.hidden ++ " suppressed" }]

/-- A title between two rulers. -/
def banner (title : Text) : List Text :=
  let ruler : Text := List.replicate 70 '='
  [ruler, title, ruler]

/-- The checklist for a conversion. -/
def reportOn (converter : Converter) (c : Conversion) : Checklist.Report :=
  Checklist.run c.query (c.warnings.map Warning.category) converter.placeholder

/-- Writes a converted query to a file: what there is to say about it, or why it failed. -/
def writeOutput (s : Surroundings m) (path : Text) (shown : Bool) (c : Conversion) :
    m (List Log.Record × Except Ending (List Text)) := do
  let records : List Log.Record :=
    if Path.isSqlFile path then []
    else [⟨.warn, "ora2tsql", "Output file " ++ path ++ " does not end in .sql"⟩]
  let done : Text := "Conversion complete. Output written to: " ++ path
  let count : List Text :=
    if shown then [Text.ofNat c.warnings.length ++ " warning(s) generated."] else []
  if Path.same path outputPath then return (records, .ok ((c.query ++ done) :: count))
  match ← s.files.writeQuery path c.query with
  | .error e => return (records, .error (failed ("Failed to write " ++ path) e))
  | .ok () => return (records, .ok (done :: count))

def convert (s : Surroundings m) (job : Job) : m Transcript := do
  match ← readQuery s job with
  | .error ending => return ⟨[], [], ending⟩
  | .ok query =>
    let (searched, result) ← converterFor s job
    match result with
    | .error ending => return ⟨[], searched, ending⟩
    | .ok converter =>
      let direction : Direction := if job.reverse then .tsqlToOracle else .oracleToTsql
      let c := converter.convert direction query
      let records := searched ++ conversionRecords direction c
      let shown := !c.warnings.isEmpty && !job.hideWarnings
      let warnings : List Text :=
        if shown then banner "CONVERSION WARNINGS" ++ c.warnings.map Warning.render ++ [[]] else []
      let (written, told) ← match job.output with
        | some path => writeOutput s path shown c
        | none =>
          pure ([], .ok ((if shown then banner "CONVERTED QUERY" else []) ++ [c.query]))
      match told with
      | .error ending => return ⟨Text.unlines warnings, records ++ written, ending⟩
      | .ok lines =>
        let report := reportOn converter c
        let checked : List Text := if job.check then [[], report.render] else []
        let ending : Ending := if job.check && !report.overallPass then .failure else .success
        return ⟨Text.unlines (warnings ++ lines ++ checked), records ++ written, ending⟩

/-! ## The program -/

def perform (s : Surroundings m) : Request → m Transcript
  | .makeConfig force => makeConfig s force
  | .showConfig => showConfig s
  | .validateConfig => validateConfig s
  | .convert job => convert s job

/-- The text of a message with its cause. -/
def faultText (message : Text) (cause : Option Text) : Text :=
  Text.unlines (message :: match cause with
    | some c => [[], "Caused by:".toList, "    " ++ Text.replaceAll "\n" "\n    " c]
    | none => [])

/-- What a run shows whose task has the given transcript; `styled` is about the log. -/
def Transcript.outcome (t : Transcript) (filter : Log.Filter) (faults : List Text)
    (styled : Bool) : Outcome :=
  let head : List Text := faults.map fun f => ("warning: " : Text) ++ f ++ ", ignoring it"
  let log := Text.unlines head ++ (t.log.filter filter.passes).flatMap (Log.Record.display styled)
  match t.ending with
  | .success => ⟨0, t.output, log⟩
  | .failure => ⟨1, t.output, log⟩
  | .fault message cause => ⟨1, t.output, log ++ faultText message cause⟩

/-- What a run shows whose arguments do not start a task. -/
def stopped (styled : Bool) : Arguments.Stop → Outcome
  | .fault f =>
    ⟨2, [], Terminal.display styled (Text.unlines [
      Terminal.paint (.strong .red) "error:" ++ " " ++ f.message, [],
      "For more information, try '" ++ Terminal.paint .bolder "--help" ++ "'."])⟩
  | .help command => ⟨0, Text.unlines command.helpLines, []⟩
  | .nothingGiven command => ⟨2, [], Text.unlines command.helpLines⟩
  | .version => ⟨0, Text.unlines ["ora2tsql " ++ Request.version], []⟩

def run (s : Surroundings m) : m Outcome := do
  let styled := Terminal.isStyled s.environment.forbidColor s.environment.forceColor
  match Arguments.read Request.program s.arguments with
  | .error stop => return stopped styled stop
  | .ok taken =>
    let usual : Text := if taken.has "verbose" then "debug" else "warn"
    let (filter, faults) := Log.Filter.parse (s.environment.logFilter.getD usual)
    let styledLog := Log.isStyled s.environment.logStyle styled
    let transcript ← perform s (Request.ofTaken taken)
    return transcript.outcome filter faults styledLog

end DialectBridge.CommandLine
