import DialectBridge.Text.Basic
/-!
# What can go wrong

A conversion never fails. Settings can be wrong, and files can refuse to be read or written.
An `Error` is the cause; `Error.message` is the line that tells the user.
-/
namespace DialectBridge

/-- What is wrong with the text of a substitution. -/
inductive SubstitutionFault where
  | missingCommand
  | missingDelimiter
  | badDelimiter
  | missingReplacement
  | extraDelimiter
  | emptyPattern
  | unknownFlag (flag : Char)
  deriving DecidableEq, Repr

def SubstitutionFault.message : SubstitutionFault → Text
  | missingCommand => "substitution must start with 's'"
  | missingDelimiter => "substitution is too short"
  | badDelimiter => "delimiter must be a punctuation character"
  | missingReplacement => "substitution must have a pattern and a replacement"
  | extraDelimiter => "unescaped delimiter after the flags"
  | emptyPattern => "pattern is empty"
  | unknownFlag flag => "unknown flag '" ++ [flag] ++ "'"

/-- Why settings cannot be used or a file cannot be read or written. -/
inductive Error where
  /-- A configuration file that cannot be read as text. -/
  | configUnreadable (path : Text)
  /-- A configuration file whose text does not describe a configuration. -/
  | configMalformed (path : Text)
  /-- A pattern that is not a regular expression. -/
  | invalidRegex (pattern : Text)
  /-- A substitution that cannot be read. -/
  | invalidSubstitution (input : Text) (fault : SubstitutionFault)
  /-- A rule that asks both for a substitution and for a detection. -/
  | conflictingActions (rule : Text)
  /-- A rule that asks for nothing. -/
  | missingAction (rule : Text)
  /-- A detection without its warning. -/
  | missingWarning (rule : Text)
  /-- A query file that cannot be read as text. -/
  | fileUnreadable (path : Text)
  /-- A file that cannot be written. -/
  | fileUnwritable (path : Text)
  deriving DecidableEq, Repr

/-- The line that tells the user. -/
def Error.message : Error → Text
  | configUnreadable path => "Failed to read config file: " ++ path
  | configMalformed path => "Failed to parse config file: " ++ path
  | invalidRegex pattern => "Invalid regex pattern in rule: " ++ pattern
  | invalidSubstitution input fault =>
    "Invalid substitution `" ++ input ++ "`: " ++ fault.message
  | conflictingActions rule =>
    "Mutually exclusive options in rule " ++ rule ++ ": substitution and detect"
  | missingAction rule =>
    "Rule " ++ rule ++ " is missing required field: substitution or detect"
  | missingWarning rule => "Rule " ++ rule ++ " is missing required field: warning"
  | fileUnreadable path => "Failed to read SQL file: " ++ path
  | fileUnwritable path => "Failed to write SQL file: " ++ path

end DialectBridge
