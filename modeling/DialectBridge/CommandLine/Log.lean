import DialectBridge.Regex
import DialectBridge.Text.Style
/-!
# The log

Log records go to the error output. A filter says which ones are written: a list of directives,
each a level for the targets whose names begin in some way, and perhaps a regular expression
that the message must match. Of the directives that apply, the one with the longest name counts.
-/
namespace DialectBridge.Log

/-- How much a record matters. -/
inductive Level where
  | error
  | warn
  | info
  | debug
  | trace
  deriving DecidableEq, Repr

namespace Level

def name : Level → String
  | error => "ERROR"
  | warn => "WARN"
  | info => "INFO"
  | debug => "DEBUG"
  | trace => "TRACE"

def rank : Level → Nat
  | error => 1
  | warn => 2
  | info => 3
  | debug => 4
  | trace => 5

def style : Level → Terminal.Style
  | error => .strong .red
  | warn => .colored .yellow
  | info => .colored .green
  | debug => .colored .blue
  | trace => .colored .cyan

def all : List Level := [error, warn, info, debug, trace]

end Level

/-- Whether the log shows styles, given a wish about the log and what other outputs do. -/
def isStyled (wish : Option Text) (others : Bool) : Bool :=
  if wish = some "always".toList then true
  else if wish = some "never".toList then false
  else others

structure Record where
  level : Level
  target : String
  message : Text
  deriving DecidableEq, Repr

namespace Record

/-- The name of the level, at least five characters wide. -/
def levelField (r : Record) : Text :=
  r.level.name.toList ++ Text.spaces (5 - r.level.name.length)

/-- The lines of a record, in style. All lines but the first one of the message are indented. -/
def render (r : Record) : Text :=
  Terminal.paint (.colored .gray) "[" ++ Terminal.paint r.level.style r.levelField ++ " " ++
    r.target ++ Terminal.paint (.colored .gray) "]" ++ " " ++
    Text.replaceAll "\n" "\n    " r.message ++ ['\n']

/-- The lines of a record as an output shows them. A control sequence that has no end takes in the
end of the last line. -/
def display (styled : Bool) (r : Record) : Text := Terminal.display styled r.render

end Record

/-- The rank up to which the records of some targets are written. -/
structure Directive where
  /-- How the names of the targets begin; all targets if there is none. -/
  target : Option Text
  rank : Nat
  deriving DecidableEq, Repr

namespace Directive

def width (d : Directive) : Nat := Text.width (d.target.getD [])

def appliesTo (d : Directive) (target : String) : Bool :=
  d.target.all fun t => t.isPrefixOf target.toList

end Directive

/-- Which records are written. -/
structure Filter where
  directives : List Directive
  pattern : Option Regex
  deriving Repr

namespace Filter

/-- A directive, in place of an earlier one with the same name. -/
def insert (d : Directive) : List Directive → List Directive
  | [] => [d]
  | e :: more => if e.target = d.target then d :: more else e :: insert d more

/-- Of two directives the one with the longer name; of equally long ones the later. -/
def longer (best : Option Directive) (d : Directive) : Option Directive :=
  match best with
  | some b => if d.width < b.width then some b else some d
  | none => some d

/-- The directive that counts for a target. -/
def directive? (f : Filter) (target : String) : Option Directive :=
  (f.directives.filter (·.appliesTo target)).foldl longer none

def passes (f : Filter) (r : Record) : Bool :=
  ((f.directive? r.target).any fun d => r.level.rank ≤ d.rank) &&
    f.pattern.all (·.occursIn r.message)

/-! ## Reading a filter -/

/-- The rank of the level with the given name, in either case. -/
def rank? (t : Text) : Option Nat :=
  if Text.sameLetters t "off" then some 0
  else (Level.all.find? fun l => Text.sameLetters t l.name.toList).map Level.rank

/-- One directive, or what is wrong with it. -/
def directive (t : Text) : Except Text Directive :=
  match Text.splitOn (· == '=') t with
  | [one] =>
    match rank? one with
    | some rank => .ok ⟨none, rank⟩
    | none => .ok ⟨some one, Level.trace.rank⟩
  | [target, level] =>
    let level := Text.trim level
    if level = [] then .ok ⟨some target, Level.trace.rank⟩
    else
      match rank? level with
      | some rank => .ok ⟨some target, rank⟩
      | none => .error ("invalid logging spec '" ++ level ++ "'")
  | _ => .error ("invalid logging spec '" ++ t ++ "'")

/-- The filter that a text writes, and what is wrong with the parts of it that do not count.
Without any directive only errors are written. -/
def parse (t : Text) : Filter × List Text :=
  let finish (directives : List Directive) (pattern : Option Regex) (faults : List Text) :=
    (⟨if directives.isEmpty then [⟨none, Level.error.rank⟩] else directives, pattern⟩, faults)
  let read (t : Text) : List Directive × List Text :=
    let parts := ((Text.splitOn (· == ',') t).map Text.trim).filter (· ≠ [])
    parts.foldl (fun (ds, faults) part =>
      match directive part with
      | .ok d => (insert d ds, faults)
      | .error fault => (ds, faults ++ [fault])) ([], [])
  match Text.splitOn (· == '/') t with
  | [targets] =>
    let (ds, faults) := read targets
    finish ds none faults
  | [targets, pattern] =>
    let (ds, faults) := read targets
    match Regex.compile? false pattern with
    | some regex => finish ds (some regex) faults
    | none => finish ds none (faults ++ [("invalid regex filter" : Text)])
  | _ => finish [] none [("invalid logging spec '" : Text) ++ t ++ "' (too many '/'s)"]

end Filter
end DialectBridge.Log
