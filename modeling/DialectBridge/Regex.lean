import DialectBridge.Pattern.Replacement
import DialectBridge.Regex.Machine
import DialectBridge.Regex.Reading
import DialectBridge.Regex.Room
/-!
# Regular expressions of the user

A regular expression arrives as a text. It is read into an expression, simplified, and written
as a program; a text that writes none, or one that is nested too deep or takes too much room, is
refused.
-/
namespace DialectBridge

/-- A regular expression ready for use: its program and the numbers of its named groups. -/
structure Regex where
  program : Regex.Program
  names : List (Text × Nat)
  deriving Repr

namespace Regex

/-- The regular expression that a text writes, case counting or not; none if the text writes
none. -/
def compile? (caseInsensitive : Bool) (t : Text) : Option Regex := do
  let (e, names) ← read? t
  if Expr.heightLimit < e.height false false then none
  let n ← e.node? (if caseInsensitive then [.caseInsensitive, .unicode] else [.unicode])
  if !n.fits then none
  return ⟨.ofNode n, names⟩

def occursIn (r : Regex) (t : Text) : Bool := (r.program.find? t).isSome

/-- `t` with every match replaced. -/
def replaceAll (r : Regex) (replacement t : Text) : Text :=
  Pattern.replaceMatches (Pattern.expandAt r.names replacement) (.atStart t) (r.program.findAll t)

def replaceFirst (r : Regex) (replacement t : Text) : Text :=
  Pattern.replaceMatches (Pattern.expandAt r.names replacement) (.atStart t)
    (r.program.find? t).toList

end Regex
end DialectBridge
