import DialectBridge.Substitution
import DialectBridge.Warning
/-!
# Rules of the user

A user can add rules of two kinds: a rule that substitutes, and a rule that detects a pattern
in code and raises a warning. As written, a rule is a set of optional fields; `compile` turns it
into an action or says what is wrong with it.
-/
namespace DialectBridge

/-- A rule as a user writes it. -/
structure CustomRule where
  name : Option Text
  /-- The direction in which the rule runs; both if there is none. -/
  direction : Option Direction
  substitution : Option Text
  detect : Option Text
  warning : Option Text
  deriving DecidableEq, Repr

namespace CustomRule

/-- What a rule does. -/
inductive Action where
  /-- Changes the query. -/
  | substitute (s : Substitution)
  /-- Raises a warning if the pattern occurs in code. -/
  | detect (pattern : Regex) (warning : Text)
  deriving Repr

def displayName (rule : CustomRule) : Text := rule.name.getD "<unnamed>"

/-- Whether the fields of a rule ask for exactly one action, with its warning if this is a
detection. Patterns are not looked at. -/
def validate (rule : CustomRule) : Except Error Unit :=
  match rule.substitution, rule.detect, rule.warning with
  | some _, some _, _ => .error (.conflictingActions rule.displayName)
  | none, none, _ => .error (.missingAction rule.displayName)
  | none, some _, none => .error (.missingWarning rule.displayName)
  | _, _, _ => .ok ()

def action (rule : CustomRule) : Except Error Action :=
  match rule.substitution, rule.detect with
  | some text, none => do return .substitute (← Substitution.parse text)
  | none, some pattern =>
    match Regex.compile? true pattern, rule.warning with
    | none, _ => .error (.invalidRegex pattern)
    | some _, none => .error (.missingWarning rule.displayName)
    | some regex, some warning => .ok (.detect regex warning)
  | some _, some _ => .error (.conflictingActions rule.displayName)
  | none, none => .error (.missingAction rule.displayName)

end CustomRule

/-- A rule that is ready to run, and the file that it comes from. -/
structure CompiledRule where
  rule : CustomRule
  action : CustomRule.Action
  source : Text
  deriving Repr

namespace CustomRule

/-- Makes a rule ready to run. -/
def compile (source : Text) (rule : CustomRule) : Except Error CompiledRule := do
  return ⟨rule, ← rule.action, source⟩

end CustomRule

namespace CompiledRule

def appliesTo (r : CompiledRule) (d : Direction) : Bool := r.rule.direction.all (· == d)

def apply (r : CompiledRule) (sql : Text) : Reporting Text := do
  match r.action with
  | .substitute s => return s.apply sql
  | .detect pattern warning =>
    if pattern.occursIn (mask sql) then warnOnce .custom warning
    return sql

end CompiledRule
end DialectBridge
