import DialectBridge.Sql.Paren
/-!
# Editing a query

An edit is found in the masked query and made in the query itself, at the same offsets. It is a
computation that keeps a log of type `σ`, such as the warnings raised so far, and that has no
result where an offset does not fall between two characters.
-/
namespace DialectBridge

/-- A computation on queries with a log; it fails only at an offset that cuts a character. -/
abbrev Editing (σ : Type) := StateT σ Option

namespace Editing
variable {σ α β : Type}

/-- A computation without a log, with the log of what goes on. -/
theorem run_lift_bind (x : Option α) (f : α → Editing σ β) (s : σ) :
    (liftM x >>= f : Editing σ β).run s = x.bind fun a => (f a).run s := by
  cases x <;> rfl

@[simp] theorem lift_some_bind (a : α) (f : α → Editing σ β) :
    (liftM (some a) >>= f : Editing σ β) = f a := rfl

theorem run_lift (x : Option α) (s : σ) : (liftM x : Editing σ α).run s = x.map (·, s) := by
  cases x <;> rfl

end Editing

/-- The matches of `p` in the masked query, each replaced by what `f` gives for it or left
alone. The last match comes first, so that the offsets of the others stay good. -/
def replaceSpans {σ : Type} (sql : Text) (p : Pattern) (f : Match → Editing σ (Option Text)) :
    Editing σ Text :=
  (p.findAll (mask sql)).foldrM (fun m out => do
    match ← f m with
    | none => return out
    | some r => Text.splice? out m.start m.stop r) sql

def maxPasses : Nat := 64

/-- Repeats `step` until it has no result or changes nothing, at most `passes` times. -/
def repeatStep {σ : Type} (step : Text → Editing σ (Option Text)) : Nat → Text → Editing σ Text
  | 0, sql => return sql
  | passes + 1, sql => do
    match ← step sql with
    | none => return sql
    | some next => if next = sql then return sql else repeatStep step passes next

/-- Repeats `step` until it has no result or changes nothing, or has run `maxPasses` times. -/
def fixpoint {σ : Type} (step : Text → Editing σ (Option Text)) (sql : Text) : Editing σ Text :=
  repeatStep step maxPasses sql

end DialectBridge
