import PluginLint.Number.Natural

/-!
# Budget limits

Five thresholds: two for the metadata of a skill and three for its body. Nothing here asks that
they be in order; settings that are loaded are (`Limits.disorder?`).
-/
namespace PluginLint

structure Limits where
  metadataTarget : Nat
  metadataWarning : Nat
  bodyTarget : Nat
  bodyWarning : Nat
  bodyCritical : Nat
  deriving DecidableEq, Repr

/-- The limits where nothing else is set. -/
def Limits.standard : Limits := ⟨50, 100, 500, 800, 2500⟩

/-- How a body stands against the limits. -/
inductive BudgetStatus where
  | ok
  | warning
  | critical
  deriving DecidableEq, Repr

namespace BudgetStatus

def ofBody (body : Nat) (limits : Limits) : BudgetStatus :=
  if limits.bodyCritical < body then .critical
  else if limits.bodyWarning < body then .warning
  else .ok

/-- How bad a status is. -/
def rank : BudgetStatus → Nat
  | .ok => 0
  | .warning => 1
  | .critical => 2

/-- The worse of two statuses. -/
instance : Max BudgetStatus := ⟨fun a b => if a.rank ≤ b.rank then b else a⟩

instance : Std.Associative (max : BudgetStatus → BudgetStatus → BudgetStatus) where
  assoc a b c := by cases a <;> cases b <;> cases c <;> rfl

def word : BudgetStatus → String
  | .ok => "OK"
  | .warning => "WARNING"
  | .critical => "CRITICAL"

end BudgetStatus
end PluginLint
