/-!
# Severity

How much an issue weighs, from a passing detail to a requirement. Only the last blocks a plugin.
-/
namespace PluginLint

inductive Severity where
  /-- a detail that is in order -/
  | ok
  | may
  | should
  | must
  deriving DecidableEq, Repr

namespace Severity

/-- The severities that every report shows, the weightiest first. -/
def reported : List Severity := [.must, .should, .may]

def word : Severity → String
  | .ok => "ok"
  | .may => "may"
  | .should => "should"
  | .must => "must"

/-- The word in capitals, as reports show it. -/
def capitals : Severity → String
  | .ok => "OK"
  | .may => "MAY"
  | .should => "SHOULD"
  | .must => "MUST"

def ofWord? (s : String) : Option Severity := [ok, may, should, must].find? fun v => v.word = s

/-- The weight of a severity. -/
def rank : Severity → Nat
  | .ok => 0
  | .may => 1
  | .should => 2
  | .must => 3

end Severity
end PluginLint
