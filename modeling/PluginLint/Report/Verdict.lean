import PluginLint.Report.Issue

/-!
# Results and verdict

A check records its issues in a result, which drops passing details unless they are asked for and
marks every issue as its own. The verdict counts the issues of all results; its exit code tells a
critical budget from a requirement that is not met.
-/
namespace PluginLint

/-- The issues recorded by one check. -/
structure CheckResult where
  check : CheckKind
  /-- whether passing details are kept -/
  verbose : Bool
  issues : List Issue
  /-- whether no requirement is violated -/
  passed : Bool
  /-- whether a budget is critical -/
  critical : Bool
  deriving DecidableEq, Repr

namespace CheckResult

def empty (check : CheckKind) (verbose : Bool) : CheckResult := ⟨check, verbose, [], true, false⟩

/-- Whether a result keeps issues of a severity. -/
def keeps (r : CheckResult) (severity : Severity) : Bool := r.verbose || severity ≠ .ok

/-- Records an issue. -/
def push (r : CheckResult) (issue : Issue) : CheckResult :=
  if r.keeps issue.severity then
    { r with
      issues := r.issues ++ [{ issue with check := r.check }]
      passed := r.passed && issue.severity ≠ .must }
  else r

def markCritical (r : CheckResult) : CheckResult := { r with critical := true }

/-- The issues of one severity. -/
def ofSeverity (r : CheckResult) (severity : Severity) : List Issue :=
  r.issues.filter fun i => i.severity = severity

def count (r : CheckResult) (severity : Severity) : Nat := (r.ofSeverity severity).length

end CheckResult

/-- What the results of a run amount to. -/
structure Verdict where
  must : Nat
  should : Nat
  may : Nat
  passed : Bool
  critical : Bool
  deriving DecidableEq, Repr

namespace Verdict

/-- How many issues of a severity the results hold. -/
def total (results : List CheckResult) (severity : Severity) : Nat :=
  results.foldr (fun r sum => r.count severity + sum) 0

def ofResults (results : List CheckResult) : Verdict where
  must := total results .must
  should := total results .should
  may := total results .may
  passed := total results .must == 0
  critical := results.any (·.critical)

/-- The exit code of a run. -/
def exitCode (v : Verdict) : Nat := if v.critical then 2 else if v.passed then 0 else 1

end Verdict

/-- The results of a run, in the order of the checks. -/
structure Report where
  results : List CheckResult
  deriving DecidableEq, Repr

namespace Report

def verdict (r : Report) : Verdict := Verdict.ofResults r.results

/-- The issues of one severity, check by check. -/
def ofSeverity (r : Report) (severity : Severity) : List Issue :=
  r.results.flatMap (·.ofSeverity severity)

/-- The first result of a kind. -/
def result? (r : Report) (kind : CheckKind) : Option CheckResult :=
  r.results.find? fun result => result.check = kind

/-- The verdict counts what the report lists. -/
theorem length_ofSeverity (r : Report) (severity : Severity) :
    (r.ofSeverity severity).length = Verdict.total r.results severity := by
  obtain ⟨results⟩ := r
  induction results with
  | nil => rfl
  | cons first rest ih =>
    simp only [ofSeverity, Verdict.total, List.flatMap_cons, List.length_append,
      List.foldr_cons] at ih ⊢
    rw [ih]
    rfl

end Report
end PluginLint
