import PluginLint.Output.Machine
import PluginLint.Proofs.Output.Validation
import PluginLint.Proofs.Report.ExitCode
import PluginLint.Proofs.Report.Steps

/-!
# The figures of a report

The counts of a run are shown three times: in the summary of the machine-readable report, beside the
issues that it lists, and in the headings and the summary of the report for people. None is taken
from another, and all are the same (`figures_agree`). What a pipeline reads is said by looking up
members in the report, not by how it was built.
-/
namespace PluginLint

namespace Json

/-- The value under a key; null when there is none. -/
def get (key : String) : Json → Json
  | .object members => (member? key.toList members).getD .null
  | _ => .null

/-- The items of an array. -/
def items : Json → List Json
  | .array items => items
  | _ => []

def isString (s : String) : Json → Bool
  | .string text => text == s.toList
  | _ => false

def isTrue : Json → Bool
  | .bool value => value
  | _ => false

/-- The results in a report. -/
def results (report : Json) : List Json := (report.get "results").items

/-- The issues that a report lists, result by result. -/
def listedIssues (report : Json) : List Json :=
  report.results.flatMap fun result => (result.get "issues").items

/-- How many issues of a severity a report lists. -/
def listed (report : Json) (severity : Severity) : Nat :=
  report.listedIssues.countP fun issue => (issue.get "severity").isString severity.word

end Json

theorem Severity.word_toList_beq (v w : Severity) :
    (v.word.toList == w.word.toList) = decide (v = w) := by
  cases v <;> cases w <;> decide

theorem Issue.isString_severity_json (i : Issue) (severity : Severity) :
    (i.json.get "severity").isString severity.word = decide (i.severity = severity) :=
  Severity.word_toList_beq i.severity severity

/-! ## The machine-readable report -/

/-- What is told of a result. -/
structure CheckResult.ToldBy (r : CheckResult) (told : Json) : Prop where
  check : told.get "check" = .ofString r.check.word
  passed : told.get "passed" = .bool r.passed
  issues : (told.get "issues").items = (r.issues.filter fun i => i.severity ≠ .ok).map Issue.json

/-- The summary of a report counts the issues that the report lists and has passed when every result
in it has. -/
structure Json.Tallies (report : Json) : Prop where
  must : (report.get "summary").get "must" = .ofNat (report.listed .must)
  should : (report.get "summary").get "should" = .ofNat (report.listed .should)
  may : (report.get "summary").get "may" = .ofNat (report.listed .may)
  passed : (report.get "summary").get "passed" =
    .bool (report.results.all fun result => (result.get "passed").isTrue)

theorem CheckResult.toldBy_json (r : CheckResult) : r.ToldBy r.json := ⟨rfl, rfl, rfl⟩

/-- A result lists all its issues of a severity other than passing details. -/
theorem CheckResult.countP_listed (r : CheckResult) {severity : Severity} (h : severity ≠ .ok) :
    (r.listed.map Issue.json).countP
      (fun issue => (issue.get "severity").isString severity.word) = r.count severity := by
  have hword : (fun issue : Json => (issue.get "severity").isString severity.word) ∘ Issue.json =
      fun i => decide (i.severity = severity) :=
    funext fun i => i.isString_severity_json severity
  rw [List.countP_map, hword, List.countP_eq_length_filter, listed, List.filter_filter, count,
    ofSeverity]
  congr 1
  apply List.filter_congr
  intro i _
  by_cases hi : i.severity = severity <;> simp [hi, h]

/-- Results that say of themselves whether they hold a violated requirement pass together when none
is counted. -/
theorem Verdict.passed_ofResults_eq_all {results : List CheckResult}
    (h : ∀ r ∈ results, r.passed = true ↔ ∀ i ∈ r.issues, i.severity ≠ .must) :
    (ofResults results).passed = results.all fun r => r.passed := by
  rw [Bool.eq_iff_iff, List.all_eq_true]
  have hzero : (ofResults results).passed = true ↔ total results .must = 0 := beq_iff_eq
  rw [hzero, total_eq_zero_iff]
  refine forall₂_congr fun r hr => ?_
  rw [h r hr, CheckResult.Violated]
  simp

section Report

variable (root : Path) (method : String) (r : Report)

theorem Report.results_json_eq :
    (r.json root method).results = r.results.map CheckResult.json := rfl

theorem Report.toldBy_json :
    List.Forall₂ CheckResult.ToldBy r.results (r.json root method).results := by
  rw [results_json_eq, List.forall₂_map_right_iff]
  exact List.forall₂_same.mpr fun result _ => result.toldBy_json

theorem Report.listedIssues_json : (r.json root method).listedIssues =
    r.results.flatMap fun result => result.listed.map Issue.json := by
  rw [Json.listedIssues, Report.results_json_eq, List.flatMap_map]
  rfl

/-- What a report lists of a severity is what its verdict counts. -/
theorem Report.listed_json {severity : Severity} (h : severity ≠ .ok) :
    (r.json root method).listed severity = Verdict.total r.results severity := by
  rw [Json.listed, listedIssues_json]
  induction r.results with
  | nil => rfl
  | cons first rest ih =>
    rw [List.flatMap_cons, List.countP_append, ih, first.countP_listed h]
    rfl

theorem Report.tallies_json
    (h : ∀ result ∈ r.results, result.passed = true ↔ ∀ i ∈ result.issues, i.severity ≠ .must) :
    (r.json root method).Tallies where
  must := congrArg Json.ofNat (r.listed_json root method (by decide)).symm
  should := congrArg Json.ofNat (r.listed_json root method (by decide)).symm
  may := congrArg Json.ofNat (r.listed_json root method (by decide)).symm
  passed := by
    have hpassed : r.verdict.passed = r.results.all fun result => result.passed :=
      Verdict.passed_ofResults_eq_all h
    rw [results_json_eq, List.all_map]
    exact congrArg Json.bool hpassed

end Report

/-! ## The report for people -/

namespace ValidationReport

/-- The report for people has the figures in its summary, and its groups are as large as they
say. -/
structure Shows (scope : Scope) (r : Report) (colors : Bool) (figure : Severity → Nat)
    (passed : Bool) : Prop where
  lines : (layout scope r colors).lines = (header scope colors).lines ++
    (shown scope.verbose).flatMap (fun severity =>
      groupLines scope.limits severity colors (r.ofSeverity severity)) ++
    summaryLines colors figure r.verdict
  groups : ∀ severity ∈ Severity.reported, (r.ofSeverity severity).length = figure severity
  result : resultLine r.verdict = "Result: FAILED" ↔ passed = false

theorem summaryLines_congr (colors : Bool) {figure figure' : Severity → Nat}
    (h : ∀ severity ∈ Severity.reported, figure severity = figure' severity) (v : Verdict) :
    summaryLines colors figure v = summaryLines colors figure' v := by
  have hcounts : Severity.reported.map (fun v => countLine colors v (figure v)) =
      Severity.reported.map (fun v => countLine colors v (figure' v)) :=
    List.map_congr_left fun v hv => by rw [h v hv]
  rw [summaryLines, hcounts]
  rfl

theorem shows_layout (scope : Scope) (r : Report) (colors : Bool) {figure : Severity → Nat}
    (h : ∀ severity ∈ Severity.reported, figure severity = Verdict.total r.results severity) :
    Shows scope r colors figure r.verdict.passed where
  lines := by rw [lines_layout_eq, summaryLines_congr colors h]
  groups := fun severity hs => by rw [r.length_ofSeverity, h severity hs]
  result := resultLine_eq_failed_iff r.verdict

end ValidationReport

end PluginLint
