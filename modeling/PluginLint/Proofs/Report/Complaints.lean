import PluginLint.Proofs.Report.Selection
import PluginLint.Proofs.Report.Verbosity

/-!
# Complaints

What a result says apart from passing details and figures. Recording keeps all of it, whether a
result passed is read off it (`Check.record_passed_eq`), and so is the weight of a result in a
verdict (`Verdict.ofResults_congr`).
-/
namespace PluginLint

/-- The issue without the figures that are attached to it. -/
def Issue.withoutDetails (i : Issue) : Issue := { i with details := none }

/-- The issues that are more than passing details, without figures. -/
def complaints (issues : List Issue) : List Issue :=
  (issues.filter fun i => i.severity ≠ .ok).map Issue.withoutDetails

theorem complaints_append (first second : List Issue) :
    complaints (first ++ second) = complaints first ++ complaints second := by
  simp only [complaints, List.filter_append, List.map_append]

theorem complaints_flatMap {α : Type} (f : α → List Issue) (l : List α) :
    complaints (l.flatMap f) = l.flatMap fun a => complaints (f a) := by
  simp only [complaints, List.filter_flatMap, List.map_flatMap]

theorem complaints_of_ok {issues : List Issue} (h : ∀ i ∈ issues, i.severity = .ok) :
    complaints issues = [] := by
  rw [complaints, List.map_eq_nil_iff, List.filter_eq_nil_iff]
  intro i hi
  simp [h i hi]

/-- A result keeps every complaint, as its own. -/
theorem Check.complaints_record (kind : CheckKind) (verbose : Bool) (found : Findings) :
    complaints (record kind verbose found).issues =
      (complaints found.issues).map (Issue.stamp kind) := by
  simp only [record_eq, complaints, List.filter_map, List.filter_filter, List.map_map,
    Function.comp_def, Issue.stamp_severity]
  refine congrArg (List.map _) (List.filter_congr fun i _ => ?_)
  by_cases hi : i.severity = .ok
  · simp [hi]
  · simp [hi]

theorem Check.record_passed_eq (kind : CheckKind) (verbose : Bool) (found : Findings) :
    (record kind verbose found).passed =
      (complaints found.issues).all fun i => decide (i.severity ≠ .must) := by
  rw [record_passed, complaints, List.all_map]
  rfl

/-- Every violation that a result counts is among its complaints. -/
theorem CheckResult.count_eq (r : CheckResult) {severity : Severity} (h : severity ≠ .ok) :
    r.count severity =
      ((complaints r.issues).filter fun i => i.severity = severity).length := by
  simp only [count, ofSeverity, complaints, List.filter_map, List.filter_filter, List.length_map,
    Function.comp_def, Issue.withoutDetails]
  refine congrArg List.length (List.filter_congr fun i _ => ?_)
  by_cases hi : i.severity = severity
  · simp [hi, h]
  · simp [hi]

/-- Results with the same complaints weigh the same in a verdict. -/
theorem Verdict.ofResults_congr {r r' : CheckResult}
    (h : complaints r.issues = complaints r'.issues) (hcritical : r.critical = r'.critical)
    (before after : List CheckResult) :
    ofResults (before ++ r :: after) = ofResults (before ++ r' :: after) := by
  have hcount (severity : Severity) (hs : severity ≠ .ok) : r.count severity = r'.count severity := by
    rw [r.count_eq hs, r'.count_eq hs, h]
  have hone : ofResults [r] = ofResults [r'] := by
    simp only [ofResults, total, List.foldr_cons, List.foldr_nil, List.any_cons, List.any_nil,
      hcritical, hcount .must (by decide), hcount .should (by decide), hcount .may (by decide)]
  rw [List.append_cons before r, List.append_cons before r', ofResults_append (before ++ [r]),
    ofResults_append (before ++ [r']), ofResults_append before, ofResults_append before, hone]

end PluginLint
