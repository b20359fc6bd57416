import Mathlib.Data.List.Basic
import PluginLint.Check.Basic

/-!
# What a result holds once findings are recorded

Recording pushes one issue after the other. One push either leaves the result alone or appends the
stamped issue, so a whole record holds the issues that are kept, in their order, and has passed
when no finding is a requirement.
-/
namespace PluginLint

/-- An issue marked as belonging to a check. -/
def Issue.stamp (kind : CheckKind) (i : Issue) : Issue := { i with check := kind }

@[simp] theorem Issue.stamp_severity (kind : CheckKind) (i : Issue) :
    (i.stamp kind).severity = i.severity := rfl

namespace CheckResult

/-- One push: what is kept goes to the end, and only a requirement changes whether it passed. -/
theorem push_eq (r : CheckResult) (i : Issue) :
    r.push i = { r with
      issues := r.issues ++ (if r.keeps i.severity then [i.stamp r.check] else [])
      passed := r.passed && decide (i.severity ≠ .must) } := by
  unfold push
  by_cases h : r.keeps i.severity = true
  · simp only [if_pos h, Issue.stamp]
  · have hok : i.severity = .ok := by
      by_contra hne
      simp [keeps, hne] at h
    rw [if_neg h, if_neg h]
    simp [hok]

theorem foldl_push (r : CheckResult) (issues : List Issue) :
    issues.foldl push r = { r with
      issues := r.issues ++ (issues.filter fun i => r.keeps i.severity).map (Issue.stamp r.check)
      passed := r.passed && issues.all fun i => decide (i.severity ≠ .must) } := by
  induction issues generalizing r with
  | nil => simp
  | cons i rest ih =>
    rw [List.foldl_cons, ih, push_eq, List.filter_cons, List.all_cons]
    by_cases h : r.keeps i.severity = true
    · rw [if_pos h, if_pos h, List.map_cons, List.append_assoc, Bool.and_assoc]
      rfl
    · rw [if_neg h, if_neg h, List.append_nil, Bool.and_assoc]
      rfl

end CheckResult

namespace Check

variable (kind : CheckKind) (verbose : Bool) (found : Findings)

theorem record_eq : record kind verbose found =
    { check := kind
      verbose := verbose
      issues := (found.issues.filter fun i => verbose || decide (i.severity ≠ .ok)).map
        (Issue.stamp kind)
      passed := found.issues.all fun i => decide (i.severity ≠ .must)
      critical := found.critical } := by
  unfold record
  simp only [CheckResult.foldl_push]
  cases hc : found.critical <;> simp [CheckResult.empty, CheckResult.keeps, CheckResult.markCritical]

theorem record_check : (record kind verbose found).check = kind := by rw [record_eq]

theorem record_critical : (record kind verbose found).critical = found.critical := by
  rw [record_eq]

/-- Of issues other than passing details none is dropped and none is made up, whatever is asked of
them beside the check that they belong to. -/
theorem exists_record {p : Issue → Prop} (hstamp : ∀ i, p (i.stamp kind) ↔ p i)
    (hreported : ∀ i, p i → i.severity ≠ .ok) :
    (∃ i ∈ (record kind verbose found).issues, p i) ↔ ∃ i ∈ found.issues, p i := by
  rw [record_eq]
  constructor
  · rintro ⟨i, hi, hp⟩
    obtain ⟨j, hj, rfl⟩ := List.mem_map.mp hi
    exact ⟨j, List.mem_of_mem_filter hj, (hstamp j).mp hp⟩
  · rintro ⟨i, hi, hp⟩
    refine ⟨i.stamp kind, List.mem_map_of_mem (List.mem_filter.mpr ⟨hi, ?_⟩), (hstamp i).mpr hp⟩
    simp [hreported i hp]

/-- No requirement is dropped and none is made up. -/
theorem exists_must_record :
    (∃ i ∈ (record kind verbose found).issues, i.severity = .must) ↔
      ∃ i ∈ found.issues, i.severity = .must :=
  exists_record kind verbose found (fun _ => Iff.rfl) fun i hmust => by simp [hmust]

end Check
end PluginLint
