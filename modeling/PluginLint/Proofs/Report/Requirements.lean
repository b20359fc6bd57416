import PluginLint.Proofs.Check.Isolation

/-!
# Requirements

What a report demands: the requirements among its issues, line numbers aside. Requirements of issues
in a row are those of the parts, an issue counts by all but its line (`requirements_congr`), and a
result keeps every requirement (`requirements_kept`).
-/
namespace PluginLint

/-- The issue without its line. -/
def Issue.withoutLine (i : Issue) : Issue := { i with line := none }

@[simp] theorem Issue.severity_withoutLine (i : Issue) :
    i.withoutLine.severity = i.severity := rfl

/-- What is set besides the line is the same afterwards. -/
theorem Issue.withoutLine_with {i j : Issue} (h : i.withoutLine = j.withoutLine)
    (source suggestion : Option Text) :
    ({ i with source := source, suggestion := suggestion } : Issue).withoutLine =
      ({ j with source := source, suggestion := suggestion } : Issue).withoutLine :=
  congrArg (fun i : Issue => { i with source := source, suggestion := suggestion }) h

/-- The requirements among some issues, line numbers aside. -/
def requirements (issues : List Issue) : List Issue :=
  (issues.filter fun i => i.severity = .must).map Issue.withoutLine

section Requirements

variable {i j : Issue}

theorem requirements_append (first second : List Issue) :
    requirements (first ++ second) = requirements first ++ requirements second := by
  rw [requirements, List.filter_append, List.map_append]
  rfl

theorem requirements_flatMap {α : Type} (l : List α) (issuesOf : α → List Issue) :
    requirements (l.flatMap issuesOf) = l.flatMap fun a => requirements (issuesOf a) := by
  simp only [requirements, List.filter_flatMap, List.map_flatMap]

theorem requirements_detail (h : i.severity ≠ .must) : requirements [i] = [] := by
  simp [requirements, h]

/-- An issue counts without its line. -/
theorem requirements_singleton (i : Issue) : requirements [i] = requirements [i.withoutLine] := by
  by_cases h : i.severity = .must
  · simp [requirements, h, Issue.withoutLine]
  · simp [requirements, h]

theorem requirements_congr (h : i.withoutLine = j.withoutLine) :
    requirements [i] = requirements [j] := by
  rw [requirements_singleton i, h, ← requirements_singleton]

theorem requirements_map_congr {α : Type} {issueOf issueOf' : α → Issue} (l : List α)
    (h : ∀ a, (issueOf' a).withoutLine = (issueOf a).withoutLine) :
    requirements (l.map issueOf') = requirements (l.map issueOf) := by
  rw [List.map_eq_flatMap, List.map_eq_flatMap, requirements_flatMap, requirements_flatMap]
  exact List.flatMap_congr fun a _ => requirements_congr (h a)

/-- Recording keeps all requirements. -/
theorem requirements_kept (kind : CheckKind) (verbose : Bool) (issues : List Issue) :
    requirements (Check.kept kind verbose issues) =
      (requirements issues).map (Issue.stamp kind) := by
  rw [requirements, Check.filter_kept kind verbose Severity.noConfusion, requirements,
    List.map_map, List.map_map]
  rfl

end Requirements

end PluginLint
