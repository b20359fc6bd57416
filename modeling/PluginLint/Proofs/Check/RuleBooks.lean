import Mathlib.Data.List.Forall2
import PluginLint.Proofs.Check.Isolation

/-!
# Rule books

A rule book says of some rules what violates each of them and which issue reports that. Some issues
answer a list of rules when, at every weight that the book covers, they are the reports on those
that are violated, one for each and in their order. Answers can be put in a row, so a check that
goes through its rules is answered rule by rule.
-/
namespace PluginLint

/-- Rules of a kind: how much they weigh, what violates one and which issue reports a violation. -/
structure RuleBook (ρ : Type) where
  severity : ρ → Severity
  /-- the weights whose issues all come from these rules -/
  Covers : Severity → Prop
  Violated : ρ → Prop
  decidable : DecidablePred Violated
  Reports : ρ → Issue → Prop
  not_covers_ok : ¬ Covers .ok
  severity_of_reports : ∀ {rule i}, Reports rule i → i.severity = severity rule
  reports_stamp : ∀ {rule i} kind, Reports rule i → Reports rule (i.stamp kind)

attribute [instance] RuleBook.decidable

namespace RuleBook

variable {ρ : Type} {book : RuleBook ρ} {rule : ρ} {rules first second : List ρ}
  {issues more : List Issue} {i : Issue}

/-- The rules of a weight that are violated. -/
def violations (book : RuleBook ρ) (severity : Severity) (rules : List ρ) : List ρ :=
  rules.filter fun rule => book.severity rule = severity ∧ book.Violated rule

/-- Whether some issues of the covered weights are the reports on the violated rules of a list. -/
def Answered (book : RuleBook ρ) (rules : List ρ) (issues : List Issue) : Prop :=
  ∀ severity, book.Covers severity → List.Forall₂ book.Reports (book.violations severity rules)
    (issues.filter fun i => i.severity = severity)

namespace Answered

theorem nil : book.Answered [] [] := fun _ _ => .nil

theorem append (h : book.Answered first issues) (h' : book.Answered second more) :
    book.Answered (first ++ second) (issues ++ more) := by
  intro severity hcovers
  rw [violations, List.filter_append, List.filter_append]
  exact List.rel_append (h severity hcovers) (h' severity hcovers)

theorem of_reports (hrule : book.Violated rule) (hi : book.Reports rule i) :
    book.Answered [rule] [i] := by
  intro severity _
  have hweight := book.severity_of_reports hi
  by_cases hsame : book.severity rule = severity
  · simpa [violations, hsame, hweight, hrule] using hi
  · simp [violations, hsame, hweight]

theorem of_obeyed (hrule : ¬ book.Violated rule) : book.Answered [rule] [] := by
  intro severity _
  simp [violations, hrule]

/-- Issues of other weights answer nothing. -/
theorem detail (hi : ¬ book.Covers i.severity) : book.Answered [] [i] := by
  intro severity hcovers
  have hweight : i.severity ≠ severity := by
    rintro rfl
    exact hi hcovers
  simp [violations, hweight]

/-- Rules that are answered one by one are answered in a row. -/
theorem flatMap {α : Type} {l : List α} {rulesOf : α → List ρ} {issuesOf : α → List Issue}
    (h : ∀ a ∈ l, book.Answered (rulesOf a) (issuesOf a)) :
    book.Answered (l.flatMap rulesOf) (l.flatMap issuesOf) := by
  induction l with
  | nil => exact nil
  | cons a rest ih =>
    rw [List.flatMap_cons, List.flatMap_cons]
    refine append (h a List.mem_cons_self) (ih fun b hb => ?_)
    exact h b (List.mem_cons_of_mem a hb)

/-- What a result keeps of the issues that answer some rules answers them as well. -/
theorem kept (h : book.Answered rules issues) (kind : CheckKind) (verbose : Bool) :
    book.Answered rules (Check.kept kind verbose issues) := by
  intro severity hcovers
  have hweight : severity ≠ .ok := by
    rintro rfl
    exact book.not_covers_ok hcovers
  rw [Check.filter_kept kind verbose hweight, List.forall₂_map_right_iff]
  exact (h severity hcovers).imp fun _ _ => book.reports_stamp kind

/-- There is no issue of a covered weight exactly when no rule of that weight is violated. -/
theorem filter_eq_nil_iff (h : book.Answered rules issues) {severity : Severity}
    (hcovers : book.Covers severity) : (issues.filter fun i => i.severity = severity) = [] ↔
      ∀ rule ∈ rules, book.severity rule = severity → ¬ book.Violated rule := by
  rw [← List.length_eq_zero_iff, ← (h severity hcovers).length_eq, List.length_eq_zero_iff,
    violations, List.filter_eq_nil_iff]
  simp only [decide_eq_true_eq, not_and]

/-- A violated rule of a covered weight is reported. -/
theorem exists_report (h : book.Answered rules issues) (hcovers : book.Covers (book.severity rule))
    (hmem : rule ∈ rules) (hrule : book.Violated rule) : ∃ i ∈ issues, book.Reports rule i := by
  have hviolation : rule ∈ book.violations (book.severity rule) rules :=
    List.mem_filter.mpr ⟨hmem, by simp [hrule]⟩
  have hanswer := h _ hcovers
  obtain ⟨k, hk, hget⟩ := List.getElem_of_mem hviolation
  have hreports := hanswer.get hk (hanswer.length_eq ▸ hk)
  rw [List.get_eq_getElem, hget] at hreports
  exact ⟨_, List.mem_of_mem_filter (List.get_mem _ _), hreports⟩

/-- An issue of a covered weight reports a violated rule. -/
theorem exists_violation (h : book.Answered rules issues) (hi : i ∈ issues)
    (hcovers : book.Covers i.severity) :
    ∃ rule ∈ rules, book.Violated rule ∧ book.Reports rule i := by
  have hweighed : i ∈ issues.filter fun other => other.severity = i.severity :=
    List.mem_filter.mpr ⟨hi, by simp⟩
  have hanswer := h _ hcovers
  obtain ⟨k, hk, hget⟩ := List.getElem_of_mem hweighed
  have hviolation : k < (book.violations i.severity rules).length := hanswer.length_eq ▸ hk
  have hreports := hanswer.get hviolation hk
  rw [List.get_eq_getElem, List.get_eq_getElem, hget] at hreports
  obtain ⟨hmem, hrule⟩ := List.mem_filter.mp (List.getElem_mem hviolation)
  exact ⟨_, hmem, (of_decide_eq_true hrule).2, hreports⟩

end Answered
end RuleBook
end PluginLint
