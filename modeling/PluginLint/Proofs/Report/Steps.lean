import Mathlib.Data.List.Basic
import PluginLint.Proofs.Report.Recording

/-!
# Results under pushes and marks

While checks run their results take issues and critical marks, in any order and in between those of
other results. A mark and a push on one result do not see each other (`foldl_apply`), and a step on
one result leaves the others alone (`getElem?_foldl_modify`). So after any steps each result holds
exactly the issues that were pushed to it and are kept, and has passed when no requirement is among
them (`eachWellRecorded_afterSteps`).
-/
namespace PluginLint.CheckResult

/-- What a check does to its result. -/
inductive Step where
  | push (issue : Issue)
  | markCritical

def apply (r : CheckResult) : Step → CheckResult
  | .push issue => r.push issue
  | .markCritical => r.markCritical

/-- The issues that are pushed in some steps. -/
def pushed (steps : List Step) : List Issue :=
  steps.filterMap fun
    | .push issue => some issue
    | .markCritical => none

/-- Whether a result is marked as critical in some steps. -/
def isMarked (steps : List Step) : Bool :=
  steps.any fun
    | .push _ => false
    | .markCritical => true

/-- What a result of a check holds after some steps. -/
structure WellRecorded (kind : CheckKind) (detailed : Bool) (steps : List Step) (r : CheckResult) :
    Prop where
  check : r.check = kind
  verbose : r.verbose = detailed
  issues : r.issues = ((pushed steps).filter fun i => detailed || decide (i.severity ≠ .ok)).map
    (Issue.stamp kind)
  critical : r.critical = isMarked steps
  passed : r.passed = true ↔ ∀ i ∈ r.issues, i.severity ≠ .must
  details : (∃ i ∈ r.issues, i.severity = .ok) → detailed = true
  own : ∀ i ∈ r.issues, i.check = kind

/-- A mark and a push do not see each other, so the marks among some steps can be told apart from
the pushes. -/
theorem foldl_apply (r : CheckResult) (steps : List Step) :
    steps.foldl apply r =
      { (pushed steps).foldl push r with critical := r.critical || isMarked steps } := by
  induction steps generalizing r with
  | nil => simp [pushed, isMarked]
  | cons step rest ih =>
    rw [List.foldl_cons, ih]
    cases step with
    | push issue =>
      have hcritical : (r.push issue).critical = r.critical := by rw [push_eq]
      simp only [apply, hcritical]
      rfl
    | markCritical =>
      have hpushed : pushed (.markCritical :: rest) = pushed rest := rfl
      have hmarked : isMarked (.markCritical :: rest) = true := rfl
      rw [hpushed, hmarked, foldl_push, foldl_push]
      simp [apply, markCritical, keeps]

theorem wellRecorded_foldl (kind : CheckKind) (detailed : Bool) (steps : List Step) :
    WellRecorded kind detailed steps (steps.foldl apply (empty kind detailed)) := by
  have hfield := foldl_push (empty kind detailed) (pushed steps)
  have hissues : ((pushed steps).foldl push (empty kind detailed)).issues =
      ((pushed steps).filter fun i => detailed || decide (i.severity ≠ .ok)).map
        (Issue.stamp kind) := by
    rw [hfield]
    rfl
  have hpassed : ((pushed steps).foldl push (empty kind detailed)).passed =
      (pushed steps).all fun i => decide (i.severity ≠ .must) := by
    rw [hfield]
    rfl
  rw [foldl_apply]
  refine ⟨by rw [hfield]; rfl, by rw [hfield]; rfl, hissues, rfl, ?_, ?_, ?_⟩
  · rw [hpassed, hissues, List.all_eq_true, List.forall_mem_map]
    constructor
    · intro hall i hi
      exact of_decide_eq_true (hall i (List.mem_of_mem_filter hi))
    · intro hkept i hi
      rw [decide_eq_true_iff]
      intro hmust
      -- a requirement is kept whether passing details are wanted or not
      exact hkept i (List.mem_filter.mpr ⟨hi, by simp [hmust]⟩) hmust
  · rw [hissues]
    rintro ⟨_, hmem, hok⟩
    obtain ⟨i, hi, rfl⟩ := List.mem_map.mp hmem
    have hkept := (List.mem_filter.mp hi).2
    rw [Issue.stamp_severity] at hok
    simpa [hok] using hkept
  · rw [hissues, List.forall_mem_map]
    exact fun i _ => rfl

/-! ## Several results -/

/-- Results of some checks, empty at first, after steps on them. Each step names the result that it
is on by its place; a step on no result is lost. -/
def afterSteps (starts : List (CheckKind × Bool)) (steps : List (Nat × Step)) : List CheckResult :=
  steps.foldl (fun results step => results.modify step.1 (apply · step.2))
    (starts.map fun start => empty start.1 start.2)

/-- The steps on the result at a place. -/
def stepsOn (place : Nat) (steps : List (Nat × Step)) : List Step :=
  steps.filterMap fun step => if step.1 = place then some step.2 else none

theorem getElem?_foldl_modify (results : List CheckResult) (steps : List (Nat × Step))
    (place : Nat) :
    (steps.foldl (fun results step => results.modify step.1 (apply · step.2)) results)[place]? =
      results[place]?.map ((stepsOn place steps).foldl apply) := by
  induction steps generalizing results with
  | nil => simp [stepsOn]
  | cons step rest ih =>
    rw [List.foldl_cons, ih, List.getElem?_modify]
    by_cases h : step.1 = place
    · simp [stepsOn, h, Function.comp_def]
    · simp [stepsOn, h]

theorem length_foldl_modify (results : List CheckResult) (steps : List (Nat × Step)) :
    (steps.foldl (fun results step => results.modify step.1 (apply · step.2)) results).length =
      results.length := by
  induction steps generalizing results with
  | nil => rfl
  | cons step rest ih => rw [List.foldl_cons, ih, List.length_modify]

/-- Every result has what was done to it and nothing else. -/
structure EachWellRecorded (starts : List (CheckKind × Bool)) (steps : List (Nat × Step))
    (results : List CheckResult) : Prop where
  length : results.length = starts.length
  recorded : ∀ place r, results[place]? = some r → ∃ start, starts[place]? = some start ∧
    WellRecorded start.1 start.2 (stepsOn place steps) r

theorem eachWellRecorded_afterSteps (starts : List (CheckKind × Bool))
    (steps : List (Nat × Step)) : EachWellRecorded starts steps (afterSteps starts steps) where
  length := by
    rw [afterSteps, length_foldl_modify, List.length_map]
  recorded := by
    intro place r hr
    rw [afterSteps, getElem?_foldl_modify, List.getElem?_map, Option.map_map] at hr
    obtain ⟨start, hstart, rfl⟩ := Option.map_eq_some_iff.mp hr
    refine ⟨start, hstart, ?_⟩
    exact wellRecorded_foldl start.1 start.2 (stepsOn place steps)

end PluginLint.CheckResult
