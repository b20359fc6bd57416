import Mathlib.Data.List.Forall2
import PluginLint.Command.Run
import PluginLint.Proofs.Check.Engine

/-!
# Asking for passing details

Asking for passing details adds passing details and nothing else. Of the built-in checks one looks
at what is asked for, and what it goes on to find are passing details (`steady_of_builtin`); a
result drops them where they are not wanted and counts none of them as a violation. So two runs that
differ in this alone agree on every other issue, on every verdict, and on all that is written as
JSON (`verbose_run_agrees`).
-/
namespace PluginLint

/-- The issues among findings that are reported whether passing details are wanted or not. -/
def Findings.reported (f : Findings) : List Issue := f.issues.filter fun i => i.severity ≠ .ok

/-- The same plugin, looked at with passing details or without. -/
def Subject.withVerbose (s : Subject) (verbose : Bool) : Subject := { s with verbose := verbose }

/-- The results of one check in a run with passing details and in a run without. -/
structure CheckResult.AgreesApartFromOk (detailed plain : CheckResult) : Prop where
  check : detailed.check = plain.check
  issues : (detailed.issues.filter fun i => i.severity ≠ .ok) = plain.issues
  passed : detailed.passed = plain.passed
  critical : detailed.critical = plain.critical

/-- A check that finds more where passing details are wanted, but only passing details. -/
structure Check.Steady (c : Check) : Prop where
  reported : ∀ s : Subject,
    (c.inspect (s.withVerbose true)).reported = (c.inspect (s.withVerbose false)).reported
  critical : ∀ s : Subject,
    (c.inspect (s.withVerbose true)).critical = (c.inspect (s.withVerbose false)).critical

/-! ## The built-in checks -/

theorem Check.steady_of_blind {c : Check}
    (h : ∀ s : Subject, c.inspect (s.withVerbose true) = c.inspect (s.withVerbose false)) :
    c.Steady :=
  ⟨fun s => by rw [h s], fun s => by rw [h s]⟩

namespace TokensCheck

theorem skillRules_reported (s : Subject) (skill : Component) :
    ((skillRules (s.withVerbose true) skill).filter fun i => i.severity ≠ .ok) =
      (skillRules (s.withVerbose false) skill).filter fun i => i.severity ≠ .ok := by
  have hbudget (v : Bool) : budget? (s.withVerbose v) skill = budget? s skill := rfl
  unfold skillRules
  rw [hbudget true, hbudget false]
  cases skill.content with
  | error fault => rfl
  | ok entry =>
    cases budget? s skill with
    | none => rfl
    | some b =>
      have hdetails : ((breakdown b.units s.limits).filter fun i => i.severity ≠ .ok) = [] := by
        apply List.filter_eq_nil_iff.mpr
        intro i hi
        simp [severity_of_breakdown hi]
      simp only [budgetRules, Subject.withVerbose, if_true, List.filter_append, hdetails]
      simp

theorem inspect_withVerbose (s : Subject) :
    (inspect (s.withVerbose true)).reported = (inspect (s.withVerbose false)).reported ∧
      (inspect (s.withVerbose true)).critical = (inspect (s.withVerbose false)).critical := by
  cases hd : s.tree.isDirectory (kindDirectory s.root .skill) with
  | false =>
    have hnone (v : Bool) := inspect_of_no_directory (s := s.withVerbose v) hd
    rw [hnone, hnone]
    exact ⟨rfl, rfl⟩
  | true =>
    by_cases hs : s.components.skills = []
    · have hempty (v : Bool) := inspect_of_no_skills (s := s.withVerbose v) hd hs
      rw [hempty, hempty]
      exact ⟨rfl, rfl⟩
    · have hskills (v : Bool) := inspect_of_skills (s := s.withVerbose v) hd hs
      rw [hskills, hskills]
      refine ⟨?_, rfl⟩
      simp only [Findings.reported, List.filter_flatMap]
      exact List.flatMap_congr fun skill _ => skillRules_reported s skill

theorem steady : tokensCheck.Steady :=
  ⟨fun s => (inspect_withVerbose s).1, fun s => (inspect_withVerbose s).2⟩

end TokensCheck

theorem steady_of_builtin {c : Check} (h : c ∈ builtinChecks) : c.Steady := by
  rcases builtin_cases h with rfl | rfl | rfl | rfl | rfl
  · exact Check.steady_of_blind fun _ => rfl
  · exact Check.steady_of_blind fun _ => rfl
  · exact Check.steady_of_blind fun _ => rfl
  · exact Check.steady_of_blind fun _ => rfl
  · exact TokensCheck.steady

/-! ## Results -/

/-- Whether a requirement is among some findings does not depend on passing details. -/
theorem Findings.all_reported (f : Findings) :
    (f.reported.all fun i => decide (i.severity ≠ .must)) =
      f.issues.all fun i => decide (i.severity ≠ .must) := by
  rw [Findings.reported, List.all_filter]
  congr 1
  funext i
  cases i.severity <;> rfl

theorem Check.record_plain_issues (kind : CheckKind) (found : Findings) :
    (record kind false found).issues = found.reported.map (Issue.stamp kind) := by
  rw [record_eq]
  rfl

theorem Check.record_detailed_issues (kind : CheckKind) (found : Findings) :
    ((record kind true found).issues.filter fun i => i.severity ≠ .ok) =
      found.reported.map (Issue.stamp kind) := by
  rw [record_eq, List.filter_map]
  simp only [Bool.true_or, List.filter_true]
  rfl

theorem Check.record_passed (kind : CheckKind) (verbose : Bool) (found : Findings) :
    (record kind verbose found).passed = found.reported.all fun i => decide (i.severity ≠ .must) := by
  rw [record_eq, Findings.all_reported]

theorem Check.Steady.run_agrees {c : Check} (h : c.Steady) (s : Subject) :
    CheckResult.AgreesApartFromOk (c.run (s.withVerbose true)) (c.run (s.withVerbose false)) where
  check := by rw [run, run, record_check, record_check]
  issues := by
    change List.filter _ (record c.kind true _).issues = (record c.kind false _).issues
    rw [record_detailed_issues, record_plain_issues, h.reported s]
  passed := by rw [run, run, record_passed, record_passed, h.reported s]
  critical := by rw [run, run, record_critical, record_critical, h.critical s]

namespace CheckResult.AgreesApartFromOk

variable {detailed plain : CheckResult}

theorem ofSeverity (h : detailed.AgreesApartFromOk plain) {severity : Severity}
    (hs : severity ≠ .ok) : detailed.ofSeverity severity = plain.ofSeverity severity := by
  rw [CheckResult.ofSeverity, CheckResult.ofSeverity, ← h.issues, List.filter_filter]
  apply List.filter_congr
  intro i _
  by_cases hi : i.severity = severity <;> simp [hi, hs]

theorem listed (h : detailed.AgreesApartFromOk plain) : detailed.listed = plain.listed := by
  rw [CheckResult.listed, CheckResult.listed, ← h.issues, List.filter_filter]
  simp

theorem json (h : detailed.AgreesApartFromOk plain) : detailed.json = plain.json := by
  rw [CheckResult.json, CheckResult.json, h.check, h.passed, h.listed]

end CheckResult.AgreesApartFromOk

/-! ## Reports -/

/-- Two reports, check by check. -/
abbrev Report.AgreesApartFromOk (detailed plain : Report) : Prop :=
  List.Forall₂ CheckResult.AgreesApartFromOk detailed.results plain.results

namespace Report.AgreesApartFromOk

variable {detailed plain : Report}

theorem total {detailed plain : List CheckResult}
    (h : List.Forall₂ CheckResult.AgreesApartFromOk detailed plain) {severity : Severity}
    (hs : severity ≠ .ok) : Verdict.total detailed severity = Verdict.total plain severity := by
  induction h with
  | nil => rfl
  | cons first _ ih =>
    simp only [Verdict.total, List.foldr_cons] at ih ⊢
    rw [ih, CheckResult.count, CheckResult.count, first.ofSeverity hs]

theorem critical {detailed plain : List CheckResult}
    (h : List.Forall₂ CheckResult.AgreesApartFromOk detailed plain) :
    (detailed.any fun r => r.critical) = plain.any fun r => r.critical := by
  induction h with
  | nil => rfl
  | cons first _ ih => rw [List.any_cons, List.any_cons, first.critical, ih]

theorem verdict (h : detailed.AgreesApartFromOk plain) : detailed.verdict = plain.verdict := by
  have hmust : Verdict.total detailed.results .must = Verdict.total plain.results .must :=
    total h (by decide)
  have hshould : Verdict.total detailed.results .should = Verdict.total plain.results .should :=
    total h (by decide)
  have hmay : Verdict.total detailed.results .may = Verdict.total plain.results .may :=
    total h (by decide)
  simp only [Report.verdict, Verdict.ofResults, critical h, hmust, hshould, hmay]

theorem results_json {detailed plain : List CheckResult}
    (h : List.Forall₂ CheckResult.AgreesApartFromOk detailed plain) :
    detailed.map CheckResult.json = plain.map CheckResult.json := by
  induction h with
  | nil => rfl
  | cons first _ ih => rw [List.map_cons, List.map_cons, first.json, ih]

theorem json (h : detailed.AgreesApartFromOk plain) (root : Path) (method : String) :
    detailed.json root method = plain.json root method := by
  rw [Report.json, Report.json, results_json h, verdict h]

end Report.AgreesApartFromOk

/-! ## Runs -/

theorem Engine.validate_agrees (tree : FileTree) (root : Path) (limits : Limits) (counter : Counter)
    (kinds : List CheckKind) :
    Report.AgreesApartFromOk
      (((Engine.standard limits true).select kinds).validate tree root counter)
      (((Engine.standard limits false).select kinds).validate tree root counter) := by
  let subject := Subject.ofRoot tree root limits counter false
  let checks := builtinChecks.filter fun c => c.kind ∈ kinds
  have hpairs : List.Forall₂ CheckResult.AgreesApartFromOk
      (checks.map fun c => c.run (subject.withVerbose true))
      (checks.map fun c => c.run (subject.withVerbose false)) := by
    rw [List.forall₂_map_left_iff, List.forall₂_map_right_iff]
    apply List.forall₂_same.mpr
    intro c hc
    exact (steady_of_builtin (List.mem_of_mem_filter hc)).run_agrees subject
  rw [Report.AgreesApartFromOk, Engine.results_eq, Engine.results_eq]
  exact hpairs

namespace Surroundings

variable (s : Surroundings) (i : Invocation)

/-- What is printed as JSON does not depend on the layout for people. -/
theorem printed_json (value : Json) (layout : Layout) :
    printed true value layout = value.pretty ++ ['\n'] := rfl

theorem settings_of_verbose (verbose : Bool) (target : Path) :
    s.settings { i with json := true, verbose := verbose } target = s.settings i target := rfl

theorem report_json_agrees (plugin : Path) (kinds : List CheckKind) (settings : Settings) :
    s.report { i with json := true, verbose := true } plugin kinds settings =
      s.report { i with json := true, verbose := false } plugin kinds settings := by
  have h := Engine.validate_agrees s.tree plugin settings.limits (s.counter settings) kinds
  have hexit := congrArg Verdict.exitCode (Report.AgreesApartFromOk.verdict h)
  have hjson := Report.AgreesApartFromOk.json h plugin (s.counter settings).method
  simp only [report, printed_json]
  exact congrArg₂ Outcome.mk hexit (congrArg (fun value : Json => value.pretty ++ ['\n']) hjson)

theorem validate_json_agrees (plugin : Path) (checks : Text) :
    s.validate { i with json := true, verbose := true } plugin checks =
      s.validate { i with json := true, verbose := false } plugin checks := by
  simp only [validate, settings_of_verbose, report_json_agrees]

theorem tokens_json_agrees (path : Path) :
    s.tokens { i with json := true, verbose := true } path =
      s.tokens { i with json := true, verbose := false } path := by
  simp only [tokens, settings_of_verbose, fileReport, reportBudgets, budgetReport, printed_json]

end Surroundings

/-- Runs with passing details and without agree on everything but passing details: check by check
on the other issues and their order, on whether the check passed and on whether a budget is
critical, and so on the verdict. Reports and errors written as JSON are the same, for every command
line that asks for them. -/
theorem verbose_run_agrees :
    (∀ (tree : FileTree) (root : Path) (limits : Limits) (counter : Counter)
      (kinds : List CheckKind),
      let detailed := ((Engine.standard limits true).select kinds).validate tree root counter
      let plain := ((Engine.standard limits false).select kinds).validate tree root counter
      List.Forall₂ CheckResult.AgreesApartFromOk detailed.results plain.results ∧
        detailed.verdict = plain.verdict) ∧
    ∀ (s : Surroundings) (i : Invocation),
      s.run { i with json := true, verbose := true } =
        s.run { i with json := true, verbose := false } := by
  constructor
  · intro tree root limits counter kinds
    have h := Engine.validate_agrees tree root limits counter kinds
    exact ⟨h, Report.AgreesApartFromOk.verdict h⟩
  · intro s i
    obtain ⟨command, verbose, json, quiet, config⟩ := i
    cases command with
    | validate plugin checks => exact s.validate_json_agrees _ plugin checks
    | tokens path => exact s.tokens_json_agrees _ path

end PluginLint
