import PluginLint.Command.Run
import PluginLint.Proofs.Check.Engine
import PluginLint.Proofs.Failure
import PluginLint.Proofs.Output.Validation
import PluginLint.Proofs.Report.Kinds

/-!
# The exit code of a validation

The exit code is taken from two things that are kept apart, the critical mark of a result and the
number of violated requirements. They agree because only the tokens check marks a result and does so
beside a violated requirement (`exists_must_of_critical_result`); so a run fails exactly when some
requirement is violated, and says so, and the code two stands for a skill above its critical limit
(`exit_code_of_validate`).
-/
namespace PluginLint

/-- Where a code of several items is the larger of those of the first and of the rest, it is the
largest that one of them has alone. -/
theorem max?_map_singleton {α : Type} (code : List α → Nat)
    (hcons : ∀ a rest, code (a :: rest) = max (code [a]) (code rest)) {items : List α}
    (h : items ≠ []) : (items.map fun a => code [a]).max? = some (code items) := by
  induction items with
  | nil => exact absurd rfl h
  | cons a rest ih =>
    rw [List.map_cons, List.max?_cons]
    by_cases hrest : rest = []
    · rw [hrest]
      rfl
    · rw [ih hrest, hcons a rest]
      rfl

/-! ## Verdicts -/

/-- Whether a result holds a violated requirement. -/
def CheckResult.Violated (r : CheckResult) : Prop := ∃ i ∈ r.issues, i.severity = .must

theorem CheckResult.count_must_eq_zero_iff (r : CheckResult) :
    r.count .must = 0 ↔ ¬ r.Violated := by
  rw [count, List.length_eq_zero_iff, ofSeverity, List.filter_eq_nil_iff]
  simp [Violated]

namespace Verdict

theorem exitCode_eq_two_iff (v : Verdict) : v.exitCode = 2 ↔ v.critical = true := by
  unfold exitCode
  split
  · next h => simp [h]
  · next h => split <;> simp [h]

theorem exitCode_eq_zero_iff (v : Verdict) :
    v.exitCode = 0 ↔ v.critical = false ∧ v.passed = true := by
  unfold exitCode
  split
  · next h => simp [h]
  · next h => split <;> simp_all

theorem total_eq_zero_iff (results : List CheckResult) :
    total results .must = 0 ↔ ∀ r ∈ results, ¬ r.Violated := by
  induction results with
  | nil => simp [total]
  | cons first rest ih =>
    rw [List.forall_mem_cons, ← ih, ← CheckResult.count_must_eq_zero_iff]
    exact Nat.add_eq_zero_iff

theorem passed_eq_false_iff {results : List CheckResult} :
    (ofResults results).passed = false ↔ ∃ r ∈ results, r.Violated := by
  have hpassed : (ofResults results).passed = true ↔ total results .must = 0 := beq_iff_eq
  rw [← Bool.not_eq_true, hpassed, total_eq_zero_iff]
  simp

/-- Where every critical result holds a violated requirement, a verdict fails exactly when some
requirement is violated. -/
theorem exitCode_ne_zero_iff {results : List CheckResult}
    (h : ∀ r ∈ results, r.critical = true → r.Violated) :
    (ofResults results).exitCode ≠ 0 ↔ (ofResults results).passed = false := by
  rw [Ne, exitCode_eq_zero_iff, not_and_or, Bool.not_eq_false, Bool.not_eq_true]
  constructor
  · rintro (hcritical | hpassed)
    · obtain ⟨r, hr, hc⟩ := List.any_eq_true.mp hcritical
      exact passed_eq_false_iff.mpr ⟨r, hr, h r hr hc⟩
    · exact hpassed
  · exact .inr

end Verdict

/-! ## Runs of the built-in checks -/

/-- Some skill below a root has an entry document that can be read and a body above the critical
limit. -/
def HasCriticalSkill (tree : FileTree) (root : Path) (limits : Limits) (counter : Counter) : Prop :=
  ∃ skill ∈ (discover tree root).skills, ∃ entry, skill.content = .ok entry ∧
    limits.bodyCritical < counter.count (Document.parse entry).body

namespace Engine

variable {tree : FileTree} {root : Path} {limits : Limits} {counter : Counter} {verbose : Bool}
variable {kinds : List CheckKind}

/-- A result is marked as critical only beside a violated requirement. -/
theorem violated_of_critical {r : CheckResult}
    (hr : r ∈ (((standard limits verbose).select kinds).validate tree root counter).results)
    (hcritical : r.critical = true) : r.Violated := by
  obtain ⟨kind, -, rfl⟩ := mem_results_iff.mp hr
  rw [Check.run, Check.record_critical] at hcritical
  exact (Check.exists_must_record _ _ _).mpr
    (exists_must_of_builtin (builtinCheck_mem kind) hcritical)

theorem check_mem_of_mem_results {r : CheckResult}
    (hr : r ∈ (((standard limits verbose).select kinds).validate tree root counter).results) :
    r.check ∈ kinds := by
  obtain ⟨kind, hkind, rfl⟩ := mem_results_iff.mp hr
  rw [Check.run, Check.record_check, kind_builtinCheck]
  exact hkind

/-- A run is critical when it looks at tokens and some skill is critical. -/
theorem critical_verdict_iff :
    (((standard limits verbose).select kinds).validate tree root counter).verdict.critical = true ↔
      .tokens ∈ kinds ∧ HasCriticalSkill tree root limits counter := by
  have hany : (((standard limits verbose).select kinds).validate tree root
      counter).verdict.critical = true ↔
      ∃ r ∈ (((standard limits verbose).select kinds).validate tree root counter).results,
        r.critical = true := List.any_eq_true
  have htokens : HasCriticalSkill tree root limits counter ↔
      (tokensCheck.inspect (Subject.ofRoot tree root limits counter verbose)).critical = true :=
    TokensCheck.critical_iff.symm
  rw [hany, htokens]
  constructor
  · rintro ⟨r, hr, hcritical⟩
    obtain ⟨kind, hkind, rfl⟩ := mem_results_iff.mp hr
    rw [Check.run, Check.record_critical] at hcritical
    by_cases htok : kind = .tokens
    · subst htok
      exact ⟨hkind, hcritical⟩
    · have hnone := critical_of_builtin (builtinCheck_mem kind)
        (by rwa [kind_builtinCheck]) (Subject.ofRoot tree root limits counter verbose)
      rw [hnone] at hcritical
      cases hcritical
  · rintro ⟨hkind, hcritical⟩
    refine ⟨_, mem_results_iff.mpr ⟨.tokens, hkind, rfl⟩, ?_⟩
    rw [Check.run, Check.record_critical]
    exact hcritical

end Engine

/-! ## The result line -/

theorem ValidationReport.resultLine_eq_failed_iff (v : Verdict) :
    resultLine v = "Result: FAILED" ↔ v.passed = false := by
  unfold resultLine
  cases v.passed with
  | false => simp
  | true =>
    simp only [Bool.not_true, Bool.false_eq_true, if_false, Bool.true_eq_false, iff_false]
    split <;> decide

/-! ## Commands -/

theorem selectChecks_word (kind : CheckKind) : selectChecks kind.word.toList = .ok [kind] := by
  rw [selectChecks, CheckKind.parseList_word]
  rfl

namespace Surroundings

variable (s : Surroundings) {i : Invocation} {plugin : Path}

/-- Where `validate` completes, the selection and the settings could be read. -/
theorem of_validate_eq_ok {checks : Text} {outcome : Outcome}
    (h : s.validate i plugin checks = .ok outcome) :
    ∃ kinds settings, selectChecks checks = .ok kinds ∧ s.settings i plugin = .ok settings ∧
      s.report i plugin kinds settings = outcome := by
  simp only [validate, bind_eq_ok_iff] at h
  obtain ⟨_, -, kinds, hkinds, settings, hsettings, hreport⟩ := h
  exact ⟨kinds, settings, hkinds, hsettings, Except.ok.inj hreport⟩

/-- The report for people ends with the result. -/
theorem output_of_report {kinds : List CheckKind} {settings : Settings} (hjson : i.json = false) :
    let verdict := (((Engine.standard settings.limits i.verbose).select kinds).validate s.tree plugin
      (s.counter settings)).verdict
    ∃ before, (s.report i plugin kinds settings).output = List.intercalate ['\n'] (before ++
      (ValidationReport.resultStyle verdict).paint s.colors
        (ValidationReport.resultLine verdict).toList ::
      ValidationReport.criticalNote verdict) ++ ['\n'] := by
  intro verdict
  simp only [report, hjson, printed, Bool.false_eq_true, if_false, Layout.text]
  obtain ⟨before, hlines⟩ := ValidationReport.lines_layout _ _ s.colors
  exact ⟨before, by rw [hlines]; rfl⟩

end Surroundings

/-- Where `validate` completes, its exit code is two exactly when tokens are looked at and some
skill is critical, and other than zero exactly when a selected check recorded a violated
requirement. The report for people says so on the last line, or the last before the note on
critical budgets. No result is critical without a violated requirement. -/
theorem exit_code_of_validate (s : Surroundings) (i : Invocation) (plugin : Path) (checks : Text)
    (outcome : Outcome) (h : s.validate i plugin checks = .ok outcome) :
    ∃ kinds settings, selectChecks checks = .ok kinds ∧ s.settings i plugin = .ok settings ∧
      let counter := s.counter settings
      let report :=
        ((Engine.standard settings.limits i.verbose).select kinds).validate s.tree plugin counter
      let verdict := report.verdict
      (outcome.exitCode = 2 ↔
        .tokens ∈ kinds ∧ HasCriticalSkill s.tree plugin settings.limits counter) ∧
      (outcome.exitCode ≠ 0 ↔ ∃ r ∈ report.results, r.check ∈ kinds ∧ r.Violated) ∧
      (i.json = false → ∃ before, outcome.output = List.intercalate ['\n'] (before ++
        (ValidationReport.resultStyle verdict).paint s.colors
          (ValidationReport.resultLine verdict).toList ::
        ValidationReport.criticalNote verdict) ++ ['\n']) ∧
      (ValidationReport.resultLine verdict = "Result: FAILED" ↔ outcome.exitCode ≠ 0) ∧
      (∀ r ∈ report.results, r.critical = true → r.Violated) ∧
      (verdict.critical = true → 0 < verdict.must) := by
  obtain ⟨kinds, settings, hkinds, hsettings, rfl⟩ := s.of_validate_eq_ok h
  refine ⟨kinds, settings, hkinds, hsettings, ?_⟩
  intro counter report verdict
  have hviolated : ∀ r ∈ report.results, r.critical = true → r.Violated :=
    fun r => Engine.violated_of_critical
  have hexit : (s.report i plugin kinds settings).exitCode = verdict.exitCode := rfl
  have hfailed : verdict.exitCode ≠ 0 ↔ verdict.passed = false :=
    Verdict.exitCode_ne_zero_iff hviolated
  rw [hexit]
  refine ⟨?_, ?_, ?_, ?_, hviolated, ?_⟩
  · rw [Verdict.exitCode_eq_two_iff, Engine.critical_verdict_iff]
  · refine (hfailed.trans Verdict.passed_eq_false_iff).trans ?_
    constructor
    · rintro ⟨r, hr, hv⟩
      exact ⟨r, hr, Engine.check_mem_of_mem_results hr, hv⟩
    · rintro ⟨r, hr, -, hv⟩
      exact ⟨r, hr, hv⟩
  · intro hjson
    exact s.output_of_report hjson
  · rw [hfailed, ValidationReport.resultLine_eq_failed_iff]
  · intro hcritical
    obtain ⟨r, hr, hc⟩ := List.any_eq_true.mp hcritical
    apply Nat.pos_of_ne_zero
    intro hzero
    exact (Verdict.total_eq_zero_iff _).mp hzero r hr (hviolated r hr hc)

/-- A plugin with one skill, in which every limit on bodies is one unit. -/
def crowdedPlugin : Surroundings where
  tree :=
    { nodes :=
        [(["p".toList], .directory), (["p".toList, "skills".toList], .directory),
          (["p".toList, "skills".toList, "s".toList], .directory),
          (["p".toList, "skills".toList, "s".toList, skillEntry.toList],
            .file (.text "a long body".toList))]
      base := [] }
  environment := .ofVariables fun name =>
    if name ∈ ["PLINT_BUDGET_BODY_TARGET", "PLINT_BUDGET_BODY_WARNING",
      "PLINT_BUDGET_BODY_CRITICAL"] then some ['1'] else none
  colors := false

/-- The command line that looks at the tokens of a plugin. -/
def tokensInvocation (plugin : Path) : Invocation where
  command := .validate plugin "tokens".toList
  verbose := false
  json := false
  quiet := false
  config := none

theorem crowdedPlugin_skills : (discover crowdedPlugin.tree ⟨"/p".toList⟩).skills =
    [⟨.skill, ⟨"/p/skills/s/SKILL.md".toList⟩, "skills/s/SKILL.md".toList,
      .ok "a long body".toList⟩] := by
  have hnames : crowdedPlugin.tree.names ["p".toList, "skills".toList] = ["s".toList] :=
    List.mergeSort_singleton "s".toList
  have hplace : crowdedPlugin.tree.locate (kindDirectory ⟨"/p".toList⟩ .skill) =
      .ok ["p".toList, "skills".toList] := by decide
  have hdirectory : crowdedPlugin.tree.node? ["p".toList, "skills".toList] = some .directory := by
    decide
  have hentries : crowdedPlugin.tree.entries (kindDirectory ⟨"/p".toList⟩ .skill) =
      [⟨"s".toList, ⟨"/p/skills/s".toList⟩, ["p".toList, "skills".toList, "s".toList]⟩] := by
    simp only [FileTree.entries, hplace, if_pos hdirectory, hnames]
    rfl
  change skillDocuments crowdedPlugin.tree ⟨"/p".toList⟩ = _
  rw [skillDocuments, skillDirectories, hentries]
  rfl

theorem crowdedPlugin_exitCode :
    ∃ outcome, crowdedPlugin.validate (tokensInvocation ⟨"/p".toList⟩) ⟨"/p".toList⟩
      "tokens".toList = .ok outcome ∧ outcome.exitCode = 2 := by
  have hkinds : selectChecks "tokens".toList = .ok [.tokens] := selectChecks_word .tokens
  have hsettings : crowdedPlugin.settings (tokensInvocation ⟨"/p".toList⟩) ⟨"/p".toList⟩ =
      .ok ⟨⟨50, 100, 1, 1, 1⟩, .automatic⟩ := by decide
  have hdir : requireDirectory crowdedPlugin.tree ⟨"/p".toList⟩ "Plugin directory".toList =
      .ok () := by decide
  have hrun : crowdedPlugin.validate (tokensInvocation ⟨"/p".toList⟩) ⟨"/p".toList⟩
      "tokens".toList = .ok (crowdedPlugin.report (tokensInvocation ⟨"/p".toList⟩) ⟨"/p".toList⟩
        [.tokens] ⟨⟨50, 100, 1, 1, 1⟩, .automatic⟩) := by
    rw [Surroundings.validate, hdir, hkinds, hsettings]
    rfl
  obtain ⟨kinds, settings, hk, hs, htwo, -⟩ := exit_code_of_validate _ _ _ _ _ hrun
  rw [hkinds] at hk
  rw [hsettings] at hs
  cases hk
  cases hs
  refine ⟨_, hrun, htwo.mpr ⟨List.mem_singleton.mpr rfl, ?_⟩⟩
  rw [HasCriticalSkill, crowdedPlugin_skills]
  exact ⟨_, List.mem_singleton.mpr rfl, _, rfl, by decide⟩

end PluginLint
