import PluginLint.Proofs.Report.ExitCode

/-!
# Selections of checks

A selection stands for kinds of checks in the order in which they run. A run of it is a part of the
run of all checks, in the same order: no check looks at what the others found. Verdicts of results
in a row are merged (`ofResults_append`): counts are added up, one failure fails them all and one
critical budget makes them all critical. The exit code is read off two marks of which one goes
before the other, and it is still the largest exit code of the parts (`exitCode_merge`), so a
selection exits with the largest code that one of its checks has alone.
-/
namespace PluginLint

/-! ## Verdicts -/

namespace Verdict

/-- The verdict on the results of two verdicts together. -/
def merge (v w : Verdict) : Verdict where
  must := v.must + w.must
  should := v.should + w.should
  may := v.may + w.may
  passed := v.passed && w.passed
  critical := v.critical || w.critical

theorem total_append (first second : List CheckResult) (severity : Severity) :
    total (first ++ second) severity = total first severity + total second severity := by
  induction first with
  | nil => simp [total]
  | cons r rest ih =>
    simp only [total, List.cons_append, List.foldr_cons] at ih ⊢
    omega

theorem ofResults_append (first second : List CheckResult) :
    ofResults (first ++ second) = (ofResults first).merge (ofResults second) := by
  have hpassed : (total first .must + total second .must == 0) =
      (total first .must == 0 && total second .must == 0) := by
    rw [Bool.eq_iff_iff]
    simp
  simp only [ofResults, merge, total_append, hpassed, List.any_append]

/-- The exit codes are ordered so that the weightier outcome has the larger one. -/
theorem exitCode_merge (v w : Verdict) : (v.merge w).exitCode = max v.exitCode w.exitCode := by
  unfold exitCode merge
  cases v.critical <;> cases w.critical <;> cases v.passed <;> cases w.passed <;> rfl

/-- The exit code of some results is the largest that one of them has alone. -/
theorem max?_exitCode {results : List CheckResult} (h : results ≠ []) :
    (results.map fun r => (ofResults [r]).exitCode).max? = some (ofResults results).exitCode := by
  have hcons (r : CheckResult) (rest : List CheckResult) : (ofResults (r :: rest)).exitCode =
      max (ofResults [r]).exitCode (ofResults rest).exitCode := by
    rw [← exitCode_merge, ← ofResults_append]
    rfl
  exact max?_map_singleton (fun results => (ofResults results).exitCode) hcons h

end Verdict

/-! ## Runs -/

namespace Engine

variable {tree : FileTree} {root : Path} {limits : Limits} {counter : Counter} {verbose : Bool}
variable {kinds : List CheckKind}

/-- A run of some checks is what a run of all of them records for their kinds. -/
theorem results_eq_filter :
    (((standard limits verbose).select kinds).validate tree root counter).results =
      ((((standard limits verbose).select CheckKind.all).validate tree root counter).results.filter
        fun r => r.check ∈ kinds) := by
  have hall : (builtinChecks.filter fun c => c.kind ∈ CheckKind.all) = builtinChecks := rfl
  have hcheck (c : Check) :
      (c.run (Subject.ofRoot tree root limits counter verbose)).check = c.kind :=
    Check.record_check _ _ _
  rw [results_eq, results_eq, hall, List.filter_map]
  simp only [Function.comp_def, hcheck]

/-- The checks of a selection run in its own order. -/
theorem results_eq_map (h : (CheckKind.all.filter fun kind => kind ∈ kinds) = kinds) :
    (((standard limits verbose).select kinds).validate tree root counter).results =
      kinds.map fun kind =>
        (builtinCheck kind).run (Subject.ofRoot tree root limits counter verbose) := by
  have hchecks : builtinChecks = CheckKind.all.map builtinCheck := rfl
  have hkinds : ((fun c : Check => decide (c.kind ∈ kinds)) ∘ builtinCheck) =
      fun kind => decide (kind ∈ kinds) := by
    funext kind
    simp [kind_builtinCheck]
  rw [results_eq, hchecks, List.filter_map, hkinds, h, List.map_map]
  rfl

theorem results_singleton (kind : CheckKind) :
    (((standard limits verbose).select [kind]).validate tree root counter).results =
      [(builtinCheck kind).run (Subject.ofRoot tree root limits counter verbose)] :=
  results_eq_map (by cases kind <;> decide)

/-- The exit code of a run is the largest that one of its checks has alone. -/
theorem max?_exitCode_of_parts (hne : kinds ≠ [])
    (h : (CheckKind.all.filter fun kind => kind ∈ kinds) = kinds) :
    (kinds.map fun kind =>
      (((standard limits verbose).select [kind]).validate tree root counter).verdict.exitCode).max? =
      some (((standard limits verbose).select kinds).validate tree root counter).verdict.exitCode := by
  have hsome : (((standard limits verbose).select kinds).validate tree root counter).results ≠ [] := by
    rw [results_eq_map h]
    simpa using hne
  have hmax := Verdict.max?_exitCode hsome
  rw [results_eq_map h, List.map_map] at hmax
  simp only [Report.verdict, results_singleton, results_eq_map h]
  exact hmax

end Engine

/-! ## Commands -/

namespace Surroundings

variable (s : Surroundings) {i : Invocation} {plugin : Path}

/-- The exit code of `validate` once its selection is read: that of the run, or one where the
plugin or its settings cannot be read, whatever is selected. -/
theorem validate_exitCode {checks : Text} {kinds : List CheckKind}
    (h : CheckKind.parseList checks = .ok kinds) :
    (ProgramOutcome.ofRun i.json (s.validate i plugin checks)).exitCode =
      match requireDirectory s.tree plugin "Plugin directory".toList, s.settings i plugin with
      | .ok _, .ok settings =>
        (((Engine.standard settings.limits i.verbose).select kinds).validate s.tree plugin
          (s.counter settings)).verdict.exitCode
      | _, _ => 1 := by
  have hkinds : selectChecks checks = .ok kinds := by
    rw [selectChecks, h]
    rfl
  unfold validate
  rw [hkinds]
  cases requireDirectory s.tree plugin "Plugin directory".toList with
  | error e => cases i.json <;> rfl
  | ok _ =>
    cases s.settings i plugin with
    | error e => cases i.json <;> rfl
    | ok settings => rfl

/-- `validate` exits with the largest code that it has for one of the selected checks alone. -/
theorem max?_validate_exitCode {checks : Text} {kinds : List CheckKind}
    (h : CheckKind.parseList checks = .ok kinds) :
    (kinds.map fun kind =>
      (ProgramOutcome.ofRun i.json (s.validate i plugin kind.word.toList)).exitCode).max? =
      some (ProgramOutcome.ofRun i.json (s.validate i plugin checks)).exitCode := by
  obtain ⟨hne, horder⟩ := CheckKind.of_parseList_eq_ok h
  have hword (kind : CheckKind) := @validate_exitCode s i plugin kind.word.toList [kind]
    (CheckKind.parseList_word kind)
  simp only [s.validate_exitCode h, hword]
  have hfailed : (kinds.map fun _ => 1).max? = some 1 := by
    rw [List.map_const', List.max?_replicate_of_pos (List.length_pos_iff.mpr hne)]
  cases requireDirectory s.tree plugin "Plugin directory".toList with
  | error e => exact hfailed
  | ok _ =>
    cases s.settings i plugin with
    | error e => exact hfailed
    | ok settings => exact Engine.max?_exitCode_of_parts hne horder

end Surroundings

/-- A run of a selection that can be read holds exactly the results that the run of all checks has
for the selected kinds, in the same order, and each of them is the result of its check alone. The
verdict on results in a row adds up the counts, has passed when both parts have and is critical when
one part is. The exit code of a run is the largest that a selected check has alone, and so is the
exit code of the command, which can also fail before any check runs. -/
theorem selected_run_is_part_of_full_run :
    (∀ (tree : FileTree) (root : Path) (limits : Limits) (counter : Counter) (verbose : Bool)
      (checks : Text) (kinds : List CheckKind), CheckKind.parseList checks = .ok kinds →
      let run (kinds : List CheckKind) :=
        ((Engine.standard limits verbose).select kinds).validate tree root counter
      (run kinds).results = (run CheckKind.all).results.filter (fun r => r.check ∈ kinds) ∧
      (run kinds).results.map (fun r => r.check) = kinds ∧
      (run kinds).results = kinds.flatMap (fun kind => (run [kind]).results) ∧
      (kinds.map fun kind => (run [kind]).verdict.exitCode).max? =
        some (run kinds).verdict.exitCode) ∧
    (∀ first second : List CheckResult,
      let v := Verdict.ofResults first
      let w := Verdict.ofResults second
      Verdict.ofResults (first ++ second) =
        ⟨v.must + w.must, v.should + w.should, v.may + w.may, v.passed && w.passed,
          v.critical || w.critical⟩) ∧
    ∀ (s : Surroundings) (i : Invocation) (plugin : Path) (checks : Text) (kinds : List CheckKind),
      CheckKind.parseList checks = .ok kinds →
      (kinds.map fun kind =>
        (ProgramOutcome.ofRun i.json (s.validate i plugin kind.word.toList)).exitCode).max? =
        some (ProgramOutcome.ofRun i.json (s.validate i plugin checks)).exitCode := by
  refine ⟨?_, Verdict.ofResults_append, fun s i plugin checks kinds => s.max?_validate_exitCode⟩
  intro tree root limits counter verbose checks kinds h run
  obtain ⟨hne, horder⟩ := CheckKind.of_parseList_eq_ok h
  have hresults : (run kinds).results = kinds.map fun kind =>
      (builtinCheck kind).run (Subject.ofRoot tree root limits counter verbose) :=
    Engine.results_eq_map horder
  refine ⟨Engine.results_eq_filter, ?_, ?_, Engine.max?_exitCode_of_parts hne horder⟩
  · have hcheck (kind : CheckKind) : ((builtinCheck kind).run
        (Subject.ofRoot tree root limits counter verbose)).check = kind :=
      (Check.record_check _ _ _).trans (kind_builtinCheck kind)
    rw [hresults, List.map_map]
    simp only [Function.comp_def, hcheck, List.map_id']
  · simp only [run, Engine.results_singleton]
    rw [hresults, List.map_eq_flatMap]

/-- A selection in another order than that of the run, under another name of a kind. -/
theorem selected_run_of_two_checks :
    CheckKind.parseList "budget, structure".toList = .ok [.layout, .tokens] ∧
      ([CheckKind.layout, .tokens].map fun kind =>
        (ProgramOutcome.ofRun false (crowdedPlugin.validate (tokensInvocation ⟨"/p".toList⟩)
          ⟨"/p".toList⟩ kind.word.toList)).exitCode).max? =
        some (ProgramOutcome.ofRun false (crowdedPlugin.validate
          (tokensInvocation ⟨"/p".toList⟩) ⟨"/p".toList⟩ "budget, structure".toList)).exitCode :=
  have hkinds : CheckKind.parseList "budget, structure".toList = .ok [.layout, .tokens] := by
    rw [CheckKind.parseList_eq]
    decide
  ⟨hkinds, selected_run_is_part_of_full_run.2.2 crowdedPlugin (tokensInvocation ⟨"/p".toList⟩)
    ⟨"/p".toList⟩ "budget, structure".toList [.layout, .tokens] hkinds⟩

end PluginLint
