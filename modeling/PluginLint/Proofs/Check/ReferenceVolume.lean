import PluginLint.Proofs.Budget.References
import PluginLint.Proofs.Check.Tokens
import PluginLint.Proofs.Report.Complaints

/-!
# References cost nothing

The units of references and scripts go into the figures of a skill and nowhere else: its status, the
excess of its body and the issues on it are read off its metadata, its body and the files that
cannot be read. So what can be read below `references/`, beside the entry document and below
`scripts/` is free. It may be there or not and hold whatever it likes, and the tokens check finds
the same apart from figures (`reference_volume_never_penalised`).
-/
namespace PluginLint

/-! ## Budgets -/

/-- Whether two budgets differ in nothing but the units of references and scripts. -/
structure SkillBudget.DifferInVolume (b b' : SkillBudget) : Prop where
  status : b.status = b'.status
  metadata : b.units.metadata = b'.units.metadata
  body : b.units.body = b'.units.body
  unreadable : b.unreadable = b'.unreadable

namespace TokensCheck

theorem complaints_budgetRules {b b' : SkillBudget} (h : b.DifferInVolume b') (file : Text)
    (limits : Limits) (verbose : Bool) :
    complaints (budgetRules file b limits verbose) =
      complaints (budgetRules file b' limits verbose) := by
  have hbreakdown (b : SkillBudget) :
      complaints (if verbose then breakdown b.units limits else []) = [] := by
    split
    · exact complaints_of_ok fun i hi => severity_of_breakdown hi
    · rfl
  have hband : bandIssue b limits = bandIssue b' limits := by
    unfold bandIssue SkillBudget.isAboveTarget SkillBudget.excess
    rw [h.status, h.body]
  have hbody : complaints [bodyRule file b limits] = complaints [bodyRule file b' limits] := by
    simp only [complaints, bodyRule, hband, List.filter_cons, List.filter_nil]
    split <;> rfl
  have hmetadata : metadataRule file b limits = metadataRule file b' limits := by
    simp only [metadataRule, h.metadata]
  have hread : readRules file b = readRules file b' := by
    simp only [readRules, h.unreadable]
  simp only [budgetRules, complaints_append, hbody, hmetadata, hread, hbreakdown]

theorem noSkills_congr {s s' : Subject}
    (h : skillDirectories s.tree s.root = skillDirectories s'.tree s'.root) :
    noSkills s = noSkills s' := by
  unfold noSkills
  rw [h]

end TokensCheck

/-! ## Plugins -/

/-- Whether two trees hold plugins at a root that differ in nothing but the references and scripts
of their skills that can be read. The directories of skills are the same, their entry documents read
the same, also where one is a link, and each skill has the same references and scripts that cannot
be read. Which others it has, and what they hold, is free. -/
structure DifferInReferences (t t' : FileTree) (root : Path) : Prop where
  skills : t.isDirectory (kindDirectory root .skill) = t'.isDirectory (kindDirectory root .skill)
  directories : skillDirectories t root = skillDirectories t' root
  entries : (discover t root).skills = (discover t' root).skills
  unreadable : ∀ skill ∈ (discover t root).skills, ∀ directory,
    skill.skillDirectory? = some directory → SkillBudget.SameUnreadable t t' directory

namespace DifferInReferences

open TokensCheck

variable {t t' : FileTree} {root : Path} (h : DifferInReferences t t' root)
variable (hnames : t.WellNamed) (hnames' : t'.WellNamed)
variable (limits : Limits) (counter : Counter) (verbose : Bool)
include h hnames hnames'

/-- The budgets of a skill differ in volume, if it has any. -/
theorem rel_budget? {skill : Component} (hskill : skill ∈ (discover t root).skills) :
    Option.Rel SkillBudget.DifferInVolume
      (budget? (Subject.ofRoot t root limits counter verbose) skill)
      (budget? (Subject.ofRoot t' root limits counter verbose) skill) := by
  unfold budget?
  cases skill.content with
  | error fault => exact .none
  | ok entry =>
    cases hdirectory : skill.skillDirectory? with
    | none => exact .none
    | some directory =>
      have hsame := h.unreadable skill hskill directory hdirectory
      exact .some ⟨rfl, rfl, rfl,
        SkillBudget.unreadable_analyze_congr hnames hnames' hsame entry counter limits⟩

theorem complaints_skill {skill : Component} (hskill : skill ∈ (discover t root).skills) :
    complaints (skillRules (Subject.ofRoot t root limits counter verbose) skill) =
        complaints (skillRules (Subject.ofRoot t' root limits counter verbose) skill) ∧
      isCritical (Subject.ofRoot t root limits counter verbose) skill =
        isCritical (Subject.ofRoot t' root limits counter verbose) skill := by
  have hbudget := h.rel_budget? hnames hnames' limits counter verbose hskill
  unfold skillRules isCritical
  generalize budget? (Subject.ofRoot t root limits counter verbose) skill = b at hbudget ⊢
  generalize budget? (Subject.ofRoot t' root limits counter verbose) skill = b'
    at hbudget ⊢
  cases hbudget with
  | none => exact ⟨rfl, rfl⟩
  | @some b b' hvolume =>
    constructor
    · cases skill.content with
      | error fault => rfl
      | ok entry => exact complaints_budgetRules hvolume skill.label limits verbose
    · simp only [Option.any_some, hvolume.status]

/-- The check complains of the same and finds the same critical. -/
theorem complaints_inspect :
    complaints (inspect (Subject.ofRoot t root limits counter verbose)).issues =
        complaints (inspect (Subject.ofRoot t' root limits counter verbose)).issues ∧
      (inspect (Subject.ofRoot t root limits counter verbose)).critical =
        (inspect (Subject.ofRoot t' root limits counter verbose)).critical := by
  cases hd : t.isDirectory (kindDirectory root .skill) with
  | false =>
    rw [inspect_of_no_directory hd, inspect_of_no_directory (h.skills.symm.trans hd)]
    exact ⟨rfl, rfl⟩
  | true =>
    have hd' := h.skills.symm.trans hd
    by_cases hs : (discover t root).skills = []
    · have hsame : noSkills (Subject.ofRoot t root limits counter verbose) =
          noSkills (Subject.ofRoot t' root limits counter verbose) := noSkills_congr h.directories
      rw [inspect_of_no_skills hd hs, inspect_of_no_skills hd' (h.entries.symm.trans hs), hsame]
      exact ⟨rfl, rfl⟩
    · have hs' : (discover t' root).skills ≠ [] := h.entries ▸ hs
      have hskill {skill : Component} (hskill : skill ∈ (discover t root).skills) :=
        h.complaints_skill hnames hnames' limits counter verbose hskill
      have hskills : (Subject.ofRoot t' root limits counter verbose).components.skills =
          (Subject.ofRoot t root limits counter verbose).components.skills := h.entries.symm
      rw [inspect_of_skills hd hs, inspect_of_skills hd' hs', hskills, complaints_flatMap,
        complaints_flatMap]
      refine ⟨List.flatMap_congr fun skill hmem => (hskill hmem).1, ?_⟩
      rw [Bool.eq_iff_iff, List.any_eq_true, List.any_eq_true]
      exact exists_congr fun skill => and_congr_right fun hmem => by rw [(hskill hmem).2]

end DifferInReferences

/-- Two plugins that differ in nothing but the references and scripts of their skills that can be
read cost the same, whatever the budget. The tokens check complains of the same in the same order
apart from the figures it attaches, marks the same as critical and passes the same, and its result
weighs the same among any others in a verdict. -/
theorem reference_volume_never_penalised (t t' : FileTree) (root : Path) (limits : Limits)
    (counter : Counter) (verbose : Bool) (hnames : t.WellNamed) (hnames' : t'.WellNamed)
    (h : DifferInReferences t t' root) :
    let r := tokensCheck.run (Subject.ofRoot t root limits counter verbose)
    let r' := tokensCheck.run (Subject.ofRoot t' root limits counter verbose)
    complaints r.issues = complaints r'.issues ∧ r.critical = r'.critical ∧ r.passed = r'.passed ∧
      ∀ before after : List CheckResult,
        Verdict.ofResults (before ++ r :: after) = Verdict.ofResults (before ++ r' :: after) := by
  intro r r'
  obtain ⟨hfound, hmarked⟩ := h.complaints_inspect hnames hnames' limits counter verbose
  have hissues : complaints r.issues = complaints r'.issues := by
    simp only [r, r', Check.run, Check.complaints_record]
    exact congrArg _ hfound
  have hcritical : r.critical = r'.critical := by
    simp only [r, r', Check.run, Check.record_critical]
    exact hmarked
  have hpassed : r.passed = r'.passed := by
    simp only [r, r', Check.run, Check.record_passed_eq]
    exact congrArg (fun issues => List.all issues fun i => decide (i.severity ≠ .must)) hfound
  exact ⟨hissues, hcritical, hpassed, Verdict.ofResults_congr hissues hcritical⟩

/-- A plugin whose skill has a long body and a reference that cannot be read, and what else there
may be. -/
def longSkill (others : List (Location × Node)) : FileTree where
  nodes :=
    [(["p".toList], .directory), (["p".toList, "skills".toList], .directory),
      (["p".toList, "skills".toList, "a".toList], .directory),
      (["p".toList, "skills".toList, "a".toList, skillEntry.toList],
        .file (.text "---\nname: a\n---\nTwelve units".toList)),
      (["p".toList, "skills".toList, "a".toList, "references".toList], .directory),
      (["p".toList, "skills".toList, "a".toList, "references".toList, "b.md".toList],
        .file .binary)] ++ others
  base := []

/-- A reference beside the one that cannot be read, and a link to it. -/
def addedReferences : List (Location × Node) :=
  [(["p".toList, "skills".toList, "a".toList, "references".toList, "a.md".toList],
      .file (.text "A reference that is read".toList)),
    (["p".toList, "skills".toList, "a".toList, "c.md".toList], .link ⟨"references/a.md".toList⟩)]

/-- The entry document of the skill. -/
def longDocument : Component :=
  ⟨.skill, ⟨"/p/skills/a/SKILL.md".toList⟩, "skills/a/SKILL.md".toList,
    .ok "---\nname: a\n---\nTwelve units".toList⟩

theorem skills_longSkill {others : List (Location × Node)}
    (h : others = [] ∨ others = addedReferences) :
    skillDirectories (longSkill others) ⟨"/p".toList⟩ = [⟨"/p/skills/a".toList⟩] ∧
      (discover (longSkill others) ⟨"/p".toList⟩).skills = [longDocument] := by
  have hdirectories : skillDirectories (longSkill others) ⟨"/p".toList⟩ =
      [⟨"/p/skills/a".toList⟩] := by
    simp only [skillDirectories, FileTree.entries, FileTree.names, FileTree.mergeSort_inOrder]
    rcases h with rfl | rfl <;> decide +kernel
  refine ⟨hdirectories, ?_⟩
  change skillDocuments _ _ = _
  rw [skillDocuments, hdirectories]
  rcases h with rfl | rfl <;> rfl

theorem unreadable_longSkill {others : List (Location × Node)}
    (h : others = [] ∨ others = addedReferences) :
    let unreadable := SkillBudget.unreadableFiles (longSkill others)
    unreadable (SkillBudget.nestedReferences (longSkill others) ⟨"/p/skills/a".toList⟩) =
        [⟨⟨"/p/skills/a/references/b.md".toList⟩, .location ["p".toList, "skills".toList,
          "a".toList, "references".toList, "b.md".toList], .notText⟩] ∧
      unreadable (SkillBudget.siblingReferences (longSkill others) ⟨"/p/skills/a".toList⟩) = [] ∧
      unreadable (SkillBudget.scriptFiles (longSkill others) ⟨"/p/skills/a".toList⟩) = [] := by
  intro unreadable
  simp only [unreadable, SkillBudget.nestedReferences, SkillBudget.siblingReferences,
    SkillBudget.scriptFiles, FileTree.filesBelow, FileTree.below, FileTree.entries, FileTree.names,
    FileTree.mergeSort_inOrder]
  rcases h with rfl | rfl <;> decide +kernel

theorem differInReferences_longSkill :
    DifferInReferences (longSkill []) (longSkill addedReferences) ⟨"/p".toList⟩ := by
  obtain ⟨hdirectories, hskills⟩ := skills_longSkill (.inl rfl)
  obtain ⟨hdirectories', hskills'⟩ := skills_longSkill (.inr rfl)
  obtain ⟨hnested, hsiblings, hscripts⟩ := unreadable_longSkill (.inl rfl)
  obtain ⟨hnested', hsiblings', hscripts'⟩ := unreadable_longSkill (.inr rfl)
  refine ⟨by decide, hdirectories.trans hdirectories'.symm, hskills.trans hskills'.symm, ?_⟩
  intro skill hskill directory hdirectory
  rw [hskills] at hskill
  obtain rfl := List.mem_singleton.mp hskill
  have hparent : longDocument.skillDirectory? = some ⟨"/p/skills/a".toList⟩ := by decide
  obtain rfl := Option.some.inj (hparent.symm.trans hdirectory)
  exact ⟨fun file => by rw [hnested, hnested'], fun file => by rw [hsiblings, hsiblings'],
    fun file => by rw [hscripts, hscripts']⟩

/-- A reference and a link to it come to a skill whose body is critical as before. -/
theorem added_references_never_penalised :
    (longSkill []).WellNamed ∧ (longSkill addedReferences).WellNamed ∧
      DifferInReferences (longSkill []) (longSkill addedReferences) ⟨"/p".toList⟩ ∧
      let run (t : FileTree) :=
        tokensCheck.run (Subject.ofRoot t ⟨"/p".toList⟩ ⟨50, 100, 1, 1, 2⟩ .approximate true)
      (run (longSkill [])).critical = true ∧ (run (longSkill addedReferences)).critical = true ∧
      complaints (run (longSkill [])).issues =
        complaints (run (longSkill addedReferences)).issues := by
  have hnames : (longSkill []).WellNamed := by
    unfold FileTree.WellNamed
    decide
  have hnames' : (longSkill addedReferences).WellNamed := by
    unfold FileTree.WellNamed
    decide
  have hdiffer := differInReferences_longSkill
  obtain ⟨hissues, hcritical, -, -⟩ := reference_volume_never_penalised (longSkill [])
    (longSkill addedReferences) ⟨"/p".toList⟩ ⟨50, 100, 1, 1, 2⟩ .approximate true hnames hnames'
    hdiffer
  have hmarked : (tokensCheck.run (Subject.ofRoot (longSkill []) ⟨"/p".toList⟩ ⟨50, 100, 1, 1, 2⟩
      .approximate true)).critical = true := by
    rw [Check.run, Check.record_critical]
    refine TokensCheck.critical_iff.mpr ⟨longDocument, ?_, _, rfl, by decide⟩
    rw [(skills_longSkill (.inl rfl)).2]
    exact List.mem_singleton.mpr rfl
  exact ⟨hnames, hnames', hdiffer, hmarked, hcritical.symm.trans hmarked, hissues⟩

end PluginLint
