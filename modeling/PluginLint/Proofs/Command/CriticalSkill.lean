import PluginLint.Proofs.Failure
import PluginLint.Proofs.Report.ExitCode

/-!
# Who signals a critical skill

Both commands look at the same skills: `validate` at the entry documents that are discovered,
`tokens` at the directories they lie in (`skills_eq_map_skillsOf`). They part where an entry
document cannot be read or a path cannot be written as JSON. `validate` records an issue for the one
and shows the other, `tokens` gives up, so a critical skill is signalled by `validate` always and by
`tokens` only where all skills can be reported (`tokens_exitCode_iff_validate`).
-/
namespace PluginLint

/-! ## Skills -/

/-- The skills discovered below a root are those in the directories whose budgets are reported. -/
theorem skills_eq_map_skillsOf (t : FileTree) (root : Path) :
    (discover t root).skills = (BudgetTarget.skillsOf t root).map fun directory =>
      Component.load t root .skill (entryPath directory) := by
  simp only [discover, skillDocuments, BudgetTarget.skillsOf, List.filter_map, List.map_map]
  rfl

/-- Whether the entry document of every skill below a root can be read. -/
def AllSkillsReadable (t : FileTree) (root : Path) : Prop :=
  ∀ skill ∈ (discover t root).skills, ∃ entry, skill.content = .ok entry

theorem allSkillsReadable_iff {t : FileTree} {root : Path} :
    AllSkillsReadable t root ↔ ∀ directory ∈ BudgetTarget.skillsOf t root,
      ∃ entry, t.readText (entryPath directory) = .ok entry := by
  unfold AllSkillsReadable
  rw [skills_eq_map_skillsOf, List.forall_mem_map]
  rfl

theorem hasCriticalSkill_iff {t : FileTree} {root : Path} {limits : Limits} {counter : Counter} :
    HasCriticalSkill t root limits counter ↔ ∃ directory ∈ BudgetTarget.skillsOf t root,
      ∃ entry, t.readText (entryPath directory) = .ok entry ∧
        limits.bodyCritical < counter.count (Document.parse entry).body := by
  unfold HasCriticalSkill
  rw [skills_eq_map_skillsOf]
  simp only [List.mem_map, exists_exists_and_eq_and]
  rfl

/-- Whether the path of every skill below a root is text. -/
def SkillPathsAreText (t : FileTree) (root : Path) : Prop :=
  ∀ skill ∈ (discover t root).skills, skill.path.isText = true

theorem skillPathsAreText_iff {t : FileTree} {root : Path} : SkillPathsAreText t root ↔
    ∀ directory ∈ BudgetTarget.skillsOf t root, directory.isText = true := by
  have hentry (directory : Path) : (entryPath directory).isText = directory.isText := by
    rw [entryPath, Path.isText_join _ (by decide)]
    exact Bool.and_true _
  unfold SkillPathsAreText
  rw [skills_eq_map_skillsOf, List.forall_mem_map]
  simp only [Component.load, hentry]

/-! ## Budgets -/

theorem SkillBudget.load_eq_ok_iff {t : FileTree} {counter : Counter} {limits : Limits}
    {directory : Path} {b : SkillBudget} :
    load t counter limits directory = .ok b ↔
      ∃ entry, t.readText (entryPath directory) = .ok entry ∧
        analyze t directory entry counter limits = b := by
  unfold load requireText
  rw [bind_eq_ok_iff]
  cases t.readText (entryPath directory) with
  | error fault => simp
  | ok entry => simp [pure, Except.pure]

theorem SkillBudget.status_analyze {t : FileTree} {directory : Path} {entry : Text}
    {counter : Counter} {limits : Limits} :
    (analyze t directory entry counter limits).status = .critical ↔
      limits.bodyCritical < counter.count (Document.parse entry).body :=
  BudgetStatus.ofBody_eq_critical_iff

theorem SkillBudget.path_of_load {t : FileTree} {counter : Counter} {limits : Limits}
    {directory : Path} {b : SkillBudget} (h : load t counter limits directory = .ok b) :
    b.path = directory := by
  obtain ⟨entry, -, rfl⟩ := load_eq_ok_iff.mp h
  rfl

theorem SkillBudget.map_path_of_loads {t : FileTree} {counter : Counter} {limits : Limits}
    {directories : List Path} {budgets : List SkillBudget}
    (h : directories.mapM (load t counter limits) = .ok budgets) :
    budgets.map (·.path) = directories := by
  induction mapM_eq_ok_iff.mp h with
  | nil => rfl
  | cons hload hrest ih => rw [List.map_cons, path_of_load hload, ih (mapM_eq_ok_iff.mpr hrest)]

/-- The budgets of all skills can be taken when all their entry documents can be read. -/
theorem SkillBudget.exists_loads_iff {t : FileTree} {counter : Counter} {limits : Limits}
    {root : Path} :
    (∃ budgets, (BudgetTarget.skillsOf t root).mapM (load t counter limits) = .ok budgets) ↔
      AllSkillsReadable t root := by
  rw [exists_mapM_eq_ok_iff, allSkillsReadable_iff]
  simp [load_eq_ok_iff]

theorem SkillBudget.exists_critical_iff {t : FileTree} {counter : Counter} {limits : Limits}
    {root : Path} {budgets : List SkillBudget}
    (h : (BudgetTarget.skillsOf t root).mapM (load t counter limits) = .ok budgets) :
    (∃ b ∈ budgets, b.status = .critical) ↔ HasCriticalSkill t root limits counter := by
  rw [hasCriticalSkill_iff]
  constructor
  · rintro ⟨b, hb, hstatus⟩
    obtain ⟨directory, hdirectory, hload⟩ := (mem_of_mapM_eq_ok h).mp hb
    obtain ⟨entry, hentry, rfl⟩ := load_eq_ok_iff.mp hload
    exact ⟨directory, hdirectory, entry, hentry, status_analyze.mp hstatus⟩
  · rintro ⟨directory, hdirectory, entry, hentry, hbody⟩
    have hload : load t counter limits directory = .ok (analyze t directory entry counter limits) :=
      load_eq_ok_iff.mpr ⟨entry, hentry, rfl⟩
    exact ⟨_, (mem_of_mapM_eq_ok h).mpr ⟨directory, hdirectory, hload⟩, status_analyze.mpr hbody⟩

theorem BudgetReport.exitCode_eq_two_iff {budgets : List SkillBudget} :
    exitCode budgets = 2 ↔ ∃ b ∈ budgets, b.status = .critical := by
  rw [exitCode_eq_cascade]
  split
  · next h => simpa using h
  · next h =>
    have hnone : ¬ ∃ b ∈ budgets, b.status = .critical := by simpa using h
    split <;> simp [hnone]

theorem ProgramOutcome.ofRun_exitCode_of_error {json : Bool} {e : LintError} :
    (ofRun json (.error e)).exitCode = 1 := by
  cases json <;> rfl

theorem ProgramOutcome.ofRun_exitCode_eq_two_iff {json : Bool} {run : Except LintError Outcome} :
    (ofRun json run).exitCode = 2 ↔ ∃ outcome, run = .ok outcome ∧ outcome.exitCode = 2 := by
  cases run with
  | error e => simp [ofRun_exitCode_of_error]
  | ok outcome => simp [ofRun]

/-! ## Runs -/

/-- A directory with a directory for skills that is no skill itself. -/
structure HoldsSkills (t : FileTree) (root : Path) : Prop where
  directory : t.isDirectory root = true
  skills : t.isDirectory (kindDirectory root .skill) = true
  noEntry : t.isFile (entryPath root) = false

namespace HoldsSkills

variable {t : FileTree} {root : Path} (h : HoldsSkills t root)
include h

theorem find?_root : t.find? root = some .directory := beq_iff_eq.mp h.directory

theorem requireDirectory (what : Text) : PluginLint.requireDirectory t root what = .ok () := by
  simp [PluginLint.requireDirectory, FileTree.pathExists, FileTree.isDirectory, h.find?_root]

theorem classify_eq_ok_iff {target : BudgetTarget} :
    BudgetTarget.classify t root = .ok target ↔
      BudgetTarget.skillsOf t root ≠ [] ∧ target = .plugin (BudgetTarget.skillsOf t root) := by
  have hexists : t.pathExists root = true := by simp [FileTree.pathExists, h.find?_root]
  have hfile : t.isFile root = false := by simp [FileTree.isFile, h.find?_root]
  unfold BudgetTarget.classify
  simp only [hexists, hfile, h.noEntry, h.skills, Bool.not_true, Bool.false_eq_true, if_false,
    if_true]
  cases BudgetTarget.skillsOf t root with
  | nil => simp
  | cons first rest =>
    constructor
    · intro hok
      exact ⟨List.cons_ne_nil first rest, (Except.ok.inj hok).symm⟩
    · rintro ⟨-, rfl⟩
      rfl

end HoldsSkills

namespace Surroundings

variable (s : Surroundings) {i : Invocation} {plugin : Path}

theorem validate_exitCode_eq_two_iff (h : HoldsSkills s.tree plugin) :
    (ProgramOutcome.ofRun i.json (s.validate i plugin "tokens".toList)).exitCode = 2 ↔
      ∃ settings, s.settings i plugin = .ok settings ∧
        HasCriticalSkill s.tree plugin settings.limits (s.counter settings) := by
  have hkinds : selectChecks "tokens".toList = .ok [.tokens] := selectChecks_word .tokens
  rw [ProgramOutcome.ofRun_exitCode_eq_two_iff]
  constructor
  · rintro ⟨outcome, hrun, htwo⟩
    obtain ⟨kinds, settings, hk, hsettings, rfl⟩ := s.of_validate_eq_ok hrun
    obtain rfl : [.tokens] = kinds := Except.ok.inj (hkinds.symm.trans hk)
    exact ⟨settings, hsettings, ((Verdict.exitCode_eq_two_iff _).trans
      Engine.critical_verdict_iff).mp htwo |>.2⟩
  · rintro ⟨settings, hsettings, hcritical⟩
    refine ⟨s.report i plugin [.tokens] settings, ?_, ?_⟩
    · simp only [validate, bind_eq_ok_iff]
      exact ⟨_, h.requireDirectory _, _, hkinds, _, hsettings, rfl⟩
    · exact ((Verdict.exitCode_eq_two_iff _).trans Engine.critical_verdict_iff).mpr
        ⟨List.mem_singleton.mpr rfl, hcritical⟩

theorem reportBudgets_eq_ok_iff {settings : Settings} {budgets : List SkillBudget}
    {outcome : Outcome} : s.reportBudgets i settings budgets = .ok outcome ↔
      (i.json = true → ∀ b ∈ budgets, b.path.isText = true) ∧
      s.budgetReport i settings budgets = outcome := by
  unfold reportBudgets
  cases i.json with
  | false => simp
  | true =>
    cases hall : budgets.all (·.path.isText) with
    | false =>
      have hsome : ¬ ∀ b ∈ budgets, b.path.isText = true := by
        rw [← List.all_eq_true, hall]
        exact Bool.false_ne_true
      simp [hsome]
    | true =>
      have htext := List.all_eq_true.mp hall
      simpa using fun _ => htext

/-- `tokens` reports on a plugin when it has skills, each of them can be read, and the paths that
are to be written as JSON are text. -/
theorem tokens_eq_ok_iff (h : HoldsSkills s.tree plugin) {outcome : Outcome} :
    s.tokens i plugin = .ok outcome ↔
      BudgetTarget.skillsOf s.tree plugin ≠ [] ∧
      (i.json = true → SkillPathsAreText s.tree plugin) ∧
      ∃ settings, s.settings i plugin = .ok settings ∧
        ∃ budgets, (BudgetTarget.skillsOf s.tree plugin).mapM
            (SkillBudget.load s.tree (s.counter settings) settings.limits) = .ok budgets ∧
          s.budgetReport i settings budgets = outcome := by
  have hpaths {settings : Settings} {budgets : List SkillBudget}
      (hbudgets : (BudgetTarget.skillsOf s.tree plugin).mapM
        (SkillBudget.load s.tree (s.counter settings) settings.limits) = .ok budgets) :
      (∀ b ∈ budgets, b.path.isText = true) ↔ SkillPathsAreText s.tree plugin := by
    rw [skillPathsAreText_iff, ← SkillBudget.map_path_of_loads hbudgets, List.forall_mem_map]
  simp only [tokens, bind_eq_ok_iff, h.classify_eq_ok_iff]
  constructor
  · rintro ⟨_, ⟨hsome, rfl⟩, settings, hsettings, hrun⟩
    obtain ⟨budgets, hbudgets, hreport⟩ := bind_eq_ok_iff.mp hrun
    obtain ⟨htext, houtcome⟩ := s.reportBudgets_eq_ok_iff.mp hreport
    exact ⟨hsome, fun hjson => (hpaths hbudgets).mp (htext hjson), settings, hsettings, budgets,
      hbudgets, houtcome⟩
  · rintro ⟨hsome, htext, settings, hsettings, budgets, hbudgets, houtcome⟩
    have hreport := s.reportBudgets_eq_ok_iff.mpr
      ⟨fun hjson => (hpaths hbudgets).mpr (htext hjson), houtcome⟩
    exact ⟨_, ⟨hsome, rfl⟩, settings, hsettings, bind_eq_ok_iff.mpr ⟨budgets, hbudgets, hreport⟩⟩

theorem tokens_exitCode_eq_two_iff (h : HoldsSkills s.tree plugin) :
    (ProgramOutcome.ofRun i.json (s.tokens i plugin)).exitCode = 2 ↔
      ∃ settings, s.settings i plugin = .ok settings ∧ AllSkillsReadable s.tree plugin ∧
        (i.json = true → SkillPathsAreText s.tree plugin) ∧
        HasCriticalSkill s.tree plugin settings.limits (s.counter settings) := by
  simp only [ProgramOutcome.ofRun_exitCode_eq_two_iff, s.tokens_eq_ok_iff h]
  constructor
  · rintro ⟨_, ⟨-, htext, settings, hsettings, budgets, hbudgets, rfl⟩, htwo⟩
    refine ⟨settings, hsettings, SkillBudget.exists_loads_iff.mp ⟨budgets, hbudgets⟩, htext, ?_⟩
    exact (SkillBudget.exists_critical_iff hbudgets).mp (BudgetReport.exitCode_eq_two_iff.mp htwo)
  · rintro ⟨settings, hsettings, hreadable, htext, hcritical⟩
    obtain ⟨budgets, hbudgets⟩ := SkillBudget.exists_loads_iff.mpr hreadable
    obtain ⟨directory, hdirectory, -⟩ := hasCriticalSkill_iff.mp hcritical
    refine ⟨s.budgetReport i settings budgets,
      ⟨List.ne_nil_of_mem hdirectory, htext, settings, hsettings, budgets, hbudgets, rfl⟩, ?_⟩
    exact BudgetReport.exitCode_eq_two_iff.mpr
      ((SkillBudget.exists_critical_iff hbudgets).mpr hcritical)

/-- `tokens` gives up on a plugin with a skill that cannot be read, and on one with a path that
cannot be written as JSON. -/
theorem tokens_exitCode_of_unreadable (h : HoldsSkills s.tree plugin)
    (hunreadable : ¬ (AllSkillsReadable s.tree plugin ∧
      (i.json = true → SkillPathsAreText s.tree plugin))) :
    (ProgramOutcome.ofRun i.json (s.tokens i plugin)).exitCode = 1 := by
  cases hrun : s.tokens i plugin with
  | error e => exact ProgramOutcome.ofRun_exitCode_of_error
  | ok outcome =>
    obtain ⟨-, htext, settings, -, budgets, hbudgets, -⟩ := (s.tokens_eq_ok_iff h).mp hrun
    exact absurd ⟨SkillBudget.exists_loads_iff.mp ⟨budgets, hbudgets⟩, htext⟩ hunreadable

/-- Where `tokens` and `validate` look at the same plugin with the same settings, `tokens` has the
exit code two exactly when `validate` has it, the entry documents of all skills can be read and,
where JSON is asked for, their paths are text. So the two agree on a critical skill exactly when
none is critical or all can be reported. Where one cannot, `tokens` has the exit code one. -/
theorem tokens_exitCode_iff_validate (i j : Invocation) (plugin : Path)
    (h : HoldsSkills s.tree plugin) (hconfig : i.config = j.config) :
    let tokens := ProgramOutcome.ofRun i.json (s.run { i with command := .tokens plugin })
    let validate :=
      ProgramOutcome.ofRun j.json (s.run { j with command := .validate plugin "tokens".toList })
    let reportable := AllSkillsReadable s.tree plugin ∧
      (i.json = true → SkillPathsAreText s.tree plugin)
    (tokens.exitCode = 2 ↔ validate.exitCode = 2 ∧ reportable) ∧
    ((tokens.exitCode = 2 ↔ validate.exitCode = 2) ↔ (validate.exitCode = 2 → reportable)) ∧
    (¬ reportable → tokens.exitCode = 1) := by
  intro tokens validate reportable
  have hsettings : s.settings j plugin = s.settings i plugin := by
    rw [settings, settings, hconfig]
  have htokens : tokens.exitCode = 2 ↔ ∃ settings, s.settings i plugin = .ok settings ∧
      AllSkillsReadable s.tree plugin ∧ (i.json = true → SkillPathsAreText s.tree plugin) ∧
      HasCriticalSkill s.tree plugin settings.limits (s.counter settings) :=
    s.tokens_exitCode_eq_two_iff h
  have hvalidate : validate.exitCode = 2 ↔ ∃ settings, s.settings i plugin = .ok settings ∧
      HasCriticalSkill s.tree plugin settings.limits (s.counter settings) := by
    rw [← hsettings]
    exact s.validate_exitCode_eq_two_iff h
  have hagree : tokens.exitCode = 2 ↔ validate.exitCode = 2 ∧ reportable := by
    rw [htokens, hvalidate]
    constructor
    · rintro ⟨settings, hok, hreadable, htext, hcritical⟩
      exact ⟨⟨settings, hok, hcritical⟩, hreadable, htext⟩
    · rintro ⟨⟨settings, hok, hcritical⟩, hreadable, htext⟩
      exact ⟨settings, hok, hreadable, htext, hcritical⟩
  refine ⟨hagree, ?_, ?_⟩
  · rw [hagree]
    constructor
    · intro hsame hcritical
      exact (hsame.mpr hcritical).2
    · intro hreportable
      exact ⟨fun hboth => hboth.1, fun hcritical => ⟨hcritical, hreportable hcritical⟩⟩
  · exact s.tokens_exitCode_of_unreadable h

end Surroundings

/-- A plugin with two skills, one above every limit on bodies and one whose entry document is no
text. -/
def halfReadablePlugin : Surroundings where
  tree :=
    { nodes :=
        [(["p".toList], .directory), (["p".toList, "skills".toList], .directory),
          (["p".toList, "skills".toList, "a".toList], .directory),
          (["p".toList, "skills".toList, "a".toList, skillEntry.toList], .file .binary),
          (["p".toList, "skills".toList, "b".toList], .directory),
          (["p".toList, "skills".toList, "b".toList, skillEntry.toList],
            .file (.text "a long body".toList))]
      base := [] }
  environment := crowdedPlugin.environment
  colors := false

theorem halfReadablePlugin_skillsOf :
    BudgetTarget.skillsOf halfReadablePlugin.tree ⟨"/p".toList⟩ =
      [⟨"/p/skills/a".toList⟩, ⟨"/p/skills/b".toList⟩] := by
  have hnames : halfReadablePlugin.tree.names ["p".toList, "skills".toList] =
      ["a".toList, "b".toList] :=
    List.mergeSort_of_pairwise (l := ["a".toList, "b".toList]) (by decide)
  have hplace : halfReadablePlugin.tree.locate (kindDirectory ⟨"/p".toList⟩ .skill) =
      .ok ["p".toList, "skills".toList] := by decide
  have hdirectory : halfReadablePlugin.tree.node? ["p".toList, "skills".toList] =
      some .directory := by decide
  simp only [BudgetTarget.skillsOf, skillDirectories, FileTree.entries, hplace, if_pos hdirectory,
    hnames]
  rfl

/-- The skill that is critical is signalled by `validate` and not by `tokens`. -/
theorem critical_skill_signalled_by_validate_alone :
    HoldsSkills halfReadablePlugin.tree ⟨"/p".toList⟩ ∧
    (ProgramOutcome.ofRun false
      (halfReadablePlugin.run (tokensInvocation ⟨"/p".toList⟩))).exitCode = 2 ∧
    (ProgramOutcome.ofRun false (halfReadablePlugin.run
      { tokensInvocation ⟨"/p".toList⟩ with command := .tokens ⟨"/p".toList⟩ })).exitCode = 1 := by
  have h : HoldsSkills halfReadablePlugin.tree ⟨"/p".toList⟩ :=
    ⟨by decide, by decide, by decide⟩
  have hsettings : halfReadablePlugin.settings (tokensInvocation ⟨"/p".toList⟩) ⟨"/p".toList⟩ =
      .ok ⟨⟨50, 100, 1, 1, 1⟩, .automatic⟩ := by decide
  have hcritical : HasCriticalSkill halfReadablePlugin.tree ⟨"/p".toList⟩ ⟨50, 100, 1, 1, 1⟩
      .approximate := by
    rw [hasCriticalSkill_iff, halfReadablePlugin_skillsOf]
    exact ⟨⟨"/p/skills/b".toList⟩, by simp, "a long body".toList, by decide, by decide⟩
  have hunreadable : ¬ AllSkillsReadable halfReadablePlugin.tree ⟨"/p".toList⟩ := by
    rw [allSkillsReadable_iff, halfReadablePlugin_skillsOf]
    intro hall
    obtain ⟨entry, hentry⟩ := hall ⟨"/p/skills/a".toList⟩ (by simp)
    have hfault : halfReadablePlugin.tree.readText (entryPath ⟨"/p/skills/a".toList⟩) =
        .error .notText := by decide
    rw [hfault] at hentry
    cases hentry
  refine ⟨h, ?_, ?_⟩
  · exact (halfReadablePlugin.validate_exitCode_eq_two_iff h).mpr ⟨_, hsettings, hcritical⟩
  · exact halfReadablePlugin.tokens_exitCode_of_unreadable h fun hall => hunreadable hall.1

theorem crowdedPlugin_signalled_by_tokens :
    HoldsSkills crowdedPlugin.tree ⟨"/p".toList⟩ ∧
    (ProgramOutcome.ofRun true (crowdedPlugin.run
      { tokensInvocation ⟨"/p".toList⟩ with
        json := true
        command := .tokens ⟨"/p".toList⟩ })).exitCode = 2 := by
  have h : HoldsSkills crowdedPlugin.tree ⟨"/p".toList⟩ := ⟨by decide, by decide, by decide⟩
  have hsettings : crowdedPlugin.settings (tokensInvocation ⟨"/p".toList⟩) ⟨"/p".toList⟩ =
      .ok ⟨⟨50, 100, 1, 1, 1⟩, .automatic⟩ := by decide
  have hcritical : HasCriticalSkill crowdedPlugin.tree ⟨"/p".toList⟩ ⟨50, 100, 1, 1, 1⟩
      .approximate := by
    rw [HasCriticalSkill, crowdedPlugin_skills]
    exact ⟨_, List.mem_singleton.mpr rfl, _, rfl, by decide⟩
  have hreadable : AllSkillsReadable crowdedPlugin.tree ⟨"/p".toList⟩ := by
    rw [AllSkillsReadable, crowdedPlugin_skills]
    intro skill hskill
    obtain rfl := List.mem_singleton.mp hskill
    exact ⟨_, rfl⟩
  have htext : SkillPathsAreText crowdedPlugin.tree ⟨"/p".toList⟩ := by
    rw [SkillPathsAreText, crowdedPlugin_skills]
    decide
  obtain ⟨hiff, -⟩ := crowdedPlugin.tokens_exitCode_iff_validate
    { tokensInvocation ⟨"/p".toList⟩ with json := true } (tokensInvocation ⟨"/p".toList⟩)
    ⟨"/p".toList⟩ h rfl
  have hvalidate := (crowdedPlugin.validate_exitCode_eq_two_iff h).mpr ⟨_, hsettings, hcritical⟩
  exact ⟨h, hiff.mpr ⟨hvalidate, hreadable, fun _ => htext⟩⟩

end PluginLint
