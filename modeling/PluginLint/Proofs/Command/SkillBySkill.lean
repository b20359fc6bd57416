import PluginLint.Proofs.Command.SkillDirectories
import PluginLint.Proofs.FileTree.Following
import PluginLint.Proofs.Settings.Layers

/-!
# Budgets skill by skill

The `tokens` command on a plugin does what it does on each of its skills alone. A directory with an
entry document is always taken for a skill (`classify_of_isFile_entryPath`), the settings of a file
that is named are the same for all of them (`ConfiguredPlugin.settings_eq`), and the worst status of
some skills has the largest of their exit codes (`BudgetReport.exitCode_cons`). So the plugin's list
of analyses is that of its skills one after the other, and its exit code the largest of theirs
(`tokens_skill_by_skill`). This is so for paths that can be written: on the command line, where an
argument with a hyphen in front is an option, and as JSON, where a path must be text
(`exit_codes_apart_beyond_written_paths`).
-/
namespace PluginLint

/-! ## Command lines -/

/-- The command line that asks `tokens` for JSON on a path, with a settings file or without one. -/
def tokensLine (config : Option Path) (path : Path) : List Text :=
  "--json".toList :: (config.map fun file => "--config=".toList ++ file.text).toList ++
    ["tokens".toList, path.text]

/-- Whether a path is taken for one on a command line: it is not empty and not written like an
option. -/
structure Path.IsOperand (p : Path) : Prop where
  written : p.text ≠ []
  unhyphened : p.text.head? ≠ some '-'

theorem Path.IsOperand.join {p : Path} (h : p.IsOperand) (child : Text) :
    (p.join child).IsOperand := by
  have hfront (rest : Text) : Path.IsOperand ⟨p.text ++ rest⟩ :=
    ⟨List.append_ne_nil_of_left_ne_nil h.written rest,
      by rw [List.head?_append_of_ne_nil _ h.written]; exact h.unhyphened⟩
  unfold Path.join
  split
  · next hslash =>
    refine ⟨?_, by rw [hslash]; decide⟩
    rintro rfl
    cases hslash
  · split
    · exact hfront child
    · exact hfront ('/' :: child)

/-- What that command line is read as. -/
def tokensJson (config : Option Path) (path : Path) : Invocation where
  command := .tokens path
  verbose := false
  json := true
  quiet := false
  config := config

namespace Invocation

/-- An argument without a hyphen in front is the path of a command that has none yet. -/
theorem takeOne_operand {level : Level} {g : Given} {argument : Text}
    (hhyphen : argument.head? ≠ some '-') (hlevel : level ≠ .top) (hawaited : g.awaited = none)
    (hpath : g.hasPath = false) : takeOne level g argument = g.await .path (some argument) := by
  unfold takeOne
  split
  · exact absurd rfl hhyphen
  · exact absurd rfl hhyphen
  · rw [hawaited]
    simp only [takePath, if_neg hlevel, hpath, Bool.false_eq_true, if_false]

theorem take_operand {path : Path} (h : path.IsOperand) : take .tokens {} [path.text] =
    .ok ({ pending := some (.path, some path.text) }, none) := by
  have hplain : path.text ≠ ['-', '-'] := fun heq => h.unhyphened (by rw [heq]; rfl)
  unfold take
  rw [takeOne_operand h.unhyphened (by decide) rfl rfl]
  simp [hplain]
  rfl

theorem parse_tokensLine {config : Option Path} {path : Path}
    (hconfig : ∀ file, config = some file → file.text ≠ []) (h : path.IsOperand) :
    parse (tokensLine config path) = .ok (tokensJson config path) := by
  have htop : take .top {} (tokensLine config path) =
      .ok ({ json := true, config := config.map Path.text }, some (.tokens, [path.text])) := by
    cases config with
    | none => rfl
    | some file =>
      have hoption : take .top {} (tokensLine (some file) path) = (do
          let g ← Given.settle { json := true, pending := some (.config, some file.text) }
          take .top g ["tokens".toList, path.text]) := rfl
      have hfile : Given.settle { json := true, pending := some (.config, some file.text) } =
          .ok { json := true, config := some file.text } := if_neg (hconfig file rfl)
      rw [hoption, hfile]
      rfl
  have hpath : Given.settle { pending := some (.path, some path.text) } =
      .ok { path := some path.text } := if_neg h.written
  unfold parse
  rw [htop]
  simp only [bind, Except.bind, take_operand h, hpath]
  cases config <;> rfl

end Invocation

/-! ## Targets -/

/-- A path to an entry document leads through the directory of a skill. -/
theorem BudgetTarget.classify_of_isFile_entryPath {t : FileTree} {directory : Path}
    (hdirectory : directory.text ≠ []) (h : t.isFile (entryPath directory) = true) :
    classify t directory = .ok .skill := by
  have hfind : t.find? directory = some .directory :=
    beq_iff_eq.mp (FileTree.isDirectory_of_isFile_join hdirectory (by decide) h)
  have hexists : t.pathExists directory = true := by simp [FileTree.pathExists, hfind]
  have hfile : t.isFile directory = false := by simp [FileTree.isFile, hfind]
  simp [classify, hexists, hfile, h]

/-- The skill directories of a plugin that can stand on a command line can stand there too. -/
theorem Path.IsOperand.of_mem_skillsOf {t : FileTree} {plugin directory : Path}
    (h : plugin.IsOperand) (hmem : directory ∈ BudgetTarget.skillsOf t plugin) :
    directory.IsOperand := by
  rw [skillsOf_eq_map] at hmem
  obtain ⟨name, -, rfl⟩ := List.mem_map.mp hmem
  exact (h.join _).join name

theorem BudgetTarget.classify_of_mem_skillsOf {t : FileTree} {plugin directory : Path}
    (hoperand : plugin.IsOperand) (h : directory ∈ skillsOf t plugin) :
    classify t directory = .ok .skill :=
  classify_of_isFile_entryPath (hoperand.of_mem_skillsOf h).written (List.mem_filter.mp h).2

/-! ## Runs -/

/-- Whether a command line prints a list of analyses. -/
def Surroundings.Emits (s : Surroundings) (arguments : List Text) (analyses : List SkillBudget) :
    Prop :=
  ∃ outcome, s.perform arguments = .ok outcome ∧
    outcome.output = (Json.array (analyses.map SkillBudget.json)).pretty ++ ['\n']

/-- What a plugin prints where the settings can be loaded, and its exit code, come from its skills
alone. -/
structure SkillBySkill (s : Surroundings) (config : Option Path) (plugin : Path)
    (directories : List Path) : Prop where
  exitCode : (directories.map fun directory => s.exitCode (tokensLine config directory)).max? =
    some (s.exitCode (tokensLine config plugin))
  analyses : ∀ settings, Settings.load s.tree s.environment config plugin = .ok settings →
    ∃ analyses : Path → List SkillBudget,
      (∀ directory ∈ directories, s.Emits (tokensLine config directory) (analyses directory)) ∧
      s.Emits (tokensLine config plugin) (directories.flatMap analyses)

/-- A plugin that is no skill itself and has some skill, whose entry documents can all be read, with
a settings file that is named and is there. -/
structure ConfiguredPlugin (s : Surroundings) (config : Option Path) (plugin : Path) : Prop where
  named : ∃ file, s.environment.Names config file ∧ s.tree.pathExists file = true
  directory : s.tree.isDirectory plugin = true
  noEntry : s.tree.isFile (entryPath plugin) = false
  skills : (discover s.tree plugin).skills ≠ []
  readable : AllSkillsReadable s.tree plugin

namespace ConfiguredPlugin

variable {s : Surroundings} {config : Option Path} {plugin : Path}
variable (h : ConfiguredPlugin s config plugin)
include h

theorem skillsOf_ne_nil : BudgetTarget.skillsOf s.tree plugin ≠ [] := by
  intro hnone
  refine h.skills ?_
  rw [skills_eq_map_skillsOf, hnone, List.map_nil]

theorem holdsSkills : HoldsSkills s.tree plugin := by
  obtain ⟨skill, hskill⟩ := List.exists_mem_of_ne_nil _ h.skills
  exact ⟨h.directory, isDirectory_of_mem_skills hskill, h.noEntry⟩

/-- The settings come from the file that is named, whatever they are for. -/
theorem settings_eq (target : Path) : s.settings (tokensJson config target) target =
    (Settings.load s.tree s.environment config plugin).mapError .ofSettings := by
  obtain ⟨file, hfile, -⟩ := h.named
  have hload : Settings.load s.tree s.environment config (settingsRoot s.tree target) =
      Settings.load s.tree s.environment config plugin :=
    Settings.load_of_named hfile (fun _ => rfl) rfl rfl
  exact congrArg (Except.mapError LintError.ofSettings) hload

theorem config_ne_nil : ∀ file, config = some file → file.text ≠ [] := by
  rintro file rfl hnil
  obtain ⟨named, hfile | ⟨hnone, -⟩, hexists⟩ := h.named
  · obtain rfl := Option.some.inj hfile
    simp [FileTree.pathExists, FileTree.find?, FileTree.locate, hnil] at hexists
  · cases hnone

theorem perform_eq {path : Path} (hpath : path.IsOperand) : s.perform (tokensLine config path) =
    .ok (.ofRun true (s.tokens (tokensJson config path) path)) := by
  rw [Surroundings.perform, Invocation.parse_tokensLine h.config_ne_nil hpath]
  rfl

theorem exitCode_eq {path : Path} (hpath : path.IsOperand) : s.exitCode (tokensLine config path) =
    (ProgramOutcome.ofRun true (s.tokens (tokensJson config path) path)).exitCode := by
  rw [Surroundings.exitCode, h.perform_eq hpath]

/-- A command line that carries out a report prints its list. -/
theorem emits_of_tokens {path : Path} {settings : Settings} {budgets : List SkillBudget}
    (hpath : path.IsOperand) (hrun : s.tokens (tokensJson config path) path =
      .ok (s.budgetReport (tokensJson config path) settings budgets)) :
    s.Emits (tokensLine config path) budgets :=
  ⟨_, h.perform_eq hpath, by rw [hrun]; rfl⟩

theorem classify_plugin : BudgetTarget.classify s.tree plugin =
    .ok (.plugin (BudgetTarget.skillsOf s.tree plugin)) :=
  h.holdsSkills.classify_eq_ok_iff.mpr ⟨h.skillsOf_ne_nil, rfl⟩

/-! ### Without settings -/

/-- Where the settings cannot be loaded every run fails alike. -/
theorem exitCode_of_settings_error {e : SettingsError}
    (hsettings : Settings.load s.tree s.environment config plugin = .error e) {path : Path}
    (hpath : path.IsOperand) {target : BudgetTarget}
    (htarget : BudgetTarget.classify s.tree path = .ok target) :
    s.exitCode (tokensLine config path) = 1 := by
  have hrun : s.tokens (tokensJson config path) path = .error (.ofSettings e) := by
    rw [Surroundings.tokens, htarget, h.settings_eq, hsettings]
    rfl
  rw [h.exitCode_eq hpath, hrun]
  exact ProgramOutcome.ofRun_exitCode_of_error

/-! ### With settings -/

/-- The budget of a skill directory whose entry document can be read. -/
def budgetOf (s : Surroundings) (settings : Settings) (directory : Path) : SkillBudget :=
  .analyze s.tree directory ((s.tree.readText (entryPath directory)).toOption.getD [])
    (s.counter settings) settings.limits

theorem load_eq {directory : Path} (settings : Settings)
    (hmem : directory ∈ BudgetTarget.skillsOf s.tree plugin) :
    SkillBudget.load s.tree (s.counter settings) settings.limits directory =
      .ok (budgetOf s settings directory) := by
  obtain ⟨entry, hentry⟩ := allSkillsReadable_iff.mp h.readable directory hmem
  refine SkillBudget.load_eq_ok_iff.mpr ⟨entry, hentry, ?_⟩
  rw [budgetOf, hentry]
  rfl

section

variable {settings : Settings}
variable (hsettings : Settings.load s.tree s.environment config plugin = .ok settings)
include hsettings

theorem settings_eq_ok (target : Path) :
    s.settings (tokensJson config target) target = .ok settings := by
  rw [h.settings_eq, hsettings]
  rfl

/-- The run on a skill alone. -/
theorem tokens_skill (hoperand : plugin.IsOperand) {directory : Path}
    (hmem : directory ∈ BudgetTarget.skillsOf s.tree plugin) (htext : directory.isText = true) :
    s.tokens (tokensJson config directory) directory =
      .ok (s.budgetReport (tokensJson config directory) settings
        [budgetOf s settings directory]) := by
  simp only [Surroundings.tokens, bind_eq_ok_iff]
  refine ⟨_, BudgetTarget.classify_of_mem_skillsOf hoperand hmem, _,
    h.settings_eq_ok hsettings directory, ?_⟩
  refine bind_eq_ok_iff.mpr ⟨_, h.load_eq settings hmem, ?_⟩
  refine s.reportBudgets_eq_ok_iff.mpr ⟨fun _ => ?_, rfl⟩
  exact List.forall_mem_singleton.mpr htext

/-- The run on the plugin. -/
theorem tokens_plugin (htext : SkillPathsAreText s.tree plugin) :
    s.tokens (tokensJson config plugin) plugin =
      .ok (s.budgetReport (tokensJson config plugin) settings
        ((BudgetTarget.skillsOf s.tree plugin).map (budgetOf s settings))) := by
  have hloads : (BudgetTarget.skillsOf s.tree plugin).mapM
      (SkillBudget.load s.tree (s.counter settings) settings.limits) =
        .ok ((BudgetTarget.skillsOf s.tree plugin).map (budgetOf s settings)) := by
    rw [mapM_eq_ok_iff, List.forall₂_map_right_iff]
    exact List.forall₂_same.mpr fun directory hmem => h.load_eq settings hmem
  exact (s.tokens_eq_ok_iff h.holdsSkills).mpr ⟨h.skillsOf_ne_nil, fun _ => htext, settings,
    h.settings_eq_ok hsettings plugin, _, hloads, rfl⟩

/-- The exit code of the run on a skill alone. -/
theorem exitCode_skill (hoperand : plugin.IsOperand) {directory : Path}
    (hmem : directory ∈ BudgetTarget.skillsOf s.tree plugin) (htext : directory.isText = true) :
    s.exitCode (tokensLine config directory) =
      BudgetReport.exitCode [budgetOf s settings directory] := by
  rw [h.exitCode_eq (hoperand.of_mem_skillsOf hmem), h.tokens_skill hsettings hoperand hmem htext]
  rfl

end

/-! ### The plugin and its skills -/

/-- The run on a plugin fails where the path of a skill is not text. -/
theorem exitCode_of_not_text (hoperand : plugin.IsOperand)
    (htext : ¬ SkillPathsAreText s.tree plugin) : s.exitCode (tokensLine config plugin) = 1 := by
  rw [h.exitCode_eq hoperand]
  exact s.tokens_exitCode_of_unreadable h.holdsSkills fun hall => htext (hall.2 rfl)

variable (hoperand : plugin.IsOperand) (htext : SkillPathsAreText s.tree plugin)
include hoperand htext

theorem max?_exitCode : ((BudgetTarget.skillsOf s.tree plugin).map fun directory =>
    s.exitCode (tokensLine config directory)).max? =
      some (s.exitCode (tokensLine config plugin)) := by
  cases hsettings : Settings.load s.tree s.environment config plugin with
  | error e =>
    have hcodes : (BudgetTarget.skillsOf s.tree plugin).map
        (fun directory => s.exitCode (tokensLine config directory)) =
        (BudgetTarget.skillsOf s.tree plugin).map fun _ => 1 :=
      List.map_congr_left fun directory hmem => h.exitCode_of_settings_error hsettings
        (hoperand.of_mem_skillsOf hmem) (BudgetTarget.classify_of_mem_skillsOf hoperand hmem)
    rw [hcodes, h.exitCode_of_settings_error hsettings hoperand h.classify_plugin, List.map_const',
      List.max?_replicate_of_pos (List.length_pos_iff.mpr h.skillsOf_ne_nil)]
  | ok settings =>
    let budgets := (BudgetTarget.skillsOf s.tree plugin).map (budgetOf s settings)
    have hcodes : (BudgetTarget.skillsOf s.tree plugin).map
        (fun directory => s.exitCode (tokensLine config directory)) =
        budgets.map fun b => BudgetReport.exitCode [b] := by
      rw [List.map_map]
      exact List.map_congr_left fun directory hmem => h.exitCode_skill hsettings hoperand hmem
        (skillPathsAreText_iff.mp htext directory hmem)
    have hmax : (budgets.map fun b => BudgetReport.exitCode [b]).max? =
        some (BudgetReport.exitCode budgets) :=
      max?_map_singleton BudgetReport.exitCode BudgetReport.exitCode_cons
        (by simpa [budgets] using h.skillsOf_ne_nil)
    rw [hcodes, hmax, h.exitCode_eq hoperand, h.tokens_plugin hsettings htext]
    rfl

theorem skillBySkill : SkillBySkill s config plugin (BudgetTarget.skillsOf s.tree plugin) where
  exitCode := h.max?_exitCode hoperand htext
  analyses := by
    intro settings hsettings
    refine ⟨fun directory => [budgetOf s settings directory], fun directory hmem => ?_, ?_⟩
    · exact h.emits_of_tokens (hoperand.of_mem_skillsOf hmem) (h.tokens_skill hsettings
        hoperand hmem (skillPathsAreText_iff.mp htext directory hmem))
    · rw [← List.map_eq_flatMap]
      exact h.emits_of_tokens hoperand (h.tokens_plugin hsettings htext)

end ConfiguredPlugin

/-- With one settings file for all runs, `tokens` on a plugin lists the analyses that it lists for
each skill alone, in the order of the names of their directories, and exits with the largest of
their exit codes. The plugin is no skill itself, has some skill, the entry documents of all can be
read, the path of the plugin is not written like an option and those of the skills are text. -/
theorem tokens_skill_by_skill (s : Surroundings) (config : Option Path) (plugin : Path)
    (h : ConfiguredPlugin s config plugin) (hoperand : plugin.IsOperand)
    (htext : SkillPathsAreText s.tree plugin) :
    ∃ names : List Text, names.Pairwise (· < ·) ∧
      (discover s.tree plugin).skills.map (·.path) =
        (names.map (skillPath plugin)).map entryPath ∧
      SkillBySkill s config plugin (names.map (skillPath plugin)) := by
  refine ⟨(skillNames s.tree plugin).filter (hasEntry s.tree plugin),
    skillNames_pairwise.filter _, ?_, ?_⟩
  · rw [skills_eq_map, List.map_map, List.map_map]
    rfl
  · rw [← skillsOf_eq_map]
    exact h.skillBySkill hoperand htext

/-! ## Two skills -/

/-- A plugin with two skills, the second above the limits of the environment and the first below,
and a settings file that leaves them. -/
def unevenPlugin (first : Text) : Surroundings where
  tree :=
    { nodes :=
        [(["p".toList], .directory), (["p".toList, "skills".toList], .directory),
          (["p".toList, "skills".toList, first], .directory),
          (["p".toList, "skills".toList, first, skillEntry.toList], .file (.text "body".toList)),
          (["p".toList, "skills".toList, "b".toList], .directory),
          (["p".toList, "skills".toList, "b".toList, skillEntry.toList],
            .file (.text "a long body".toList)),
          (["plint.toml".toList], .file (.text "# as it is\n".toList))]
      base := [] }
  environment := crowdedPlugin.environment
  colors := false

/-- The settings file of that plugin. -/
def leavingConfig : Option Path := some ⟨"/plint.toml".toList⟩

theorem unevenPlugin_skillsOf {first : Text} (hfirst : first = "a".toList ∨ first = ['\x00']) :
    BudgetTarget.skillsOf (unevenPlugin first).tree ⟨"/p".toList⟩ =
      [⟨"/p/skills/".toList ++ first⟩, ⟨"/p/skills/b".toList⟩] := by
  have hnames : (unevenPlugin first).tree.names ["p".toList, "skills".toList] =
      [first, "b".toList] := by
    obtain rfl | rfl := hfirst
    · exact List.mergeSort_of_pairwise (l := ["a".toList, "b".toList]) (by decide)
    · exact List.mergeSort_of_pairwise (l := [['\x00'], "b".toList]) (by decide)
  have hplace : (unevenPlugin first).tree.locate (kindDirectory ⟨"/p".toList⟩ .skill) =
      .ok ["p".toList, "skills".toList] := by
    obtain rfl | rfl := hfirst <;> decide
  rw [BudgetTarget.skillsOf, skillDirectories,
    FileTree.entries_of_located hplace rfl, hnames]
  obtain rfl | rfl := hfirst <;> decide

theorem configuredPlugin_unevenPlugin {first : Text}
    (hfirst : first = "a".toList ∨ first = ['\x00']) :
    ConfiguredPlugin (unevenPlugin first) leavingConfig ⟨"/p".toList⟩ := by
  have hskills := unevenPlugin_skillsOf hfirst
  refine ⟨⟨⟨"/plint.toml".toList⟩, .inl rfl, ?named⟩, ?directory, ?noEntry, ?skills, ?readable⟩
  case skills =>
    rw [skills_eq_map_skillsOf, hskills]
    exact List.cons_ne_nil _ _
  case readable =>
    rw [allSkillsReadable_iff, hskills]
    refine List.forall_mem_cons.mpr ⟨⟨"body".toList, ?_⟩,
      List.forall_mem_singleton.mpr ⟨"a long body".toList, ?_⟩⟩
    all_goals obtain rfl | rfl := hfirst <;> decide
  all_goals obtain rfl | rfl := hfirst <;> decide

theorem unevenPlugin_settings {first : Text} (hfirst : first = "a".toList ∨ first = ['\x00']) :
    Settings.load (unevenPlugin first).tree (unevenPlugin first).environment leavingConfig
      ⟨"/p".toList⟩ = .ok ⟨⟨50, 100, 1, 1, 1⟩, .automatic⟩ := by
  obtain rfl | rfl := hfirst <;> decide +kernel

theorem unevenPlugin_skill_by_skill :
    ConfiguredPlugin (unevenPlugin "a".toList) leavingConfig ⟨"/p".toList⟩ ∧
    Path.IsOperand ⟨"/p".toList⟩ ∧
    SkillPathsAreText (unevenPlugin "a".toList).tree ⟨"/p".toList⟩ ∧
    Settings.load (unevenPlugin "a".toList).tree (unevenPlugin "a".toList).environment
      leavingConfig ⟨"/p".toList⟩ = .ok ⟨⟨50, 100, 1, 1, 1⟩, .automatic⟩ ∧
    ∃ names : List Text,
      names.map (fun name => entryPath (skillPath ⟨"/p".toList⟩ name)) =
        [⟨"/p/skills/a/SKILL.md".toList⟩, ⟨"/p/skills/b/SKILL.md".toList⟩] ∧
      SkillBySkill (unevenPlugin "a".toList) leavingConfig ⟨"/p".toList⟩
        (names.map (skillPath ⟨"/p".toList⟩)) := by
  have h := configuredPlugin_unevenPlugin (.inl rfl)
  have hskills := unevenPlugin_skillsOf (.inl rfl)
  have hoperand : Path.IsOperand ⟨"/p".toList⟩ := ⟨by decide, by decide⟩
  have htext : SkillPathsAreText (unevenPlugin "a".toList).tree ⟨"/p".toList⟩ := by
    rw [skillPathsAreText_iff, hskills]
    decide
  obtain ⟨names, -, hpaths, hrun⟩ := tokens_skill_by_skill (unevenPlugin "a".toList) leavingConfig
    ⟨"/p".toList⟩ h hoperand htext
  rw [skills_eq_map_skillsOf, hskills, List.map_map, List.map_map] at hpaths
  exact ⟨h, hoperand, htext, unevenPlugin_settings (.inl rfl), names, hpaths.symm, hrun⟩

/-- A plugin whose directory has the name of an option, with one skill above the limits of the
environment. -/
def hyphenedPlugin : Surroundings where
  tree :=
    { nodes :=
        [(["--help".toList], .directory), (["--help".toList, "skills".toList], .directory),
          (["--help".toList, "skills".toList, "a".toList], .directory),
          (["--help".toList, "skills".toList, "a".toList, skillEntry.toList],
            .file (.text "a long body".toList)),
          (["plint.toml".toList], .file (.text "# as it is\n".toList))]
      base := [] }
  environment := crowdedPlugin.environment
  colors := false

theorem hyphenedPlugin_skillsOf : BudgetTarget.skillsOf hyphenedPlugin.tree ⟨"--help".toList⟩ =
    [⟨"--help/skills/a".toList⟩] := by
  have hnames : hyphenedPlugin.tree.names ["--help".toList, "skills".toList] = ["a".toList] :=
    List.mergeSort_singleton "a".toList
  have hplace : hyphenedPlugin.tree.locate (kindDirectory ⟨"--help".toList⟩ .skill) =
      .ok ["--help".toList, "skills".toList] := by decide
  rw [BudgetTarget.skillsOf, skillDirectories, FileTree.entries_of_located hplace rfl, hnames]
  decide

/-- A plugin that cannot be listed as JSON exits with one though a skill of it is critical, and the
name of a plugin that is an option asks for help. -/
theorem exit_codes_apart_beyond_written_paths :
    (ConfiguredPlugin (unevenPlugin ['\x00']) leavingConfig ⟨"/p".toList⟩ ∧
      Path.IsOperand ⟨"/p".toList⟩ ∧
      (unevenPlugin ['\x00']).exitCode (tokensLine leavingConfig ⟨"/p".toList⟩) = 1 ∧
      (unevenPlugin ['\x00']).exitCode (tokensLine leavingConfig ⟨"/p/skills/b".toList⟩) = 2 ∧
      ¬ SkillBySkill (unevenPlugin ['\x00']) leavingConfig ⟨"/p".toList⟩
        (BudgetTarget.skillsOf (unevenPlugin ['\x00']).tree ⟨"/p".toList⟩)) ∧
    (ConfiguredPlugin hyphenedPlugin leavingConfig ⟨"--help".toList⟩ ∧
      SkillPathsAreText hyphenedPlugin.tree ⟨"--help".toList⟩ ∧
      hyphenedPlugin.exitCode (tokensLine leavingConfig ⟨"--help".toList⟩) = 0 ∧
      hyphenedPlugin.exitCode (tokensLine leavingConfig ⟨"--help/skills/a".toList⟩) = 2 ∧
      ¬ SkillBySkill hyphenedPlugin leavingConfig ⟨"--help".toList⟩
        (BudgetTarget.skillsOf hyphenedPlugin.tree ⟨"--help".toList⟩)) := by
  have hapart {s : Surroundings} {plugin : Path} {directories : List Path} {directory : Path}
      (hmem : directory ∈ directories)
      (hcodes : s.exitCode (tokensLine leavingConfig plugin) <
        s.exitCode (tokensLine leavingConfig directory)) :
      ¬ SkillBySkill s leavingConfig plugin directories := by
    intro hall
    have hle := (List.max?_eq_some_iff.mp hall.exitCode).2 _ (List.mem_map_of_mem hmem)
    exact absurd hcodes (Nat.not_lt.mpr hle)
  constructor
  · have h := configuredPlugin_unevenPlugin (.inr rfl)
    have hskills := unevenPlugin_skillsOf (.inr rfl)
    have hsettings := unevenPlugin_settings (.inr rfl)
    have hoperand : Path.IsOperand ⟨"/p".toList⟩ := ⟨by decide, by decide⟩
    have hmem : ⟨"/p/skills/b".toList⟩ ∈
        BudgetTarget.skillsOf (unevenPlugin ['\x00']).tree ⟨"/p".toList⟩ := by
      rw [hskills]
      simp
    have hplugin :
        (unevenPlugin ['\x00']).exitCode (tokensLine leavingConfig ⟨"/p".toList⟩) = 1 := by
      refine h.exitCode_of_not_text hoperand ?_
      rw [skillPathsAreText_iff, hskills]
      decide
    have hskill : (unevenPlugin ['\x00']).exitCode
        (tokensLine leavingConfig ⟨"/p/skills/b".toList⟩) = 2 := by
      rw [h.exitCode_skill hsettings hoperand hmem (by decide), BudgetReport.exitCode_eq_two_iff]
      exact ⟨_, List.mem_singleton.mpr rfl, SkillBudget.status_analyze.mpr (by decide)⟩
    exact ⟨h, hoperand, hplugin, hskill, hapart hmem (by rw [hplugin, hskill]; decide)⟩
  · have hskills := hyphenedPlugin_skillsOf
    have hplugin : hyphenedPlugin.exitCode (tokensLine leavingConfig ⟨"--help".toList⟩) = 0 := by
      decide
    have hskill : hyphenedPlugin.exitCode
        (tokensLine leavingConfig ⟨"--help/skills/a".toList⟩) = 2 := by
      decide
    have hmem : ⟨"--help/skills/a".toList⟩ ∈
        BudgetTarget.skillsOf hyphenedPlugin.tree ⟨"--help".toList⟩ := by
      rw [hskills]
      exact List.mem_singleton.mpr rfl
    refine ⟨⟨⟨⟨"/plint.toml".toList⟩, .inl rfl, by decide⟩, by decide, by decide, ?skills,
      ?readable⟩, ?text, hplugin, hskill, hapart hmem (by rw [hplugin, hskill]; decide)⟩
    case skills =>
      rw [skills_eq_map_skillsOf, hskills]
      exact List.cons_ne_nil _ _
    case readable =>
      rw [allSkillsReadable_iff, hskills]
      exact List.forall_mem_singleton.mpr ⟨"a long body".toList, by decide⟩
    case text =>
      rw [skillPathsAreText_iff, hskills]
      decide

end PluginLint
