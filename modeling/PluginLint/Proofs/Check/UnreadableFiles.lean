import Mathlib.Data.List.Forall2
import PluginLint.Proofs.Budget.Accounting
import PluginLint.Proofs.Check.Isolation
import PluginLint.Proofs.Check.Messages
import PluginLint.Proofs.Command.SkillDirectories
import PluginLint.Proofs.Plugin.Labels

/-!
# Files that cannot be read

Every check knows which files it reads (`filesRead`), and the issues that say that one cannot be
read are about the unreadable ones among them, each once and in their order (`Reports`). Four checks
name such a file by the names that lead to it from the root. The tokens check takes the label of an
entry document, trims the name of the document off its end and puts the label of the file below the
skill behind it. A skill directory may itself be called like an entry document: then the trimming
takes its name as well (`trimEntry_skill`), and what is left names another place.
-/
namespace PluginLint

open SkillBudget

/-! ## What checks read -/

/-- The file at a path, if there is one. -/
def fileAt (t : FileTree) (p : Path) : List Path := if t.isFile p then [p] else []

/-- The references and the scripts of the skill with an entry document. They are looked at when the
document can be read. -/
def skillFiles (t : FileTree) (skill : Component) : List Path :=
  match skill.content, skill.skillDirectory? with
  | .ok _, some directory => referenceFiles t directory ++ scriptFiles t directory
  | _, _ => []

/-- The entry documents that a manifest makes its check look at: where commands are listed, those of
the skills that are not among them. -/
def undeclaredEntries (t : FileTree) (root : Path) (m : Manifest) : List Path :=
  match m.commands with
  | some (.entries (_ :: _)) => (discover t root).skills.flatMap fun skill =>
    if m.commandPaths.contains (ManifestCheck.declaredPath skill) then [] else [skill.path]
  | _ => []

/-- The files that a check reads, in the order in which it reports on them. -/
def filesRead (t : FileTree) (root : Path) : CheckKind → List Path
  | .layout =>
    if t.isFile (manifestPath root) then
      StructureCheck.scriptConfigs.flatMap fun file => fileAt t (root.join file.toList)
    else []
  | .manifest => fileAt t (manifestPath root) ++
    match ManifestSource.load t root with
    | .loaded m => undeclaredEntries t root m
    | _ => []
  | .frontmatter => (discover t root).toList.map (·.path)
  | .tools => (discover t root).toList.map (·.path)
  | .tokens => (discover t root).skills.flatMap fun skill => skill.path :: skillFiles t skill

/-! ## What issues say of them -/

/-- Whether the tokens check misnames the file with some names below the root: it lies in a skill
directory that is called like an entry document, and is not the entry document in it. -/
def IsMisnamed (kind : CheckKind) (names : List Text) : Prop :=
  kind = .tokens ∧ ∃ rest, names = "skills".toList :: skillEntry.toList :: rest ∧
    rest ≠ [skillEntry.toList]

/-- The other checks misname no file. -/
theorem not_isMisnamed {kind : CheckKind} (h : kind ≠ .tokens) (names : List Text) :
    ¬ IsMisnamed kind names :=
  fun hmisnamed => h hmisnamed.1

/-- An issue on a file that cannot be read. It says why, and names the file by the names that lead
to it from the root, unless it is misnamed: then the name of the skill's directory is left out. -/
structure Issue.ReportsFile (i : Issue) (root : Path) (kind : CheckKind) (u : UnreadableFile) :
    Prop where
  severity : i.severity = .must
  reason : ∃ before, i.source = some (before ++ u.fault.message.toList)
  file : ∃ names, Path.Spells root names u.path ∧
    (i.file = some (List.intercalate ['/'] names) ↔ ¬ IsMisnamed kind names) ∧
    (IsMisnamed kind names →
      i.file = some (List.intercalate ['/'] ("skills".toList :: names.drop 2)))

/-- Whether the issues that say that a file cannot be read are about the unreadable ones of some
files, each once and in their order. -/
def Reports (t : FileTree) (root : Path) (kind : CheckKind) (issues : List Issue)
    (files : List Path) : Prop :=
  List.Forall₂ (fun i u => i.ReportsFile root kind u) (issues.filter fun i => i.SaysUnreadable)
    (unreadableFiles t files)

variable {t : FileTree} {root : Path} {kind : CheckKind} {issues issues' : List Issue}
variable {files files' : List Path}

namespace Issue.ReportsFile

variable {i : Issue} {u : UnreadableFile} {names : List Text}

/-- An issue that names a file by its label. -/
theorem of_label (hseverity : i.severity = .must)
    (hreason : ∃ before, i.source = some (before ++ u.fault.message.toList))
    (hspells : Path.Spells root names u.path) (hfile : i.file = some (Path.label root u.path))
    (hnamed : ¬ IsMisnamed kind names) : i.ReportsFile root kind u where
  severity := hseverity
  reason := hreason
  file := by
    refine ⟨names, hspells, iff_of_true ?_ hnamed, fun h => absurd h hnamed⟩
    rw [hfile, hspells.path, Path.label_foldl_join root hspells.isName]

/-- An issue that leaves the directory of a misnamed file out. -/
theorem of_misnamed (hseverity : i.severity = .must)
    (hreason : ∃ before, i.source = some (before ++ u.fault.message.toList))
    (hspells : Path.Spells root names u.path) (hmisnamed : IsMisnamed kind names)
    (hfile : i.file = some (List.intercalate ['/'] ("skills".toList :: names.drop 2))) :
    i.ReportsFile root kind u where
  severity := hseverity
  reason := hreason
  file := by
    refine ⟨names, hspells, iff_of_false ?_ (not_not_intro hmisnamed), fun _ => hfile⟩
    obtain ⟨-, rest, rfl, -⟩ := hmisnamed
    have hshort : ∀ name ∈ "skills".toList :: rest, Path.IsName name := fun name hname =>
      hspells.isName name (by simp at hname ⊢; tauto)
    rw [hfile, Option.some.injEq, List.drop_succ_cons, List.drop_succ_cons, List.drop_zero,
      ← Path.label_foldl_join root hshort, ← Path.label_foldl_join root hspells.isName]
    intro hsame
    have hnames := Path.eq_of_label_foldl_join root hshort hspells.isName (by simp) (by simp) hsame
    simpa using congrArg List.length hnames

theorem stamp (h : i.ReportsFile root kind u) (checked : CheckKind) :
    (i.stamp checked).ReportsFile root kind u :=
  ⟨h.severity, h.reason, h.file⟩

end Issue.ReportsFile

/-! ## Reports in a row -/

theorem reports_nil : Reports t root kind [] [] := .nil

theorem reports_of_none (h : ∀ i ∈ issues, ¬ i.SaysUnreadable) :
    Reports t root kind issues [] := by
  have hnone : (issues.filter fun i => i.SaysUnreadable) = [] :=
    List.filter_eq_nil_iff.mpr fun i hi => by simp [h i hi]
  rw [Reports, hnone]
  exact .nil

theorem reports_of_isPlain {i : Issue} (h : i.IsPlain) : Reports t root kind [i] [] :=
  reports_of_none fun _ hi => List.mem_singleton.mp hi ▸ h.not_saysUnreadable

namespace Reports

theorem append (h : Reports t root kind issues files) (h' : Reports t root kind issues' files') :
    Reports t root kind (issues ++ issues') (files ++ files') := by
  rw [Reports, List.filter_append, unreadableFiles, List.filterMap_append]
  exact List.rel_append h h'

theorem flatMap {α : Type} {l : List α} {rules : α → List Issue} {reads : α → List Path}
    (h : ∀ a ∈ l, Reports t root kind (rules a) (reads a)) :
    Reports t root kind (l.flatMap rules) (l.flatMap reads) := by
  induction l with
  | nil => exact .nil
  | cons a rest ih =>
    obtain ⟨ha, hrest⟩ := List.forall_mem_cons.mp h
    exact ha.append (ih hrest)

/-- Issues that cannot be about unreadable files may stand before and behind. -/
theorem of_plain_append (h : ∀ i ∈ issues', ¬ i.SaysUnreadable)
    (hreports : Reports t root kind issues files) : Reports t root kind (issues' ++ issues) files :=
  (reports_of_none h).append hreports

theorem append_of_plain (hreports : Reports t root kind issues files)
    (h : ∀ i ∈ issues', ¬ i.SaysUnreadable) : Reports t root kind (issues ++ issues') files := by
  simpa using hreports.append (reports_of_none h)

/-- A result keeps what says that a file cannot be read. -/
theorem kept (h : Reports t root kind issues files) (checked : CheckKind) (verbose : Bool) :
    Reports t root kind (Check.kept checked verbose issues) files := by
  have hmust : ∀ i ∈ issues.filter fun i => i.SaysUnreadable, i.severity = .must :=
    ((List.forall₂_and_left _ _).mp (h.imp fun _ _ hi => ⟨hi.severity, hi⟩)).1
  have hkept : (Check.kept checked verbose issues).filter (fun i => i.SaysUnreadable) =
      (issues.filter fun i => i.SaysUnreadable).map (Issue.stamp checked) := by
    rw [Check.kept, List.filter_map]
    refine congrArg (List.map _) ((List.filter_comm _ _ _).trans ?_)
    refine List.filter_eq_self.mpr fun i hi => ?_
    rw [hmust i hi]
    simp
  rw [Reports, hkept, List.forall₂_map_left_iff]
  exact h.imp fun _ _ hi => hi.stamp checked

end Reports

/-! ## One file -/

theorem unreadableFiles_of_error {p : Path} {fault : Fault} (h : t.readText p = .error fault) :
    unreadableFiles t [p] = [⟨p, target t p, fault⟩] := by
  simp [unreadableFiles, unreadable?, h]

theorem unreadableFiles_of_ok {p : Path} {text : Text} (h : t.readText p = .ok text) :
    unreadableFiles t [p] = [] := by
  simp [unreadableFiles, unreadable?, h]

/-- The issue on a file that was read. -/
theorem reports_of_error {p : Path} {fault : Fault} {i : Issue} (h : t.readText p = .error fault)
    (hmessage : i.SaysUnreadable) (hi : i.ReportsFile root kind ⟨p, target t p, fault⟩) :
    Reports t root kind [i] [p] := by
  rw [Reports, unreadableFiles_of_error h, List.filter_singleton, decide_eq_true hmessage]
  exact .cons hi .nil

theorem reports_of_ok {p : Path} {text : Text} (h : t.readText p = .ok text)
    (hissues : ∀ i ∈ issues, ¬ i.SaysUnreadable) : Reports t root kind issues [p] := by
  have hnone : Reports t root kind issues [] := reports_of_none hissues
  rwa [Reports, unreadableFiles_of_ok h]

/-! ## Components -/

/-- The names that lead to a component, and what it holds. -/
structure Component.IsReadAt (c : Component) (t : FileTree) (root : Path) (names : List Text) :
    Prop where
  spells : Path.Spells root names c.path
  label : c.label = Path.label root c.path
  content : c.content = t.readText c.path

theorem exists_isReadAt_of_mem_flatDocuments (h : t.WellNamed) {of : ComponentKind} {c : Component}
    (hc : c ∈ flatDocuments t root of) :
    ∃ name, c.IsReadAt t root [of.directory.toList, name] := by
  obtain ⟨entry, hentry, rfl⟩ := List.mem_map.mp hc
  obtain ⟨hname, hpath⟩ := h.isName_of_mem_entries (List.mem_of_mem_filter hentry)
  refine ⟨entry.name, ⟨?_, by simp, ?_⟩, rfl, rfl⟩
  · simpa using ⟨of.isName_directory, hname⟩
  · exact hpath

theorem exists_isReadAt_of_mem_skills (h : t.WellNamed) {c : Component}
    (hc : c ∈ (discover t root).skills) : ∃ name, Path.IsName name ∧
      c.IsReadAt t root ["skills".toList, name, skillEntry.toList] ∧
      c.label = "skills/".toList ++ name ++ "/SKILL.md".toList ∧
      c.skillDirectory? = some (skillPath root name) := by
  rw [skills_eq_map] at hc
  obtain ⟨name, hname, rfl⟩ := List.mem_map.mp hc
  have hisName := isName_of_mem_skillNames h (List.mem_of_mem_filter hname)
  refine ⟨name, hisName, ⟨⟨?_, by simp, rfl⟩, rfl, rfl⟩, label_entryPath hisName,
    parent?_entryPath hisName⟩
  simpa using ⟨by decide, hisName, by decide⟩

theorem exists_isReadAt_of_mem (h : t.WellNamed) {c : Component}
    (hc : c ∈ (discover t root).toList) : ∃ names, c.IsReadAt t root names := by
  simp only [Components.toList, List.mem_append] at hc
  rcases hc with (hcommand | hagent) | hskill
  · obtain ⟨name, hread⟩ := exists_isReadAt_of_mem_flatDocuments h hcommand
    exact ⟨_, hread⟩
  · obtain ⟨name, hread⟩ := exists_isReadAt_of_mem_flatDocuments h hagent
    exact ⟨_, hread⟩
  · obtain ⟨name, -, hread, -⟩ := exists_isReadAt_of_mem_skills h hskill
    exact ⟨_, hread⟩

/-- A component whose document cannot be read is reported, and nothing else of it. -/
theorem reports_component {c : Component} {names : List Text} {rules : Text → List Issue}
    (hread : c.IsReadAt t root names) (hnamed : ¬ IsMisnamed kind names)
    (hrules : ∀ text, ∀ i ∈ rules text, ¬ i.SaysUnreadable) :
    Reports t root kind (match c.content with
      | .error fault => [c.cannotRead fault]
      | .ok text => rules text) [c.path] := by
  have hcontent := hread.content
  cases hc : c.content with
  | error fault =>
    exact reports_of_error (hcontent.symm.trans hc) rfl
      (.of_label rfl ⟨_, rfl⟩ hread.spells (congrArg some hread.label) hnamed)
  | ok text => exact reports_of_ok (hcontent.symm.trans hc) (hrules text)

/-! ## The checks on single components -/

theorem FrontmatterCheck.not_saysUnreadable_documentRules {of : ComponentKind} {file text : Text}
    {i : Issue} (h : i ∈ documentRules of file text) : ¬ i.SaysUnreadable := by
  simp only [documentRules] at h
  split at h
  · obtain rfl := List.mem_singleton.mp h
    exact isPlain_headerMissing.not_saysUnreadable
  · rcases List.mem_append.mp h with htab | hfields
    · exact (pointsAtLine_of_mem_tabRule htab).not_saysUnreadable
    · cases of with
      | command => exact (isPlain_commandRules hfields).not_saysUnreadable
      | agent => exact (isPlain_agentRules hfields).not_saysUnreadable
      | skill =>
        rcases List.mem_append.mp hfields with hheader | hvoice
        · exact (isPlain_skillFields hheader).not_saysUnreadable
        · exact (pointsAtLine_of_mem_voiceRule hvoice).not_saysUnreadable

theorem ToolsCheck.not_saysUnreadable_documentRules {file text : Text} {i : Issue}
    (h : i ∈ documentRules file text) : ¬ i.SaysUnreadable := by
  rcases List.mem_append.mp h with hprose | hshell
  · obtain ⟨p, -, hplaced⟩ := List.mem_flatMap.mp hprose
    exact (pointsAtLine_of_mem_placedIssues hplaced).not_saysUnreadable
  · exact (isPlain_shellRule hshell).not_saysUnreadable

section Checks

variable (h : t.WellNamed)
include h

/-- A check that goes through the components one by one. -/
theorem reports_components {rules : Component → Text → List Issue} (hkind : kind ≠ .tokens)
    (hrules : ∀ c text, ∀ i ∈ rules c text, ¬ i.SaysUnreadable) :
    Reports t root kind
      ((discover t root).toList.flatMap fun c => match c.content with
        | .error fault => [c.cannotRead fault]
        | .ok text => rules c text)
      ((discover t root).toList.map (·.path)) := by
  rw [List.map_eq_flatMap]
  refine Reports.flatMap fun c hc => ?_
  obtain ⟨names, hread⟩ := exists_isReadAt_of_mem h hc
  exact reports_component hread (not_isMisnamed hkind names) (hrules c)

end Checks

/-! ## The structure check -/

/-- Where a file with a fixed name below the root lies. -/
theorem exists_spells_scriptConfig (root : Path) {file : String}
    (hfile : file ∈ StructureCheck.scriptConfigs) : ∃ names,
      Path.Spells root names (root.join file.toList) ∧
      List.intercalate ['/'] names = file.toList := by
  rcases List.mem_pair.mp hfile with rfl | rfl
  · refine ⟨["hooks".toList, "hooks.json".toList], ⟨by decide, by decide, ?_⟩, by decide⟩
    have hdirectory : Path.IsName "hooks".toList := by decide
    have hfile : "hooks.json".toList.head? ≠ some '/' := by decide
    exact (Path.join_join root hdirectory.unslashed hfile).symm
  · exact ⟨[".mcp.json".toList], Path.spells_join root (by decide), by decide⟩

section Structure

variable (limits : Limits) (counter : Counter) (verbose : Bool)

theorem reports_scriptConfig {file : String} (hfile : file ∈ StructureCheck.scriptConfigs) :
    Reports t root .layout
      (StructureCheck.scriptConfig (Subject.ofRoot t root limits counter verbose) file.toList)
      (fileAt t (root.join file.toList)) := by
  have hoptional : (Subject.ofRoot t root limits counter verbose).tree.readOptional
      ((Subject.ofRoot t root limits counter verbose).root.join file.toList) =
        if t.isFile (root.join file.toList) then (t.readText (root.join file.toList)).map some
        else .ok none := rfl
  obtain ⟨names, hspells, hnames⟩ := exists_spells_scriptConfig root hfile
  unfold StructureCheck.scriptConfig fileAt
  rw [hoptional]
  split_ifs with hexists
  · cases hread : t.readText (root.join file.toList) with
    | error fault =>
      refine reports_of_error hread rfl
        (.of_label rfl ⟨_, rfl⟩ hspells ?_ (not_isMisnamed (by decide) names))
      rw [hspells.path, Path.label_foldl_join root hspells.isName, hnames]
      rfl
    | ok text =>
      exact reports_of_ok hread fun _ hi =>
        (StructureCheck.pointsAtLine_of_mem_scriptPaths hi).not_saysUnreadable
  · exact reports_nil

/-- Of all that is found in a layout only the rule on script paths reads files. -/
theorem reports_layout : Reports t root .layout
    (StructureCheck.layout (Subject.ofRoot t root limits counter verbose))
    (StructureCheck.scriptConfigs.flatMap fun file => fileAt t (root.join file.toList)) := by
  have hscripts : Reports t root .layout
      (StructureCheck.scriptConfigs.flatMap fun file => StructureCheck.scriptConfig
        (Subject.ofRoot t root limits counter verbose) file.toList)
      (StructureCheck.scriptConfigs.flatMap fun file => fileAt t (root.join file.toList)) :=
    Reports.flatMap fun file hfile => reports_scriptConfig limits counter verbose hfile
  refine ((hscripts.of_plain_append ?before).append_of_plain ?generic).append_of_plain ?readme
  case before =>
    simp only [List.mem_append, List.mem_flatMap, List.mem_singleton]
    rintro i (((rfl | ⟨_, -, hi⟩) | ⟨_, -, hi⟩) | ⟨_, -, hi⟩)
    · exact StructureCheck.isPlain_manifestFound.not_saysUnreadable
    · exact (StructureCheck.isPlain_misplaced hi).not_saysUnreadable
    · exact (StructureCheck.isPlain_naming hi).not_saysUnreadable
    · exact (StructureCheck.isPlain_entryMissing hi).not_saysUnreadable
  case generic =>
    intro i hi
    obtain ⟨_, -, hi⟩ := List.mem_flatMap.mp hi
    exact (StructureCheck.isPlain_generic hi).not_saysUnreadable
  case readme => exact fun i hi => (StructureCheck.isPlain_readmeMissing hi).not_saysUnreadable

theorem reports_structure : Reports t root .layout
    (StructureCheck.inspect (Subject.ofRoot t root limits counter verbose)).issues
    (filesRead t root .layout) := by
  have hsource : (Subject.ofRoot t root limits counter verbose).manifest =
      ManifestSource.load t root := rfl
  unfold StructureCheck.inspect filesRead
  rw [hsource]
  by_cases hfile : t.isFile (manifestPath root) = true
  · simp only [ManifestSource.isMissing_load hfile, hfile, Bool.false_eq_true, if_false, if_true]
    exact reports_layout limits counter verbose
  · have hmissing : (ManifestSource.load t root).isMissing = true := by
      simp [ManifestSource.load, hfile, ManifestSource.isMissing]
    simp only [hmissing, hfile, if_true]
    exact reports_of_isPlain StructureCheck.isPlain_manifestMissing

end Structure

/-! ## The manifest check -/

theorem spells_manifestPath (root : Path) :
    Path.Spells root [manifestDirectory.toList, "plugin.json".toList] (manifestPath root) :=
  ⟨by decide, by simp, rfl⟩

/-- A manifest is missing, cannot be read, or is read and then either loaded or not. -/
theorem ManifestSource.load_cases (t : FileTree) (root : Path) :
    (t.isFile (manifestPath root) = false ∧ load t root = .missing) ∨
    (t.isFile (manifestPath root) = true ∧ ∃ fault,
      t.readText (manifestPath root) = .error fault ∧ load t root = .unreadable fault) ∨
    (t.isFile (manifestPath root) = true ∧ ∃ raw, t.readText (manifestPath root) = .ok raw ∧
      ((∃ e, load t root = .invalid e) ∨ ∃ m, load t root = .loaded m)) := by
  cases hfile : t.isFile (manifestPath root) with
  | false => exact .inl ⟨rfl, by simp [load, hfile]⟩
  | true =>
    right
    cases hread : t.readText (manifestPath root) with
    | error fault => exact .inl ⟨rfl, fault, rfl, by simp [load, hfile, hread]⟩
    | ok raw =>
      have hload : load t root = parse raw := by simp [load, hfile, hread]
      refine .inr ⟨rfl, raw, rfl, ?_⟩
      rw [hload, parse]
      split
      · exact .inr ⟨_, rfl⟩
      · exact .inl ⟨_, rfl⟩
      · exact .inl ⟨_, rfl⟩

section Manifest

variable (h : t.WellNamed) (limits : Limits) (counter : Counter) (verbose : Bool)
include h

theorem reports_skillRule {skill : Component} (hskill : skill ∈ (discover t root).skills)
    (declared : List Text) : Reports t root .manifest (ManifestCheck.skillRule declared skill)
      (if declared.contains (ManifestCheck.declaredPath skill) then [] else [skill.path]) := by
  obtain ⟨name, -, hread, -⟩ := exists_isReadAt_of_mem_skills h hskill
  unfold ManifestCheck.skillRule
  split_ifs
  · exact reports_nil
  · refine reports_component hread (not_isMisnamed (by decide) _) fun text i hi => ?_
    simp only [List.mem_ite_nil_right, List.mem_singleton] at hi
    obtain ⟨-, rfl⟩ := hi
    exact (ManifestCheck.isPlain_undeclared skill _).not_saysUnreadable

theorem reports_commandsRule (m : Manifest) : Reports t root .manifest
    (ManifestCheck.commandsRule (Subject.ofRoot t root limits counter verbose) m)
    (undeclaredEntries t root m) := by
  unfold ManifestCheck.commandsRule undeclaredEntries
  cases m.commands with
  | none => exact reports_nil
  | some commands =>
    cases commands with
    | notArray value =>
      refine reports_of_isPlain (ManifestCheck.isPlain_of_start ?_)
      simp [ManifestCheck.messageStarts]
    | entries listed =>
      cases listed with
      | nil =>
        refine reports_of_isPlain (ManifestCheck.isPlain_of_start ?_)
        simp [ManifestCheck.messageStarts]
      | cons entry rest =>
        refine Reports.of_plain_append (fun i hi => ?_)
          (Reports.flatMap fun skill hskill => reports_skillRule h hskill m.commandPaths)
        obtain ⟨_, -, rfl⟩ := List.mem_map.mp hi
        exact (ManifestCheck.isPlain_of_start
          (ManifestCheck.mem_messageStarts (ManifestCheck.start_entryRule _))).not_saysUnreadable

theorem reports_fields (m : Manifest) : Reports t root .manifest
    (ManifestCheck.fields (Subject.ofRoot t root limits counter verbose) m)
    (undeclaredEntries t root m) :=
  (reports_commandsRule h limits counter verbose m).of_plain_append fun _ hi =>
    (ManifestCheck.isPlain_of_start (ManifestCheck.start_of_mem_fieldRules hi)).not_saysUnreadable

theorem reports_manifest : Reports t root .manifest
    (ManifestCheck.inspect (Subject.ofRoot t root limits counter verbose)).issues
    (filesRead t root .manifest) := by
  have hsource : (Subject.ofRoot t root limits counter verbose).manifest =
      ManifestSource.load t root := rfl
  rw [filesRead, fileAt, ManifestCheck.inspect, hsource]
  rcases ManifestSource.load_cases t root with ⟨hfile, hload⟩ | ⟨hfile, fault, hread, hload⟩ |
    ⟨hfile, raw, hread, hparsed⟩
  · rw [hload, hfile]
    exact reports_of_isPlain ManifestCheck.isPlain_missing
  · have hspells := spells_manifestPath root
    rw [hload, hfile]
    refine reports_of_error hread rfl
      (.of_label rfl ⟨[], rfl⟩ hspells ?_ (not_isMisnamed (by decide) _))
    rw [hspells.path, Path.label_foldl_join root hspells.isName]
    exact congrArg some (by decide)
  · have hmanifest : Reports t root .manifest [] [manifestPath root] :=
      reports_of_ok hread (List.forall_mem_nil _)
    rw [hfile]
    rcases hparsed with ⟨e, hload⟩ | ⟨m, hload⟩
    · rw [hload]
      exact hmanifest.append (reports_of_isPlain (ManifestCheck.isPlain_invalid rfl _))
    · rw [hload]
      exact hmanifest.append (reports_fields h limits counter verbose m)

end Manifest

/-! ## The tokens check -/

namespace TokensCheck

theorem trimEntry_append_entry (file : Text) :
    trimEntry (file ++ "/SKILL.md".toList) = trimEntry file := by
  have hmark : "/SKILL.md".toList.reverse = ['d', 'm', '.', 'L', 'L', 'I', 'K', 'S', '/'] := by
    decide
  rw [trimEntry, List.reverse_append, hmark]
  rfl

/-- Text that does not end like the path of an entry document is left alone. -/
theorem trimEntry_of_not_suffix {file : Text} (h : ¬ "/SKILL.md".toList <:+ file) :
    trimEntry file = file := by
  have hleft : trimReversedEntry file.reverse = file.reverse := by
    unfold trimReversedEntry
    split
    · next rest hreversed =>
      refine absurd ?_ h
      rw [← List.reverse_prefix, hreversed]
      exact ⟨rest, rfl⟩
    · rfl
  rw [trimEntry, hleft, List.reverse_reverse]

/-- A name ends a path like an entry document when it is one. -/
theorem suffix_append_name_iff {name : Text} (h : Path.IsName name) (front : Text) :
    "/SKILL.md".toList <:+ front ++ '/' :: name ↔ name = skillEntry.toList := by
  have hname : name.splitOn '/' = [name] := List.splitOn_eq_singleton h.2.1
  have hentry : skillEntry.toList.splitOn '/' = [skillEntry.toList] := by decide
  constructor
  · rintro ⟨before, hbefore⟩
    have hpieces := congrArg (fun s : Text => (s.splitOn '/').getLast?) hbefore
    have hslash : before ++ "/SKILL.md".toList = before ++ '/' :: skillEntry.toList := rfl
    simp only [hslash, List.splitOn_append_cons_self, hname, hentry,
      List.getLast?_concat] at hpieces
    exact (Option.some.inj hpieces).symm
  · rintro rfl
    exact List.suffix_append front _

/-- What is left of the label of an entry document: the label of its directory, unless that is
called like an entry document. -/
theorem trimEntry_skill {name : Text} (h : Path.IsName name) :
    trimEntry ("skills/".toList ++ name ++ "/SKILL.md".toList) =
      if name = skillEntry.toList then "skills".toList else "skills/".toList ++ name := by
  have hlabel : "skills/".toList ++ name = "skills".toList ++ '/' :: name := rfl
  rw [trimEntry_append_entry, hlabel]
  split_ifs with hentry
  · rw [hentry]
    decide
  · exact trimEntry_of_not_suffix fun hsuffix => hentry ((suffix_append_name_iff h _).mp hsuffix)

end TokensCheck

/-- The files of a skill lie below its directory, and none of them is its entry document. -/
theorem exists_spells_of_mem_files (h : t.WellNamed) {directory p : Path}
    (hp : p ∈ referenceFiles t directory ++ scriptFiles t directory) :
    ∃ names, names ≠ [skillEntry.toList] ∧ Path.Spells directory names p := by
  rcases List.mem_append.mp hp with hreference | hscript
  · rw [referenceFiles_eq] at hreference
    rcases List.mem_append.mp ((distinctTargets_sublist [] _).subset hreference) with
      hnested | hsibling
    · obtain ⟨relative, hne, hspells⟩ :=
        spells_of_mem_filesBelow h (by decide) (List.mem_of_mem_filter hnested)
      exact ⟨_, fun hsame => hne (List.cons.inj hsame).2, hspells⟩
    · obtain ⟨name, hname, hspells⟩ := spells_of_mem_siblingReferences h hsibling
      exact ⟨_, fun hsame => hname (List.cons.inj hsame).1, hspells⟩
  · obtain ⟨relative, hne, hspells⟩ :=
      spells_of_mem_filesBelow h (by decide) (List.mem_of_mem_filter hscript)
    exact ⟨_, fun hsame => hne (List.cons.inj hsame).2, hspells⟩

/-- The issue on a file of a skill. Only a skill directory that is called like an entry document is
left out. -/
theorem reportsFile_of_skill {name : Text} {names : List Text} {u : UnreadableFile}
    (hname : Path.IsName name) (hspells : Path.Spells (skillPath root name) names u.path)
    (hentry : names ≠ [skillEntry.toList]) :
    (Issue.cannotRead
      (TokensCheck.trimEntry ("skills/".toList ++ name ++ "/SKILL.md".toList) ++
        '/' :: Path.label (skillPath root name) u.path)
      u.fault.message.toList).ReportsFile root .tokens u := by
  have hbelow : Path.Spells root ("skills".toList :: name :: names) u.path := by
    refine ⟨?_, by simp, hspells.path⟩
    exact List.forall_mem_cons.mpr ⟨by decide, List.forall_mem_cons.mpr ⟨hname, hspells.isName⟩⟩
  have hlabel : Path.label (skillPath root name) u.path = List.intercalate ['/'] names := by
    rw [hspells.path, Path.label_foldl_join _ hspells.isName]
  rw [TokensCheck.trimEntry_skill hname, hlabel]
  split_ifs with hsame
  · refine .of_misnamed rfl ⟨[], rfl⟩ hbelow ⟨rfl, names, by rw [hsame], hentry⟩ ?_
    rw [List.drop_succ_cons, List.drop_succ_cons, List.drop_zero,
      List.intercalate_cons_of_ne_nil hspells.below]
    rfl
  · refine .of_label rfl ⟨[], rfl⟩ hbelow ?_ ?_
    · rw [hbelow.path, Path.label_foldl_join root hbelow.isName,
        List.intercalate_cons_of_ne_nil (List.cons_ne_nil _ _),
        List.intercalate_cons_of_ne_nil hspells.below]
      simp [Issue.cannotRead]
    · rintro ⟨-, rest, hnames, -⟩
      exact hsame (List.cons.inj (List.cons.inj hnames).2).1

section Tokens

variable (h : t.WellNamed) (limits : Limits) (counter : Counter) (verbose : Bool)
include h

theorem reports_readRules {name : Text} (hname : Path.IsName name) (entry : Text) :
    Reports t root .tokens
      (TokensCheck.readRules ("skills/".toList ++ name ++ "/SKILL.md".toList)
        (analyze t (skillPath root name) entry counter limits))
      (referenceFiles t (skillPath root name) ++ scriptFiles t (skillPath root name)) := by
  have hunreadable : (analyze t (skillPath root name) entry counter limits).unreadable =
      (unreadableFiles t (referenceFiles t (skillPath root name) ++
        scriptFiles t (skillPath root name))).map fun u =>
          (Path.label (skillPath root name) u.path, u.fault) := by
    rw [unreadableFiles, List.filterMap_append, List.map_append]
    exact congrArg₂ _ (measure_unreadable ..) (measure_unreadable ..)
  have hall : (TokensCheck.readRules ("skills/".toList ++ name ++ "/SKILL.md".toList)
      (analyze t (skillPath root name) entry counter limits)).filter (fun i => i.SaysUnreadable) =
      TokensCheck.readRules ("skills/".toList ++ name ++ "/SKILL.md".toList)
        (analyze t (skillPath root name) entry counter limits) := by
    refine List.filter_eq_self.mpr fun i hi => ?_
    exact decide_eq_true (TokensCheck.saysUnreadable_of_mem_readRules hi)
  rw [Reports, hall, TokensCheck.readRules, hunreadable, List.map_map, List.forall₂_map_left_iff,
    List.forall₂_same]
  intro u hu
  obtain ⟨names, hentry, hspells⟩ :=
    exists_spells_of_mem_files h (mem_unreadableFiles_iff.mp hu).1
  exact reportsFile_of_skill hname hspells hentry

theorem reports_budgetRules {name : Text} (hname : Path.IsName name) (entry : Text) :
    Reports t root .tokens
      (TokensCheck.budgetRules ("skills/".toList ++ name ++ "/SKILL.md".toList)
        (analyze t (skillPath root name) entry counter limits) limits verbose)
      (referenceFiles t (skillPath root name) ++ scriptFiles t (skillPath root name)) := by
  refine ((reports_readRules h limits counter hname entry).of_plain_append ?before).append_of_plain
    ?breakdown
  case before =>
    intro i hi
    rcases List.mem_append.mp hi with hbody | hmetadata
    · obtain rfl := List.mem_singleton.mp hbody
      exact (TokensCheck.isPlain_bodyRule _ _).not_saysUnreadable
    · exact (TokensCheck.isPlain_metadataRule hmetadata).not_saysUnreadable
  case breakdown =>
    intro i hi
    obtain ⟨-, hbreakdown⟩ := List.mem_ite_nil_right.mp hi
    exact (TokensCheck.isPlain_breakdown hbreakdown).not_saysUnreadable

theorem reports_skillRules {skill : Component} (hskill : skill ∈ (discover t root).skills) :
    Reports t root .tokens
      (TokensCheck.skillRules (Subject.ofRoot t root limits counter verbose) skill)
      (skill.path :: skillFiles t skill) := by
  obtain ⟨name, hname, hread, hlabel, hdirectory⟩ := exists_isReadAt_of_mem_skills h hskill
  have hentry : ¬ IsMisnamed .tokens ["skills".toList, name, skillEntry.toList] := by
    rintro ⟨-, rest, hnames, hrest⟩
    exact hrest (List.cons.inj (List.cons.inj hnames).2).2.symm
  have hcontent := hread.content
  unfold TokensCheck.skillRules skillFiles
  cases hc : skill.content with
  | error fault =>
    refine reports_of_error (hcontent.symm.trans hc) rfl
      (.of_label rfl ⟨_, rfl⟩ hread.spells ?_ hentry)
    exact congrArg some hread.label
  | ok entry =>
    have hbudget : TokensCheck.budget? (Subject.ofRoot t root limits counter verbose) skill =
        some (analyze t (skillPath root name) entry counter limits) := by
      simp only [TokensCheck.budget?, hc, hdirectory]
      rfl
    have hdocument : Reports t root .tokens [] [skill.path] :=
      reports_of_ok (hcontent.symm.trans hc) (List.forall_mem_nil _)
    simp only [hbudget, hdirectory, hlabel]
    exact hdocument.append (reports_budgetRules h limits counter verbose hname entry)

theorem reports_tokens : Reports t root .tokens
    (TokensCheck.inspect (Subject.ofRoot t root limits counter verbose)).issues
    (filesRead t root .tokens) := by
  rw [filesRead]
  by_cases hskills : (discover t root).skills = []
  · rw [hskills, List.flatMap_nil]
    cases hdirectory : t.isDirectory (kindDirectory root .skill) with
    | false =>
      rw [TokensCheck.inspect_of_no_directory hdirectory]
      exact reports_of_isPlain TokensCheck.isPlain_noDirectory
    | true =>
      rw [TokensCheck.inspect_of_no_skills hdirectory hskills]
      exact reports_of_isPlain TokensCheck.isPlain_noSkills
  · obtain ⟨skill, hskill⟩ := List.exists_mem_of_ne_nil _ hskills
    have hinspect := @TokensCheck.inspect_of_skills (Subject.ofRoot t root limits counter verbose)
      (isDirectory_of_mem_skills hskill) hskills
    rw [hinspect]
    exact Reports.flatMap fun skill hskill => reports_skillRules h limits counter verbose hskill

end Tokens

/-! ## Runs -/

/-- What a built-in check finds reports on the files that it reads. -/
theorem reports_builtinCheck (h : t.WellNamed) (limits : Limits) (counter : Counter)
    (verbose : Bool) (kind : CheckKind) : Reports t root kind
      ((builtinCheck kind).inspect (Subject.ofRoot t root limits counter verbose)).issues
      (filesRead t root kind) := by
  cases kind with
  | layout => exact reports_structure limits counter verbose
  | manifest => exact reports_manifest h limits counter verbose
  | frontmatter =>
    exact reports_components h (by decide) fun _ _ _ =>
      FrontmatterCheck.not_saysUnreadable_documentRules
  | tools =>
    exact reports_components h (by decide) fun _ _ _ => ToolsCheck.not_saysUnreadable_documentRules
  | tokens => exact reports_tokens h limits counter verbose

/-- In the report of a run, whatever its selection, budget and plugin, a check says of every file
that it could not read, once and in the order in which it reads them, that it cannot be read and
why. It names the file by the names that lead to it from the root, but for one case: what lies in a
skill directory called like an entry document, apart from the entry document in it, the tokens check
places beside that directory. -/
theorem unreadable_files_reported (t : FileTree) (root : Path) (limits : Limits)
    (counter : Counter) (verbose : Bool) (kinds : List CheckKind) (hnames : t.WellNamed) :
    ∀ r ∈ (((Engine.standard limits verbose).select kinds).validate t root counter).results,
      List.Forall₂ (fun i u => i.ReportsFile root r.check u)
        (r.issues.filter fun i => i.SaysUnreadable)
        (unreadableFiles t (filesRead t root r.check)) := by
  intro r hr
  obtain ⟨kind, -, rfl⟩ := Engine.mem_results_iff.mp hr
  have hcheck : ((builtinCheck kind).run (Subject.ofRoot t root limits counter verbose)).check =
      kind := (Check.record_check _ _ _).trans (kind_builtinCheck kind)
  rw [hcheck, Check.issues_run]
  exact (reports_builtinCheck hnames limits counter verbose kind).kept _ _

/-- A skill whose directory is called like an entry document. -/
def misnamedSkill : Component :=
  ⟨.skill, ⟨"/p/skills/SKILL.md/SKILL.md".toList⟩, "skills/SKILL.md/SKILL.md".toList,
    .ok "---\nname: b\n---\nbody\n".toList⟩

/-- A plugin with a skill directory that is called like an entry document. In it and in the
directory of another skill lies a file that cannot be read. -/
def misnamedPlugin : FileTree where
  nodes :=
    [(["p".toList], .directory),
      (["p".toList, "skills".toList], .directory),
      (["p".toList, "skills".toList, skillEntry.toList], .directory),
      (["p".toList, "skills".toList, skillEntry.toList, skillEntry.toList],
        .file (.text "---\nname: b\n---\nbody\n".toList)),
      (["p".toList, "skills".toList, skillEntry.toList, "references".toList], .directory),
      (["p".toList, "skills".toList, skillEntry.toList, "references".toList, "x.md".toList],
        .file .binary),
      (["p".toList, "skills".toList, "a".toList], .directory),
      (["p".toList, "skills".toList, "a".toList, skillEntry.toList],
        .file (.text "---\nname: a\n---\nbody\n".toList)),
      (["p".toList, "skills".toList, "a".toList, "x.md".toList], .file .binary)]
  base := []

theorem wellNamed_misnamedPlugin : misnamedPlugin.WellNamed := by
  unfold FileTree.WellNamed
  decide

theorem unreadableFiles_misnamedPlugin :
    (unreadableFiles misnamedPlugin (filesRead misnamedPlugin ⟨"/p".toList⟩ .tokens)).map
      (fun u => (Path.label ⟨"/p".toList⟩ u.path, u.fault)) =
    [("skills/SKILL.md/references/x.md".toList, .notText), ("skills/a/x.md".toList, .notText)] := by
  simp only [filesRead, skillFiles, discover, skillDocuments, skillDirectories, referenceFiles,
    scriptFiles, FileTree.filesBelow, FileTree.below, FileTree.entries, FileTree.names,
    FileTree.mergeSort_inOrder]
  decide +kernel

theorem exists_result_misnamedPlugin :
    ∃ r ∈ (((Engine.standard .standard false).select [.tokens]).validate misnamedPlugin
        ⟨"/p".toList⟩ .approximate).results, r.check = .tokens ∧
      r = tokensCheck.run
        (Subject.ofRoot misnamedPlugin ⟨"/p".toList⟩ .standard .approximate false) :=
  ⟨_, Engine.mem_results_iff.mpr ⟨.tokens, by decide, rfl⟩, Check.record_check _ _ _, rfl⟩

def misnamedIssue : Issue :=
  (Issue.cannotRead "skills/references/x.md".toList Fault.notText.message.toList).stamp .tokens

/-- The label of the skill's entry document is trimmed to that of the directory of all skills. -/
theorem misnamedIssue_mem_run : misnamedIssue ∈ (tokensCheck.run
    (Subject.ofRoot misnamedPlugin ⟨"/p".toList⟩ .standard .approximate false)).issues := by
  have hfirst : (discover misnamedPlugin ⟨"/p".toList⟩).skills.head? = some misnamedSkill := by
    simp only [discover, skillDocuments, skillDirectories, FileTree.entries, FileTree.names,
      FileTree.mergeSort_inOrder]
    rfl
  have hskill : misnamedSkill ∈ (discover misnamedPlugin ⟨"/p".toList⟩).skills :=
    List.mem_of_head? hfirst
  have hfound : Issue.cannotRead "skills/references/x.md".toList Fault.notText.message.toList ∈
      TokensCheck.skillRules
        (Subject.ofRoot misnamedPlugin ⟨"/p".toList⟩ .standard .approximate false)
        misnamedSkill := by
    have hunreadable : (analyze misnamedPlugin ⟨"/p/skills/SKILL.md".toList⟩
        "---\nname: b\n---\nbody\n".toList .approximate .standard).unreadable =
          [("references/x.md".toList, .notText)] := by
      simp only [analyze, referenceFiles, scriptFiles, FileTree.filesBelow, FileTree.below,
        FileTree.entries, FileTree.names, FileTree.mergeSort_inOrder]
      decide +kernel
    refine List.mem_append_left _ (List.mem_append_right _ ?_)
    exact List.mem_map.mpr ⟨_, hunreadable ▸ List.mem_singleton_self _, by decide⟩
  have hinspect := @TokensCheck.inspect_of_skills
    (Subject.ofRoot misnamedPlugin ⟨"/p".toList⟩ .standard .approximate false)
    (isDirectory_of_mem_skills hskill) (List.ne_nil_of_mem hskill)
  rw [Check.issues_run]
  change _ ∈ Check.kept .tokens false (TokensCheck.inspect _).issues
  rw [hinspect]
  exact List.mem_map_of_mem (List.mem_filter.mpr ⟨List.mem_flatMap.mpr ⟨_, hskill, hfound⟩, rfl⟩)

theorem misnamed_and_named_files_reported :
    misnamedPlugin.WellNamed ∧
    ∃ r ∈ (((Engine.standard .standard false).select [.tokens]).validate misnamedPlugin
        ⟨"/p".toList⟩ .approximate).results,
      (unreadableFiles misnamedPlugin (filesRead misnamedPlugin ⟨"/p".toList⟩ r.check)).map
        (fun u => (Path.label ⟨"/p".toList⟩ u.path, u.fault)) =
          [("skills/SKILL.md/references/x.md".toList, .notText),
            ("skills/a/x.md".toList, .notText)] ∧
      List.Forall₂ (fun i u => i.ReportsFile ⟨"/p".toList⟩ r.check u)
        (r.issues.filter fun i => i.SaysUnreadable)
        (unreadableFiles misnamedPlugin (filesRead misnamedPlugin ⟨"/p".toList⟩ r.check)) := by
  obtain ⟨r, hr, hcheck, -⟩ := exists_result_misnamedPlugin
  refine ⟨wellNamed_misnamedPlugin, r, hr, ?_, ?_⟩
  · rw [hcheck]
    exact unreadableFiles_misnamedPlugin
  · exact unreadable_files_reported misnamedPlugin ⟨"/p".toList⟩ .standard .approximate false
      [.tokens] wellNamed_misnamedPlugin r hr

/-- The label of a file below the skill is put behind the trimmed one, so that the issue names a
file that there is none of. -/
theorem unreadable_file_misnamed :
    misnamedPlugin.WellNamed ∧ misnamedIssue.SaysUnreadable ∧
    (∃ r ∈ (((Engine.standard .standard false).select [.tokens]).validate misnamedPlugin
        ⟨"/p".toList⟩ .approximate).results, misnamedIssue ∈ r.issues) ∧
    misnamedPlugin.isFile (Path.join ⟨"/p".toList⟩ "skills/references/x.md".toList) = false ∧
    ¬ ∀ (t : FileTree) (root : Path) (limits : Limits) (counter : Counter) (verbose : Bool)
      (kinds : List CheckKind), t.WellNamed →
      ∀ r ∈ (((Engine.standard limits verbose).select kinds).validate t root counter).results,
        ∀ i ∈ r.issues, i.SaysUnreadable →
          ∃ u ∈ unreadableFiles t (filesRead t root r.check), ∃ names,
            Path.Spells root names u.path ∧ i.file = some (List.intercalate ['/'] names) := by
  obtain ⟨r, hr, hcheck, hrun⟩ := exists_result_misnamedPlugin
  have hissue : misnamedIssue ∈ r.issues := hrun ▸ misnamedIssue_mem_run
  refine ⟨wellNamed_misnamedPlugin, rfl, ⟨r, hr, hissue⟩, by decide, fun hall => ?_⟩
  obtain ⟨u, hu, names, hspells, hfile⟩ := hall misnamedPlugin ⟨"/p".toList⟩ .standard .approximate
    false [.tokens] wellNamed_misnamedPlugin r hr misnamedIssue hissue rfl
  have hlabel : Path.label ⟨"/p".toList⟩ u.path = "skills/references/x.md".toList := by
    rw [hspells.path, Path.label_foldl_join _ hspells.isName]
    exact (Option.some.inj hfile).symm
  have hlabels := List.mem_map_of_mem (f := fun u => (Path.label ⟨"/p".toList⟩ u.path, u.fault)) hu
  rw [hcheck, unreadableFiles_misnamedPlugin, hlabel] at hlabels
  have hnone : ∀ fault, ("skills/references/x.md".toList, fault) ∉
      [("skills/SKILL.md/references/x.md".toList, Fault.notText),
        ("skills/a/x.md".toList, .notText)] := by
    simp
  exact hnone u.fault hlabels

end PluginLint
