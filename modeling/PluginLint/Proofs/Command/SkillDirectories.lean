import PluginLint.Proofs.Check.Structure
import PluginLint.Proofs.Command.CriticalSkill
import PluginLint.Proofs.FileTree.Listing

/-!
# Skill directories are counted once

Discovery, the structure check and the `tokens` command each go through the subdirectories of
`skills/` and keep some of them. All three come down to one list of names
(`skillDirectories_eq_map`): the names with an entry document are the discovered skills and the
directories whose budgets are reported, the others are the issues of the structure check
(`skill_directories_discovered_or_missing`). A link back to `skills/` itself is on neither side
(`link_to_skills_counted_nowhere`).
-/
namespace PluginLint

/-- The path of the skill directory with a name. -/
def skillPath (root : Path) (name : Text) : Path := (kindDirectory root .skill).join name

/-- Whether the skill directory with a name has an entry document. -/
def hasEntry (t : FileTree) (root : Path) (name : Text) : Bool :=
  t.isFile (entryPath (skillPath root name))

/-- The names of the directories in which skills are looked for. -/
def skillNames (t : FileTree) (root : Path) : List Text :=
  t.subdirectoryNames (kindDirectory root .skill)

/-! ## Three enumerations of one list -/

section Enumerations

variable (t : FileTree) (root : Path)

theorem skillDirectories_eq_map : skillDirectories t root = (skillNames t root).map (skillPath root) :=
  t.map_path_entries (kindDirectory root .skill)

theorem skillsOf_eq_map : BudgetTarget.skillsOf t root =
    ((skillNames t root).filter (hasEntry t root)).map (skillPath root) := by
  rw [BudgetTarget.skillsOf, skillDirectories_eq_map, List.filter_map]
  rfl

theorem skills_eq_map : (discover t root).skills =
    ((skillNames t root).filter (hasEntry t root)).map fun name =>
      Component.load t root .skill (entryPath (skillPath root name)) := by
  rw [skills_eq_map_skillsOf, skillsOf_eq_map, List.map_map]
  rfl

end Enumerations

/-! ## What a skill is called -/

section Names

variable {t : FileTree} {root : Path} {name : Text} (h : Path.IsName name)
include h

theorem parts_skillPath :
    (skillPath root name).parts = root.parts ++ [.name "skills".toList, .name name] := by
  have hskills : Path.IsName ComponentKind.skill.directory.toList := by decide
  rw [skillPath, Path.parts_join _ h, kindDirectory, Path.parts_join _ hskills, List.append_assoc]
  rfl

theorem label_skillPath :
    Path.label root (skillPath root name) = "skills/".toList ++ name := by
  rw [Path.label_of_parts (parts_skillPath h)]
  simp [List.intercalate, Path.Part.text]

theorem label_entryPath : Path.label root (entryPath (skillPath root name)) =
    "skills/".toList ++ name ++ "/SKILL.md".toList := by
  have hentry : Path.IsName skillEntry.toList := by decide
  have hparts : (entryPath (skillPath root name)).parts =
      root.parts ++ [.name "skills".toList, .name name, .name skillEntry.toList] := by
    rw [entryPath, Path.parts_join _ hentry, parts_skillPath h, List.append_assoc]
    rfl
  rw [Path.label_of_parts hparts]
  simp [List.intercalate, Path.Part.text, skillEntry]

theorem parent?_entryPath : (entryPath (skillPath root name)).parent? = some (skillPath root name) :=
  Path.parent?_join _ h (by decide)

theorem name_skill :
    (Component.load t root .skill (entryPath (skillPath root name))).name = name := by
  simp only [Component.name, Component.load, parent?_entryPath h, Option.bind_some]
  rw [skillPath, Path.fileName?_join _ h]
  rfl

end Names

theorem isName_of_mem_skillNames {t : FileTree} {root : Path} (h : t.WellNamed) {name : Text}
    (hname : name ∈ skillNames t root) : Path.IsName name := by
  obtain ⟨place, location, hsub, -⟩ := FileTree.mem_subdirectoryNames_iff.mp hname
  exact h.isName hsub.isSome

/-! ## Missing entry documents -/

/-- The issue that the entry document of the skill directory with a name is missing. -/
def entryIssue (root : Path) (name : Text) : Issue :=
  { severity := .must
    message := "Missing SKILL.md".toList
    file := some (Path.label root (skillPath root name) ++ ['/'])
    suggestion := some "Create SKILL.md with frontmatter and content".toList }

theorem flatMap_entryMissing (s : Subject) (names : List Text) :
    (names.map (skillPath s.root)).flatMap (StructureCheck.entryMissing s) =
      (names.filter fun name => !hasEntry s.tree s.root name).map (entryIssue s.root) := by
  induction names with
  | nil => rfl
  | cons name rest ih =>
    have hname : StructureCheck.entryMissing s (skillPath s.root name) =
        if hasEntry s.tree s.root name = true then [] else [entryIssue s.root name] := rfl
    rw [List.map_cons, List.flatMap_cons, hname, ih, List.filter_cons]
    by_cases h : hasEntry s.tree s.root name = true
    · simp [h]
    · simp [h]

/-- With a manifest the structure check says of every name without an entry document, and of no
other, that it is missing. -/
theorem entriesMissing_of_manifest {t : FileTree} {root : Path}
    (h : t.isFile (manifestPath root) = true) (limits : Limits) (counter : Counter)
    (verbose : Bool) :
    (structureCheck.run (Subject.ofRoot t root limits counter verbose)).entriesMissing =
      ((skillNames t root).filter fun name => !hasEntry t root name).map (entryIssue root) := by
  rw [StructureCheck.entriesMissing_run _ (ManifestSource.isMissing_load h),
    skillDirectories_eq_map, flatMap_entryMissing]
  rfl

/-! ## Each directory once -/

/-- Whether a name in `skills/` stands for the directory of a skill: a subdirectory, links followed
by their whole paths, that is not `skills/` itself. A link that cannot be followed so, because it
dangles or the path is too long or leads through too many links, stands for none. -/
def IsSkillName (t : FileTree) (root : Path) (name : Text) : Prop :=
  ∃ place location, t.IsSubdirectory (kindDirectory root .skill) name place location ∧
    location ≠ place

/-- The skill directories of a plugin, by name, and what becomes of each: it is discovered or a
result of the structure check reports it. The names are shown as they are. -/
structure SkillPartition (t : FileTree) (root : Path) (result : CheckResult) (names : List Text) :
    Prop where
  increasing : names.Pairwise (· < ·)
  complete : ∀ name, name ∈ names ↔ IsSkillName t root name
  shown : ∀ name ∈ names, Path.isText ⟨name⟩ = true
  discovered : (discover t root).skills.map (·.path) =
    (names.filter (hasEntry t root)).map fun name => entryPath (skillPath root name)
  reported : result.entriesMissing.map (fun i => (i.severity, i.file)) =
    (names.filter fun name => !hasEntry t root name).map fun name =>
      (.must, some (Path.label root (skillPath root name) ++ ['/']))
  reported_once : (result.entriesMissing.map (·.file)).Nodup
  ordered : ((discover t root).skills.map (·.name)).Pairwise (· < ·)
  labelled : ((discover t root).skills.map (·.label)).Nodup

section

variable {t : FileTree} {root : Path}

theorem mem_skillNames_iff {name : Text} : name ∈ skillNames t root ↔ IsSkillName t root name :=
  FileTree.mem_subdirectoryNames_iff

theorem skillNames_pairwise : (skillNames t root).Pairwise (· < ·) :=
  t.subdirectoryNames_pairwise (kindDirectory root .skill)

theorem skillNames_nodup : (skillNames t root).Nodup := by
  refine skillNames_pairwise.imp fun {a b} hlt heq => ?_
  rw [heq] at hlt
  exact List.lt_irrefl b hlt

theorem map_name_skills (h : t.WellNamed) :
    (discover t root).skills.map (·.name) = (skillNames t root).filter (hasEntry t root) := by
  rw [skills_eq_map, List.map_map]
  refine (List.map_congr_left fun name hname => ?_).trans (List.map_id _)
  exact name_skill (isName_of_mem_skillNames h (List.mem_of_mem_filter hname))

theorem map_label_skills (h : t.WellNamed) : (discover t root).skills.map (·.label) =
    ((skillNames t root).filter (hasEntry t root)).map fun name =>
      "skills/".toList ++ name ++ "/SKILL.md".toList := by
  rw [skills_eq_map, List.map_map]
  refine List.map_congr_left fun name hname => ?_
  exact label_entryPath (isName_of_mem_skillNames h (List.mem_of_mem_filter hname))

theorem nodup_map_name_skills (h : t.WellNamed) :
    ((discover t root).skills.map (·.name)).Nodup := by
  rw [map_name_skills h]
  exact skillNames_nodup.filter _

theorem nodup_map_label_skills (h : t.WellNamed) :
    ((discover t root).skills.map (·.label)).Nodup := by
  rw [map_label_skills h]
  refine (skillNames_nodup.filter _).map fun a b hab => ?_
  exact List.append_cancel_left (List.append_cancel_right hab)

theorem map_skillDirectory?_skills (h : t.WellNamed) :
    (discover t root).skills.map (·.skillDirectory?) =
      (BudgetTarget.skillsOf t root).map some := by
  rw [skills_eq_map, skillsOf_eq_map, List.map_map, List.map_map]
  refine List.map_congr_left fun name hname => ?_
  exact parent?_entryPath (isName_of_mem_skillNames h (List.mem_of_mem_filter hname))

theorem skillPartition_skillNames (h : t.WellNamed) (htext : t.NamesAreText)
    (hmanifest : t.isFile (manifestPath root) = true)
    (limits : Limits) (counter : Counter) (verbose : Bool) :
    SkillPartition t root
      (structureCheck.run (Subject.ofRoot t root limits counter verbose)) (skillNames t root) := by
  have hmissing := entriesMissing_of_manifest hmanifest limits counter verbose
  exact {
    increasing := skillNames_pairwise
    complete := fun _ => mem_skillNames_iff
    shown := by
      intro name hname
      obtain ⟨place, location, hsub, -⟩ := mem_skillNames_iff.mp hname
      exact htext.isText hsub.isSome
    discovered := by
      rw [skills_eq_map, List.map_map]
      rfl
    reported := by
      rw [hmissing, List.map_map]
      rfl
    reported_once := by
      rw [hmissing, List.map_map]
      refine (skillNames_nodup.filter _).map_on fun a ha b hb hab => ?_
      have ha := isName_of_mem_skillNames h (List.mem_of_mem_filter ha)
      have hb := isName_of_mem_skillNames h (List.mem_of_mem_filter hb)
      have hlabel : Path.label root (skillPath root a) ++ ['/'] =
          Path.label root (skillPath root b) ++ ['/'] := Option.some.inj hab
      rw [label_skillPath ha, label_skillPath hb] at hlabel
      exact List.append_cancel_left (List.append_cancel_right hlabel)
    ordered := by
      rw [map_name_skills h]
      exact skillNames_pairwise.filter _
    labelled := nodup_map_label_skills h }

end

/-! ## Budgets -/

theorem skillsOf_of_classify {t : FileTree} {root : Path} {directories : List Path}
    (h : BudgetTarget.classify t root = .ok (.plugin directories)) :
    directories = BudgetTarget.skillsOf t root := by
  unfold BudgetTarget.classify at h
  split at h
  · cases h
  · split at h
    · cases h
    · split at h
      · cases h
      · split at h
        · cases hskills : BudgetTarget.skillsOf t root with
          | nil =>
            rw [hskills] at h
            cases h
          | cons first rest =>
            rw [hskills] at h
            exact (BudgetTarget.plugin.inj (Except.ok.inj h)).symm
        · cases h

/-- Where `tokens` finds a plugin it reports on the directories that it found. -/
theorem Surroundings.tokens_of_classify (s : Surroundings) {root : Path} {directories : List Path}
    (h : BudgetTarget.classify s.tree root = .ok (.plugin directories)) {i : Invocation}
    {outcome : Outcome} (hrun : s.tokens i root = .ok outcome) :
    ∃ settings budgets, outcome = s.budgetReport i settings budgets ∧
      budgets.map (·.path) = directories := by
  obtain ⟨target, htarget, hrun⟩ := bind_eq_ok_iff.mp hrun
  obtain ⟨settings, -, hrun⟩ := bind_eq_ok_iff.mp hrun
  obtain rfl : BudgetTarget.plugin directories = target := Except.ok.inj (h.symm.trans htarget)
  obtain ⟨budgets, hbudgets, hreport⟩ := bind_eq_ok_iff.mp hrun
  exact ⟨settings, budgets, (s.reportBudgets_eq_ok_iff.mp hreport).2.symm,
    SkillBudget.map_path_of_loads hbudgets⟩

/-- In a plugin with a manifest, whose names are text, every subdirectory of `skills/`, links
followed by their whole paths, that is not `skills/` itself either holds a discovered skill or is
reported, once and as a requirement, by the structure check. The discovered skills come in the order
of their names and have different labels. Where `tokens` finds a plugin, it reports on the
directories of the discovered skills in their order. -/
theorem skill_directories_discovered_or_missing (s : Surroundings) (root : Path) (limits : Limits)
    (counter : Counter) (verbose : Bool) (hnames : s.tree.WellNamed) (htext : s.tree.NamesAreText)
    (hmanifest : s.tree.isFile (manifestPath root) = true) :
    (∃ names, SkillPartition s.tree root
      (structureCheck.run (Subject.ofRoot s.tree root limits counter verbose)) names) ∧
    ∀ directories, BudgetTarget.classify s.tree root = .ok (.plugin directories) →
      directories.map some = (discover s.tree root).skills.map (·.skillDirectory?) ∧
      ∀ i outcome, s.tokens i root = .ok outcome →
        ∃ settings budgets, outcome = s.budgetReport i settings budgets ∧
          budgets.map (·.path) = directories := by
  refine ⟨⟨_, skillPartition_skillNames hnames htext hmanifest limits counter verbose⟩, ?_⟩
  intro directories hclassify
  constructor
  · rw [map_skillDirectory?_skills hnames, skillsOf_of_classify hclassify]
  · intro i outcome hrun
    exact s.tokens_of_classify hclassify hrun

/-- A plugin with a skill, a directory without an entry document and a link to a skill elsewhere. -/
def linkedPlugin : Surroundings where
  tree :=
    { nodes :=
        [(["p".toList], .directory), (["p".toList, manifestDirectory.toList], .directory),
          (["p".toList, manifestDirectory.toList, "plugin.json".toList], .file (.text "{ }".toList)),
          (["p".toList, "skills".toList], .directory),
          (["p".toList, "skills".toList, "a".toList], .directory),
          (["p".toList, "skills".toList, "a".toList, skillEntry.toList], .file (.text [])),
          (["p".toList, "skills".toList, "b".toList], .directory),
          (["p".toList, "skills".toList, "c".toList], .link ⟨"../shared".toList⟩),
          (["p".toList, "shared".toList], .directory),
          (["p".toList, "shared".toList, skillEntry.toList], .file .binary)]
      base := [] }
  environment := .ofVariables fun _ => none
  colors := false

theorem linkedPlugin_skills_discovered_or_missing :
    linkedPlugin.tree.WellNamed ∧ linkedPlugin.tree.NamesAreText ∧
    linkedPlugin.tree.isFile (manifestPath ⟨"/p".toList⟩) = true ∧
    (∃ names, SkillPartition linkedPlugin.tree ⟨"/p".toList⟩
      (structureCheck.run (Subject.ofRoot linkedPlugin.tree ⟨"/p".toList⟩ .standard .approximate
        false)) names) ∧
    BudgetTarget.classify linkedPlugin.tree ⟨"/p".toList⟩ =
      .ok (.plugin [⟨"/p/skills/a".toList⟩, ⟨"/p/skills/c".toList⟩]) ∧
    (discover linkedPlugin.tree ⟨"/p".toList⟩).skills.map (·.skillDirectory?) =
      [some ⟨"/p/skills/a".toList⟩, some ⟨"/p/skills/c".toList⟩] := by
  have hnamed : linkedPlugin.tree.WellNamed := by
    unfold FileTree.WellNamed
    decide
  have htext : linkedPlugin.tree.NamesAreText := by
    unfold FileTree.NamesAreText
    decide
  have hmanifest : linkedPlugin.tree.isFile (manifestPath ⟨"/p".toList⟩) = true := by decide
  have hnames : linkedPlugin.tree.names ["p".toList, "skills".toList] =
      ["a".toList, "b".toList, "c".toList] :=
    List.mergeSort_of_pairwise (l := ["a".toList, "b".toList, "c".toList]) (by decide)
  have hskills : skillNames linkedPlugin.tree ⟨"/p".toList⟩ =
      ["a".toList, "b".toList, "c".toList] := by
    have hplace : linkedPlugin.tree.locate (kindDirectory ⟨"/p".toList⟩ .skill) =
        .ok ["p".toList, "skills".toList] := by decide
    rw [skillNames, FileTree.subdirectoryNames, FileTree.entries_of_located hplace (by decide),
      hnames]
    decide
  have hclassify : BudgetTarget.classify linkedPlugin.tree ⟨"/p".toList⟩ =
      .ok (.plugin [⟨"/p/skills/a".toList⟩, ⟨"/p/skills/c".toList⟩]) := by
    have hholds : HoldsSkills linkedPlugin.tree ⟨"/p".toList⟩ :=
      ⟨by decide, by decide, by decide⟩
    have hskillsOf : BudgetTarget.skillsOf linkedPlugin.tree ⟨"/p".toList⟩ =
        [⟨"/p/skills/a".toList⟩, ⟨"/p/skills/c".toList⟩] := by
      rw [skillsOf_eq_map, hskills]
      decide
    rw [hholds.classify_eq_ok_iff, hskillsOf]
    exact ⟨by simp, rfl⟩
  obtain ⟨hpartition, htokens⟩ := skill_directories_discovered_or_missing linkedPlugin
    ⟨"/p".toList⟩ .standard .approximate false hnamed htext hmanifest
  exact ⟨hnamed, htext, hmanifest, hpartition, hclassify, (htokens _ hclassify).1.symm⟩

/-- A plugin with a link to `skills/` in `skills/`. -/
def loopedPlugin : FileTree where
  nodes :=
    [(["plugin".toList], .directory), (["plugin".toList, manifestDirectory.toList], .directory),
      (["plugin".toList, manifestDirectory.toList, "plugin.json".toList],
        .file (.text "{ }".toList)),
      (["plugin".toList, "skills".toList], .directory),
      (["plugin".toList, "skills".toList, "self".toList], .link ⟨['.']⟩)]
  base := []

/-- The link stands for a directory, yet no skill is discovered in it and no entry document is
reported as missing from it. -/
theorem link_to_skills_counted_nowhere :
    loopedPlugin.WellNamed ∧ loopedPlugin.isFile (manifestPath ⟨"plugin".toList⟩) = true ∧
    loopedPlugin.IsSubdirectory (kindDirectory ⟨"plugin".toList⟩ .skill) "self".toList
      ["plugin".toList, "skills".toList] ["plugin".toList, "skills".toList] ∧
    (discover loopedPlugin ⟨"plugin".toList⟩).skills = [] ∧
    (structureCheck.run (Subject.ofRoot loopedPlugin ⟨"plugin".toList⟩ .standard .approximate
      false)).entriesMissing = [] ∧
    ¬ ∀ (t : FileTree) (root : Path) (limits : Limits) (counter : Counter) (verbose : Bool),
      t.WellNamed → t.isFile (manifestPath root) = true → ∀ name place location,
        t.IsSubdirectory (kindDirectory root .skill) name place location →
        (∃ skill ∈ (discover t root).skills, skill.path = entryPath (skillPath root name)) ∨
        ∃ i ∈ (structureCheck.run (Subject.ofRoot t root limits counter verbose)).entriesMissing,
          i.file = some (Path.label root (skillPath root name) ++ ['/']) := by
  have hnamed : loopedPlugin.WellNamed := by
    unfold FileTree.WellNamed
    decide
  have hmanifest : loopedPlugin.isFile (manifestPath ⟨"plugin".toList⟩) = true := by decide
  have hplace : loopedPlugin.locate (kindDirectory ⟨"plugin".toList⟩ .skill) =
      .ok ["plugin".toList, "skills".toList] := by decide
  have hloop : loopedPlugin.IsSubdirectory (kindDirectory ⟨"plugin".toList⟩ .skill) "self".toList
      ["plugin".toList, "skills".toList] ["plugin".toList, "skills".toList] :=
    ⟨hplace, by decide, .inr ⟨⟨⟨['.']⟩, by decide⟩, by decide, by decide⟩⟩
  have hnames : loopedPlugin.names ["plugin".toList, "skills".toList] = ["self".toList] :=
    List.mergeSort_singleton "self".toList
  have hnone : skillNames loopedPlugin ⟨"plugin".toList⟩ = [] := by
    rw [skillNames, FileTree.subdirectoryNames, FileTree.entries_of_located hplace (by decide),
      hnames]
    decide
  have hskills : (discover loopedPlugin ⟨"plugin".toList⟩).skills = [] := by
    rw [skills_eq_map, hnone]
    rfl
  have hmissing : (structureCheck.run (Subject.ofRoot loopedPlugin ⟨"plugin".toList⟩ .standard
      .approximate false)).entriesMissing = [] := by
    rw [entriesMissing_of_manifest hmanifest, hnone]
    rfl
  refine ⟨hnamed, hmanifest, hloop, hskills, hmissing, fun hall => ?_⟩
  rcases hall _ _ .standard .approximate false hnamed hmanifest _ _ _ hloop with
    ⟨skill, hskill, -⟩ | ⟨i, hi, -⟩
  · rw [hskills] at hskill
    cases hskill
  · rw [hmissing] at hi
    cases hi

end PluginLint
