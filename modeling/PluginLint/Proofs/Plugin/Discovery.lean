import PluginLint.Proofs.Command.SkillDirectories
import PluginLint.Proofs.FileTree.Spelling
import PluginLint.Proofs.Plugin.Labels

/-!
# What discovery finds

A plugin's documents are known from names: the files of a kind in their directory
(`flatDocuments_eq_map`) and the skill directories with an entry document. The label of a document
is made of these names alone, whatever the root looks like, and two spellings of one root find the
same documents under the same labels (`labels_independent_of_spelling`).
-/
namespace PluginLint

namespace Path

/-- Names joined one by one are joined as one text with slashes between them. -/
theorem join_intercalate (p : Path) {names : List Text} (h : ∀ name ∈ names, IsName name)
    (hne : names ≠ []) : p.join (List.intercalate ['/'] names) = names.foldl join p := by
  induction names generalizing p with
  | nil => exact absurd rfl hne
  | cons name rest ih =>
    obtain ⟨hname, hrest⟩ := List.forall_mem_cons.mp h
    cases rest with
    | nil => simp [List.intercalate]
    | cons second more =>
      have hsecond : IsName second := hrest second List.mem_cons_self
      have htext : List.intercalate ['/'] (name :: second :: more) =
          name ++ '/' :: List.intercalate ['/'] (second :: more) := by
        rw [List.intercalate_cons_of_ne_nil (List.cons_ne_nil _ _), List.append_assoc]
        rfl
      have hhead : (List.intercalate ['/'] (second :: more)).head? ≠ some '/' := by
        cases more with
        | nil => simpa [List.intercalate] using hsecond.head?_ne_slash
        | cons third others =>
          rw [List.intercalate_cons_of_ne_nil (List.cons_ne_nil _ _), List.append_assoc,
            List.head?_append_of_ne_nil _ hsecond.1]
          exact hsecond.head?_ne_slash
      rw [htext, ← join_join p hname.unslashed hhead, ih _ hrest (List.cons_ne_nil _ _)]
      rfl

end Path

/-! ## Documents by their names -/

/-- The names of the documents of a kind that is kept as files. -/
def documentNames (t : FileTree) (root : Path) (kind : ComponentKind) : List Text :=
  ((t.entries (kindDirectory root kind)).filter (isDocument t)).map (·.name)

/-- The path of the document of a kind with a name. -/
def documentPath (root : Path) (kind : ComponentKind) (file : Text) : Path :=
  (kindDirectory root kind).join file

section Names

variable {t : FileTree} {root : Path} {kind : ComponentKind} {file name : Text}

theorem flatDocuments_eq_map : flatDocuments t root kind =
    (documentNames t root kind).map fun file =>
      Component.load t root kind (documentPath root kind file) := by
  rw [flatDocuments, documentNames, List.map_map]
  refine List.map_congr_left fun entry hentry => ?_
  obtain ⟨place, -, -, -, hfound⟩ := t.mem_entries_iff.mp (List.mem_of_mem_filter hentry)
  rw [(FileTree.entry?_name hfound).2]
  rfl

theorem mem_documentNames_iff : file ∈ documentNames t root kind ↔
    (∃ place location, t.IsFileIn (kindDirectory root kind) file place location) ∧
      Path.nameExtension? file = some "md".toList ∧ file ≠ readme.toList := by
  simp only [documentNames, isDocument, List.mem_map, List.mem_filter, Bool.and_eq_true, beq_iff_eq,
    bne_iff_ne]
  constructor
  · rintro ⟨entry, ⟨hentry, ⟨hfile, hextension⟩, hreadme⟩, rfl⟩
    obtain ⟨place, hin, -⟩ := FileTree.mem_entries_isFile_iff.mp ⟨hentry, hfile⟩
    exact ⟨⟨place, entry.location, hin⟩, hextension, hreadme⟩
  · rintro ⟨⟨place, location, hin⟩, hextension, hreadme⟩
    let entry : FileTree.Entry := ⟨file, (kindDirectory root kind).join file, location⟩
    have hlisted : entry ∈ t.entries (kindDirectory root kind) ∧ entry.isFile t = true :=
      FileTree.mem_entries_isFile_iff.mpr ⟨place, hin, rfl⟩
    exact ⟨entry, ⟨hlisted.1, ⟨hlisted.2, hextension⟩, hreadme⟩, rfl⟩

theorem isName_of_mem_documentNames (h : t.WellNamed) (hfile : file ∈ documentNames t root kind) :
    Path.IsName file := by
  obtain ⟨⟨place, location, hin⟩, -⟩ := mem_documentNames_iff.mp hfile
  exact h.isName hin.isSome

theorem label_documentPath (hfile : Path.IsName file) :
    Path.label root (documentPath root kind file) = kind.directory.toList ++ '/' :: file := by
  have hparts : (documentPath root kind file).parts =
      root.parts ++ [.name kind.directory.toList, .name file] :=
    Path.parts_join_join root kind.isName_directory hfile
  rw [Path.label_of_parts hparts]
  simp [List.intercalate, Path.Part.text]

/-- Joined to the root the label of a document is its path. -/
theorem join_label_documentPath (hfile : Path.IsName file) :
    root.join (kind.directory.toList ++ '/' :: file) = documentPath root kind file := by
  have hlabel : Path.label root (documentPath root kind file) = _ := label_documentPath hfile
  rw [← hlabel]
  exact Path.join_label_join_join root kind.isName_directory hfile

/-- A document of the names is discovered. -/
theorem load_mem_discover (hkind : kind ≠ .skill) (hfile : file ∈ documentNames t root kind) :
    Component.load t root kind (documentPath root kind file) ∈ (discover t root).toList := by
  have hdocument : Component.load t root kind (documentPath root kind file) ∈
      flatDocuments t root kind := by
    rw [flatDocuments_eq_map]
    exact List.mem_map_of_mem hfile
  cases kind with
  | command => exact List.mem_append_left _ (List.mem_append_left _ hdocument)
  | agent => exact List.mem_append_left _ (List.mem_append_right _ hdocument)
  | skill => exact absurd rfl hkind

theorem join_label_skill (hname : Path.IsName name) :
    root.join ("skills/".toList ++ name ++ "/SKILL.md".toList) =
      entryPath (skillPath root name) := by
  have hlabel : Path.label root (entryPath (skillPath root name)) = _ := label_entryPath hname
  rw [← hlabel]
  exact Path.join_label_join_join_join root ComponentKind.skill.isName_directory hname (by decide)

/-- The document of a command or an agent is called as its file without the extension. -/
theorem name_document (hkind : kind ≠ .skill) (hfile : Path.IsName file) :
    (Component.load t root kind (documentPath root kind file)).name = Path.nameStem file := by
  have hname : (documentPath root kind file).fileName? = some file := Path.fileName?_join _ hfile
  cases kind with
  | skill => exact absurd rfl hkind
  | _ => simp [Component.name, Component.load, hname]

end Names

/-! ## What is discovered, by its names -/

/-- Whether a component is called as the directory of its skill or as its file without the
extension. -/
structure Component.NamedByPath (root : Path) (c : Component) : Prop where
  skill : c.kind = .skill → Path.IsName c.name ∧ c.path = entryPath (skillPath root c.name)
  document : c.kind ≠ .skill → c.name ≠ [] ∧ Path.IsName (c.name ++ ".md".toList) ∧
    c.path = documentPath root c.kind (c.name ++ ".md".toList)

theorem namedByPath_of_mem_flatDocuments {t : FileTree} (h : t.WellNamed) {root : Path}
    {kind : ComponentKind} (hkind : kind ≠ .skill) {c : Component}
    (hc : c ∈ flatDocuments t root kind) : c.NamedByPath root := by
  rw [flatDocuments_eq_map] at hc
  obtain ⟨file, hfile, rfl⟩ := List.mem_map.mp hc
  have hname := isName_of_mem_documentNames h hfile
  obtain ⟨-, hextension, -⟩ := mem_documentNames_iff.mp hfile
  obtain ⟨hparts, hstem, -⟩ := Path.eq_of_nameExtension? hextension
  have hwhole : Path.nameStem file ++ ".md".toList = file := hparts.symm
  refine ⟨fun hskill => absurd hskill hkind, fun _ => ?_⟩
  rw [name_document hkind hname, hwhole]
  exact ⟨hstem, hname, rfl⟩

theorem namedByPath_of_mem_discover {t : FileTree} (h : t.WellNamed) {root : Path} {c : Component}
    (hc : c ∈ (discover t root).toList) : c.NamedByPath root := by
  simp only [Components.toList, List.mem_append] at hc
  rcases hc with (hcommand | hagent) | hskill
  · exact namedByPath_of_mem_flatDocuments h (by decide) hcommand
  · exact namedByPath_of_mem_flatDocuments h (by decide) hagent
  · rw [skills_eq_map] at hskill
    obtain ⟨name, hmem, rfl⟩ := List.mem_map.mp hskill
    have hname := isName_of_mem_skillNames h (List.mem_of_mem_filter hmem)
    refine ⟨fun _ => ?_, fun hkind => absurd rfl hkind⟩
    rw [name_skill hname]
    exact ⟨hname, rfl⟩

/-- What is discovered under a root lies where its names say and is labelled by them alone. -/
structure LabelledByNames (t : FileTree) (root : Path) : Prop where
  commands : (discover t root).commands.map (fun c => (c.path, c.label)) =
    (documentNames t root .command).map fun file =>
      (documentPath root .command file, "commands/".toList ++ file)
  agents : (discover t root).agents.map (fun c => (c.path, c.label)) =
    (documentNames t root .agent).map fun file =>
      (documentPath root .agent file, "agents/".toList ++ file)
  skills : (discover t root).skills.map (fun c => (c.path, c.label)) =
    ((skillNames t root).filter (hasEntry t root)).map fun name =>
      (entryPath (skillPath root name), "skills/".toList ++ name ++ "/SKILL.md".toList)

theorem map_label_flatDocuments {t : FileTree} (h : t.WellNamed) (root : Path)
    (kind : ComponentKind) : (flatDocuments t root kind).map (fun c => (c.path, c.label)) =
      (documentNames t root kind).map fun file =>
        (documentPath root kind file, kind.directory.toList ++ '/' :: file) := by
  rw [flatDocuments_eq_map, List.map_map]
  refine List.map_congr_left fun file hfile => ?_
  exact congrArg (Prod.mk (documentPath root kind file))
    (label_documentPath (isName_of_mem_documentNames h hfile))

theorem labelledByNames {t : FileTree} (h : t.WellNamed) (root : Path) :
    LabelledByNames t root where
  commands := map_label_flatDocuments h root .command
  agents := map_label_flatDocuments h root .agent
  skills := by
    rw [skills_eq_map, List.map_map]
    refine List.map_congr_left fun name hname => ?_
    exact congrArg (Prod.mk (entryPath (skillPath root name)))
      (label_entryPath (isName_of_mem_skillNames h (List.mem_of_mem_filter hname)))

/-! ## Two spellings of a root -/

/-- Whether two components are of one kind with the same label and the same content. -/
structure Component.SameDocument (c d : Component) : Prop where
  kind : c.kind = d.kind
  label : c.label = d.label
  content : c.content = d.content

section Spellings

variable {t : FileTree} {root other : Path} {kind : ComponentKind} {file name : Text}
  (halike : root.SpelledAlike other)
include halike

theorem mem_documentNames_of_alike (hname : Path.IsName file)
    (hroot : Text.byteCount (documentPath root kind file).text < FileTree.pathLimit)
    (hother : Text.byteCount (documentPath other kind file).text < FileTree.pathLimit)
    (hfile : file ∈ documentNames t root kind) : file ∈ documentNames t other kind := by
  obtain ⟨⟨place, location, hin⟩, hdocument⟩ := mem_documentNames_iff.mp hfile
  exact mem_documentNames_iff.mpr
    ⟨⟨place, location, hin.of_alike halike kind.isName_directory hname hroot hother⟩, hdocument⟩

/-- The document that one spelling of a root leads to is the one that another leads to. -/
theorem readText_documentPath_of_alike (hname : Path.IsName file)
    (hroot : Text.byteCount (documentPath root kind file).text < FileTree.pathLimit)
    (hother : Text.byteCount (documentPath other kind file).text < FileTree.pathLimit) :
    t.readText (documentPath root kind file) = t.readText (documentPath other kind file) := by
  have hlocate : t.locate (documentPath root kind file) = t.locate (documentPath other kind file) :=
    FileTree.locate_join_of_alike (halike.join kind.isName_directory) hname hroot hother
  rw [FileTree.readText, FileTree.readText, hlocate]

theorem locate_entryPath_of_alike (hname : Path.IsName name)
    (hroot : Text.byteCount (entryPath (skillPath root name)).text < FileTree.pathLimit)
    (hother : Text.byteCount (entryPath (skillPath other name)).text < FileTree.pathLimit) :
    t.locate (entryPath (skillPath root name)) = t.locate (entryPath (skillPath other name)) :=
  FileTree.locate_join_of_alike
    ((halike.join ComponentKind.skill.isName_directory).join hname) (by decide) hroot hother

theorem mem_skillNames_of_alike (hname : Path.IsName name)
    (hroot : Text.byteCount (skillPath root name).text < FileTree.pathLimit)
    (hother : Text.byteCount (skillPath other name).text < FileTree.pathLimit)
    (hskill : name ∈ skillNames t root) : name ∈ skillNames t other := by
  obtain ⟨place, location, hsub, hne⟩ := mem_skillNames_iff.mp hskill
  exact mem_skillNames_iff.mpr ⟨place, location,
    hsub.of_alike halike ComponentKind.skill.isName_directory hname hroot hother, hne⟩

/-- A document that is discovered under one spelling of a root is discovered under any other, with
the same label and the same content, as long as its path is short enough in both. -/
theorem exists_sameDocument_of_mem_flatDocuments (h : t.WellNamed) {c : Component}
    (hc : c ∈ flatDocuments t root kind) (hroot : Text.byteCount c.path.text < FileTree.pathLimit)
    (hother : Text.byteCount (other.join c.label).text < FileTree.pathLimit) :
    ∃ d ∈ flatDocuments t other kind, c.SameDocument d := by
  rw [flatDocuments_eq_map] at hc ⊢
  obtain ⟨file, hfile, rfl⟩ := List.mem_map.mp hc
  have hname := isName_of_mem_documentNames h hfile
  have hlabel : Path.label root (documentPath root kind file) = _ := label_documentPath hname
  simp only [Component.load, hlabel, join_label_documentPath hname] at hroot hother
  refine ⟨_, List.mem_map_of_mem (mem_documentNames_of_alike halike hname hroot hother hfile),
    rfl, ?_, readText_documentPath_of_alike halike hname hroot hother⟩
  exact hlabel.trans (label_documentPath hname).symm

theorem exists_sameDocument_of_mem_skills (h : t.WellNamed) {c : Component}
    (hc : c ∈ (discover t root).skills) (hroot : Text.byteCount c.path.text < FileTree.pathLimit)
    (hother : Text.byteCount (other.join c.label).text < FileTree.pathLimit) :
    ∃ d ∈ (discover t other).skills, c.SameDocument d := by
  rw [skills_eq_map] at hc ⊢
  obtain ⟨name, hskill, rfl⟩ := List.mem_map.mp hc
  obtain ⟨hskill, hentry⟩ := List.mem_filter.mp hskill
  have hname := isName_of_mem_skillNames h hskill
  have hlabel : Path.label root (entryPath (skillPath root name)) = _ := label_entryPath hname
  simp only [Component.load, hlabel, join_label_skill hname] at hroot hother
  have hlocate := locate_entryPath_of_alike halike hname (t := t) hroot hother
  have hskill' : name ∈ skillNames t other := by
    have hhead : skillEntry.toList.head? ≠ some '/' := by decide
    exact mem_skillNames_of_alike halike hname
      (Nat.lt_of_le_of_lt ((skillPath root name).byteCount_le_join hhead) hroot)
      (Nat.lt_of_le_of_lt ((skillPath other name).byteCount_le_join hhead) hother) hskill
  have hentry' : hasEntry t other name = true := by
    rwa [hasEntry, FileTree.isFile, FileTree.find?, ← hlocate]
  refine ⟨_, List.mem_map_of_mem (List.mem_filter.mpr ⟨hskill', hentry'⟩), rfl, ?_, ?_⟩
  · exact hlabel.trans (label_entryPath hname).symm
  · simp only [Component.load, FileTree.readText, hlocate]

theorem exists_sameDocument_of_alike (h : t.WellNamed) {c : Component}
    (hc : c ∈ (discover t root).toList) (hroot : Text.byteCount c.path.text < FileTree.pathLimit)
    (hother : Text.byteCount (other.join c.label).text < FileTree.pathLimit) :
    ∃ d ∈ (discover t other).toList, c.SameDocument d := by
  simp only [Components.toList, List.mem_append] at hc ⊢
  rcases hc with (hcommand | hagent) | hskill
  · obtain ⟨d, hd, hsame⟩ :=
      exists_sameDocument_of_mem_flatDocuments halike h hcommand hroot hother
    exact ⟨d, .inl (.inl hd), hsame⟩
  · obtain ⟨d, hd, hsame⟩ :=
      exists_sameDocument_of_mem_flatDocuments halike h hagent hroot hother
    exact ⟨d, .inl (.inr hd), hsame⟩
  · obtain ⟨d, hd, hsame⟩ := exists_sameDocument_of_mem_skills halike h hskill hroot hother
    exact ⟨d, .inr hd, hsame⟩

end Spellings

/-- Whatever a root looks like, the label of names joined to it is these names with slashes between
them. So every discovered component is labelled by the directory of its kind and its file, or by the
name of its skill directory and the entry document. What is discovered under one spelling of a root
is discovered under any other, with the same label, where both paths are short enough. -/
theorem labels_independent_of_spelling (root : Path) :
    (∀ names : List Text, names ≠ [] → (∀ name ∈ names, Path.IsName name) →
      Path.label root (names.foldl Path.join root) = List.intercalate ['/'] names ∧
      Path.label root (root.join (List.intercalate ['/'] names)) =
        List.intercalate ['/'] names) ∧
    ∀ t : FileTree, t.WellNamed →
      LabelledByNames t root ∧
      ∀ other : Path, root.SpelledAlike other → ∀ c ∈ (discover t root).toList,
        Text.byteCount c.path.text < FileTree.pathLimit →
        Text.byteCount (other.join c.label).text < FileTree.pathLimit →
        ∃ d ∈ (discover t other).toList, c.SameDocument d := by
  refine ⟨fun names hne hnames => ?_, fun t h => ⟨labelledByNames h root, ?_⟩⟩
  · have hlabel := Path.label_foldl_join root hnames
    exact ⟨hlabel, by rw [root.join_intercalate hnames hne, hlabel]⟩
  · intro other halike c hc hroot hother
    exact exists_sameDocument_of_alike halike h hc hroot hother

/-- A plugin with a command, next to the directory that paths start from. -/
def neighbourPlugin : FileTree where
  nodes :=
    [(["w".toList], .directory), (["p".toList], .directory),
      (["p".toList, "commands".toList], .directory),
      (["p".toList, "commands".toList, "run.md".toList], .file (.text "Run it".toList))]
  base := ["w".toList]

/-- Its root with slashes and dots that do not count. -/
def neighbourRoot : Path := ⟨"./..//p/.".toList⟩

/-- Its command. -/
def neighbourCommand : Component where
  kind := .command
  path := ⟨"./..//p/./commands/run.md".toList⟩
  label := "commands/run.md".toList
  content := .ok "Run it".toList

theorem neighbourCommand_mem :
    neighbourCommand ∈ (discover neighbourPlugin neighbourRoot).toList := by
  have hfile : "run.md".toList ∈ documentNames neighbourPlugin neighbourRoot .command := by
    refine mem_documentNames_iff.mpr ⟨⟨["p".toList, "commands".toList],
      ["p".toList, "commands".toList, "run.md".toList], ⟨by decide, by decide, .inl ?_⟩⟩, by decide,
      by decide⟩
    exact ⟨by decide, rfl⟩
  have hcommand : Component.load neighbourPlugin neighbourRoot .command
      (documentPath neighbourRoot .command "run.md".toList) = neighbourCommand := rfl
  rw [← hcommand]
  exact load_mem_discover (by decide) hfile

theorem neighbourPlugin_labels :
    (∀ name ∈ ["commands".toList, "run.md".toList], Path.IsName name) ∧
    Path.label neighbourRoot
      (["commands".toList, "run.md".toList].foldl Path.join neighbourRoot) =
        "commands/run.md".toList ∧
    neighbourPlugin.WellNamed ∧ LabelledByNames neighbourPlugin neighbourRoot ∧
    neighbourRoot.SpelledAlike ⟨"../p".toList⟩ ∧
    neighbourCommand ∈ (discover neighbourPlugin neighbourRoot).toList ∧
    ∃ d ∈ (discover neighbourPlugin ⟨"../p".toList⟩).toList, neighbourCommand.SameDocument d := by
  have hnames : ∀ name ∈ ["commands".toList, "run.md".toList], Path.IsName name := by decide
  have hnamed : neighbourPlugin.WellNamed := by
    unfold FileTree.WellNamed
    decide
  have halike : neighbourRoot.SpelledAlike ⟨"../p".toList⟩ := ⟨by decide, by decide⟩
  obtain ⟨hlabel, hdiscovered⟩ := labels_independent_of_spelling neighbourRoot
  obtain ⟨hlabelled, hother⟩ := hdiscovered neighbourPlugin hnamed
  exact ⟨hnames, (hlabel _ (by simp) hnames).1, hnamed, hlabelled, halike, neighbourCommand_mem,
    hother _ halike _ neighbourCommand_mem (by decide) (by decide)⟩

end PluginLint
