import PluginLint.Check.Structure
import PluginLint.Proofs.Check.Forms
import PluginLint.Proofs.Check.Isolation

/-!
# What the structure check says of names and entry documents

What is found in a layout is about the name of a component, about the entry document of a skill or
about something else, and its message tells which (`filter_layout_eq`). The issues on entry
documents are requirements and those on names are recommendations, so every result keeps them: a
plugin with a manifest has one for each skill directory without an entry document
(`entriesMissing_run`) and one for each component whose name is not in kebab case (`misnamed_run`).
-/
namespace PluginLint

/-- Whether an issue says that an entry document is missing. -/
def Issue.saysEntryMissing (i : Issue) : Bool := i.message = "Missing SKILL.md".toList

/-- The issues of a result that say that an entry document is missing. -/
def CheckResult.entriesMissing (r : CheckResult) : List Issue :=
  r.issues.filter (·.saysEntryMissing)

/-- What a name belongs to of which a result can say that it is not in kebab case: the plugin or a
component. -/
def namedThings : List String := "Plugin" :: ComponentKind.all.map ComponentKind.word

/-- What is said of a name that is not in kebab case. -/
def misnamedMessage (thing : String) : Text := s!"{thing} name not kebab-case".toList

/-- Whether an issue says that a name is not in kebab case. -/
def Issue.saysMisnamed (i : Issue) : Bool :=
  namedThings.any fun thing => i.message = misnamedMessage thing

theorem Issue.saysMisnamed_iff {i : Issue} :
    i.saysMisnamed = true ↔ ∃ thing ∈ namedThings, i.message = misnamedMessage thing := by
  simp [saysMisnamed]

theorem Issue.saysMisnamed_eq_false {i : Issue}
    (h : ∀ thing ∈ namedThings, misnamedMessage thing ≠ i.message) : i.saysMisnamed = false := by
  rw [Bool.eq_false_iff, Ne, saysMisnamed_iff]
  rintro ⟨thing, hthing, hmessage⟩
  exact h thing hthing hmessage.symm

/-- The issues of a result that say that a name is not in kebab case. -/
def CheckResult.misnamed (r : CheckResult) : List Issue := r.issues.filter (·.saysMisnamed)

theorem ManifestSource.isMissing_load {t : FileTree} {root : Path}
    (h : t.isFile (manifestPath root) = true) : (load t root).isMissing = false := by
  simp only [load, h, if_true]
  cases t.readText (manifestPath root) with
  | error fault => rfl
  | ok raw =>
    simp only [parse]
    split <;> rfl

namespace StructureCheck

/-- What is said of a layout beside names and entry documents. -/
def otherMessages : List Text :=
  ["plugin.json location correct".toList, "Hardcoded absolute path".toList,
    "Cannot read file".toList, "No README.md".toList] ++
    ComponentKind.all.map (fun kind => s!"{kind.directory}/ inside {manifestDirectory}/".toList) ++
    genericNames.map fun name => s!"Generic directory name: {name}/".toList

variable (s : Subject) {i : Issue}

/-! ## Rules on other things -/

theorem message_of_mem_misplaced {kind : ComponentKind} (h : i ∈ misplaced s kind) :
    i.message ∈ otherMessages := by
  simp only [misplaced, List.mem_ite_nil_right, List.mem_singleton] at h
  obtain ⟨-, rfl⟩ := h
  have hkind : kind ∈ ComponentKind.all := by cases kind <;> decide
  simp only [otherMessages, List.mem_append]
  exact .inl (.inr (List.mem_map.mpr ⟨kind, hkind, rfl⟩))

theorem message_of_mem_scriptPaths {file : Text} {number : Nat} {lines : List Text}
    (h : i ∈ scriptPaths file number lines) : i.message = "Hardcoded absolute path".toList := by
  induction lines generalizing number with
  | nil => cases h
  | cons line rest ih =>
    rw [scriptPaths, List.mem_append] at h
    rcases h with hline | hrest
    · simp only [List.mem_ite_nil_right, List.mem_singleton] at hline
      obtain ⟨-, rfl⟩ := hline
      rfl
    · exact ih hrest

theorem message_of_mem_scriptConfig {file : Text} (h : i ∈ scriptConfig s file) :
    i.message ∈ otherMessages := by
  unfold scriptConfig at h
  split at h
  · simp [otherMessages, message_of_mem_scriptPaths h]
  · cases h
  · obtain rfl := List.mem_singleton.mp h
    simp [otherMessages, Issue.cannotRead]

theorem message_of_mem_generic {name : String} (hname : name ∈ genericNames)
    (h : i ∈ generic s name) : i.message ∈ otherMessages := by
  simp only [generic, List.mem_ite_nil_right, List.mem_singleton] at h
  obtain ⟨-, rfl⟩ := h
  simp only [otherMessages, List.mem_append]
  exact .inr (List.mem_map.mpr ⟨name, hname, rfl⟩)

theorem message_of_mem_readmeMissing (h : i ∈ readmeMissing s) : i.message ∈ otherMessages := by
  simp only [readmeMissing, List.mem_ite_nil_left, List.mem_singleton] at h
  obtain ⟨-, rfl⟩ := h
  simp [otherMessages]

/-! ## Names and entry documents -/

/-- The issue on a component whose name is not in kebab case. -/
def misnamedIssue (c : Component) : Issue where
  severity := .should
  message := misnamedMessage c.kind.word
  file := some c.label
  source := some c.name
  suggestion := some "Use lowercase letters, numbers, hyphens only".toList

theorem flatMap_naming (components : List Component) : components.flatMap naming =
    (components.filter fun c => ¬ IsKebab c.name).map misnamedIssue := by
  induction components with
  | nil => rfl
  | cons c rest ih =>
    have hname : naming c = if isKebab c.name = true then [] else [misnamedIssue c] := rfl
    rw [List.flatMap_cons, hname, ih, List.filter_cons]
    by_cases h : IsKebab c.name
    · simp [h, isKebab_iff]
    · simp [h, isKebab_iff]

theorem saysMisnamed_misnamedIssue (c : Component) : (misnamedIssue c).saysMisnamed = true := by
  have hthing : c.kind.word ∈ namedThings := by cases c.kind <;> decide
  exact Issue.saysMisnamed_iff.mpr ⟨c.kind.word, hthing, rfl⟩

/-- The issue that an entry document is missing is a requirement and belongs to this check. -/
theorem says_of_mem_entryMissing {directory : Path} (h : i ∈ entryMissing s directory) :
    i.saysEntryMissing = true ∧ i.severity = .must ∧ i.stamp .layout = i := by
  simp only [entryMissing, List.mem_ite_nil_left, List.mem_singleton] at h
  obtain ⟨-, rfl⟩ := h
  exact ⟨rfl, rfl, rfl⟩

/-- No issue is about a name and an entry document. -/
theorem saysMisnamed_of_saysEntryMissing (h : i.saysEntryMissing = true) :
    i.saysMisnamed = false := by
  refine Issue.saysMisnamed_eq_false ?_
  rw [of_decide_eq_true h]
  decide

/-! ## A whole layout -/

/-- What is told by its message and not said of other things in a layout comes from the rules on
names and on entry documents. -/
theorem filter_layout_eq {p : Issue → Bool}
    (hother : ∀ i, i.message ∈ otherMessages → p i = false) :
    (layout s).filter p = (s.components.toList.flatMap naming).filter p ++
      ((skillDirectories s.tree s.root).flatMap (entryMissing s)).filter p := by
  have hnone {α : Type} {l : List α} {rule : α → List Issue}
      (h : ∀ a ∈ l, ∀ i ∈ rule a, i.message ∈ otherMessages) : (l.flatMap rule).filter p = [] := by
    rw [List.filter_eq_nil_iff]
    intro i hi
    obtain ⟨a, ha, hi⟩ := List.mem_flatMap.mp hi
    simp [hother i (h a ha i hi)]
  have hmanifest : [manifestFound].filter p = [] := by
    simp [hother manifestFound (by simp [manifestFound, otherMessages])]
  have hmisplaced : (ComponentKind.all.flatMap (misplaced s)).filter p = [] :=
    hnone fun _ _ _ hi => message_of_mem_misplaced s hi
  have hscripts : (scriptConfigs.flatMap fun file => scriptConfig s file.toList).filter p = [] :=
    hnone fun _ _ _ hi => message_of_mem_scriptConfig s hi
  have hgeneric : (genericNames.flatMap (generic s)).filter p = [] :=
    hnone fun _ hname _ hi => message_of_mem_generic s hname hi
  have hreadme : (readmeMissing s).filter p = [] :=
    List.filter_eq_nil_iff.mpr fun i hi => by simp [hother i (message_of_mem_readmeMissing s hi)]
  simp only [layout, List.filter_append, hmanifest, hmisplaced, hscripts, hgeneric, hreadme,
    List.nil_append, List.append_nil]

/-- Of all that is found in a layout only the rule on entry documents says that one is missing. -/
theorem filter_layout : (layout s).filter (·.saysEntryMissing) =
    (skillDirectories s.tree s.root).flatMap (entryMissing s) := by
  have hmessage : "Missing SKILL.md".toList ∉ otherMessages := by decide
  have hother (i : Issue) (hi : i.message ∈ otherMessages) : i.saysEntryMissing = false :=
    decide_eq_false fun h => hmessage (h ▸ hi)
  have hnames : (s.components.toList.flatMap naming).filter (·.saysEntryMissing) = [] := by
    rw [flatMap_naming, List.filter_eq_nil_iff]
    intro i hi hsays
    obtain ⟨c, -, rfl⟩ := List.mem_map.mp hi
    simpa [saysMisnamed_misnamedIssue] using saysMisnamed_of_saysEntryMissing hsays
  rw [filter_layout_eq s hother, hnames, List.nil_append, List.filter_eq_self]
  intro i hi
  obtain ⟨directory, -, hi⟩ := List.mem_flatMap.mp hi
  exact (says_of_mem_entryMissing s hi).1

/-- Of all that is found in a layout only the rule on names says that one is not in kebab case. -/
theorem filter_layout_misnamed : (layout s).filter (·.saysMisnamed) =
    (s.components.toList.filter fun c => ¬ IsKebab c.name).map misnamedIssue := by
  have hmessages : ∀ thing ∈ namedThings, misnamedMessage thing ∉ otherMessages := by decide
  have hother (i : Issue) (hi : i.message ∈ otherMessages) : i.saysMisnamed = false :=
    Issue.saysMisnamed_eq_false fun thing hthing h => hmessages thing hthing (h ▸ hi)
  have hentries : ((skillDirectories s.tree s.root).flatMap (entryMissing s)).filter
      (·.saysMisnamed) = [] := by
    rw [List.filter_eq_nil_iff]
    intro i hi
    obtain ⟨directory, -, hi⟩ := List.mem_flatMap.mp hi
    simp [saysMisnamed_of_saysEntryMissing (says_of_mem_entryMissing s hi).1]
  rw [filter_layout_eq s hother, hentries, List.append_nil, flatMap_naming, List.filter_eq_self]
  intro i hi
  obtain ⟨c, -, rfl⟩ := List.mem_map.mp hi
  exact saysMisnamed_misnamedIssue c

/-! ## Runs -/

/-- Where there is a manifest, what the check finds is what is found in the layout. -/
theorem inspect_of_manifest (h : s.manifest.isMissing = false) :
    (structureCheck.inspect s).issues = layout s := by
  simp [structureCheck, inspect, h]

/-- Where there is a manifest, the entry documents that a result says to be missing are those that
the rule finds missing, directory by directory. -/
theorem entriesMissing_run (h : s.manifest.isMissing = false) :
    (structureCheck.run s).entriesMissing =
      (skillDirectories s.tree s.root).flatMap (entryMissing s) := by
  have hfound : (structureCheck.inspect s).issues.filter (·.saysEntryMissing) =
      (skillDirectories s.tree s.root).flatMap (entryMissing s) := by
    rw [inspect_of_manifest s h, filter_layout]
  have hrule (i : Issue)
      (hi : i ∈ (skillDirectories s.tree s.root).flatMap (entryMissing s)) :
      i.severity = .must ∧ i.stamp .layout = i := by
    obtain ⟨directory, -, hi⟩ := List.mem_flatMap.mp hi
    exact (says_of_mem_entryMissing s hi).2
  have hkept := structureCheck.filter_run_of_reported s (fun _ => rfl) hfound
    fun i hi => by simp [(hrule i hi).1]
  exact hkept.trans ((List.map_congr_left fun i hi => (hrule i hi).2).trans (List.map_id _))

/-- Where there is a manifest, the components whose names a result says not to be in kebab case are
those whose names are not, in their order. -/
theorem misnamed_run (h : s.manifest.isMissing = false) : (structureCheck.run s).misnamed =
    (s.components.toList.filter fun c => ¬ IsKebab c.name).map misnamedIssue := by
  have hfound : (structureCheck.inspect s).issues.filter (·.saysMisnamed) =
      (s.components.toList.filter fun c => ¬ IsKebab c.name).map misnamedIssue := by
    rw [inspect_of_manifest s h, filter_layout_misnamed]
  have hweight (i : Issue)
      (hi : i ∈ (s.components.toList.filter fun c => ¬ IsKebab c.name).map misnamedIssue) :
      i.severity ≠ .ok := by
    obtain ⟨c, -, rfl⟩ := List.mem_map.mp hi
    exact Severity.noConfusion
  have hkept := structureCheck.filter_run_of_reported s (fun _ => rfl) hfound hweight
  rw [CheckResult.misnamed, hkept, List.map_map]
  rfl

end StructureCheck
end PluginLint
