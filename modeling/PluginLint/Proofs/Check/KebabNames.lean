import Mathlib.Computability.Language
import PluginLint.Proofs.Check.Forms
import PluginLint.Proofs.Check.ManifestRules
import PluginLint.Proofs.Check.Messages
import PluginLint.Proofs.Check.Structure
import PluginLint.Proofs.Plugin.Discovery
import PluginLint.Proofs.Text.Search

/-!
# Names in kebab case

The names in kebab case are a language: a run of small letters and digits, and any number of runs
with a hyphen in front (`kebabNames`). A text is one of them when the pieces between its hyphens are
runs, and that is what the test finds out as it goes along (`isKebab_iff_splitOn`). The test decides
what two checks say: of the components the structure check reports those whose names are not of this
form, and of the plugin's name the manifest check says whether it is.
-/
namespace PluginLint

open scoped Computability

/-! ## The language -/

/-- A small letter or a digit. -/
def kebabSymbol : Language Char := {part | ∃ c, isKebabChar c = true ∧ part = [c]}

/-- Small letters and digits, one or more. -/
def kebabRun : Language Char := kebabSymbol * kebabSymbol∗

/-- A run, and any number of runs with a hyphen in front. -/
def kebabNames : Language Char := kebabRun * ({['-']} * kebabRun)∗

section Names

variable {c : Char} {part name : Text}

theorem isKebabChar_iff :
    isKebabChar c = true ↔ ('a' ≤ c ∧ c ≤ 'z') ∨ ('0' ≤ c ∧ c ≤ '9') := by
  unfold isKebabChar
  delta Char.isLower Char.isDigit
  simp [Char.le_def]

theorem mem_kebabSymbols_iff : part ∈ kebabSymbol∗ ↔ ∀ c ∈ part, isKebabChar c = true := by
  rw [Language.mem_kstar]
  constructor
  · rintro ⟨symbols, rfl, hsymbols⟩ c hc
    obtain ⟨symbol, hsymbol, hc⟩ := List.mem_flatten.mp hc
    obtain ⟨d, hd, rfl⟩ := hsymbols symbol hsymbol
    rwa [List.mem_singleton.mp hc]
  · intro h
    refine ⟨part.map fun c => [c], ?_, fun symbol hsymbol => ?_⟩
    · rw [← List.flatMap_def, List.flatMap_singleton']
    · obtain ⟨c, hc, rfl⟩ := List.mem_map.mp hsymbol
      exact ⟨c, h c hc, rfl⟩

theorem mem_kebabRun_iff :
    part ∈ kebabRun ↔ part ≠ [] ∧ ∀ c ∈ part, isKebabChar c = true := by
  rw [kebabRun, Language.mem_mul]
  constructor
  · rintro ⟨-, ⟨c, hc, rfl⟩, rest, hrest, rfl⟩
    exact ⟨List.cons_ne_nil _ _, List.forall_mem_cons.mpr ⟨hc, mem_kebabSymbols_iff.mp hrest⟩⟩
  · rintro ⟨hne, hall⟩
    obtain ⟨c, rest, rfl⟩ := List.exists_cons_of_ne_nil hne
    obtain ⟨hc, hrest⟩ := List.forall_mem_cons.mp hall
    exact ⟨[c], ⟨c, hc, rfl⟩, rest, mem_kebabSymbols_iff.mpr hrest, rfl⟩

theorem hyphen_not_mem_of_mem_kebabRun (h : part ∈ kebabRun) : '-' ∉ part := by
  intro hmem
  have hhyphen : isKebabChar '-' = true := (mem_kebabRun_iff.mp h).2 _ hmem
  exact absurd hhyphen (by decide)

theorem mem_kebabNames_of_mem_kebabRun (h : part ∈ kebabRun) : part ∈ kebabNames :=
  Language.mem_mul.mpr ⟨part, h, [], Language.nil_mem_kstar _, List.append_nil _⟩

/-- A run with a hyphen may stand in front of a name. -/
theorem append_cons_mem_kebabNames (hpart : part ∈ kebabRun) (hname : name ∈ kebabNames) :
    part ++ '-' :: name ∈ kebabNames := by
  obtain ⟨first, hfirst, more, hmore, rfl⟩ := Language.mem_mul.mp hname
  obtain ⟨parts, rfl, hparts⟩ := Language.mem_kstar.mp hmore
  have hfirst : '-' :: first ∈ {['-']} * kebabRun :=
    Language.mem_mul.mpr ⟨['-'], rfl, first, hfirst, rfl⟩
  exact Language.mem_mul.mpr ⟨part, hpart, _, Language.mem_kstar.mpr
    ⟨('-' :: first) :: parts, rfl, List.forall_mem_cons.mpr ⟨hfirst, hparts⟩⟩, rfl⟩

/-- Runs that are joined by hyphens are the pieces between the hyphens. -/
theorem mem_kebabNames_iff : name ∈ kebabNames ↔ ∀ run ∈ name.splitOn '-', run ∈ kebabRun := by
  constructor
  · -- by induction on the runs behind the first, each with its hyphen
    intro h
    obtain ⟨first, hfirst, more, hmore, rfl⟩ := Language.mem_mul.mp h
    obtain ⟨parts, rfl, hparts⟩ := Language.mem_kstar.mp hmore
    clear h hmore
    induction parts generalizing first with
    | nil =>
      rw [List.flatten_nil, List.append_nil,
        List.splitOn_eq_singleton (hyphen_not_mem_of_mem_kebabRun hfirst)]
      simpa using hfirst
    | cons part rest ih =>
      obtain ⟨hpart, hrest⟩ := List.forall_mem_cons.mp hparts
      obtain ⟨hyphen, rfl, second, hsecond, rfl⟩ := Language.mem_mul.mp hpart
      have hjoined : first ++ ((['-'] ++ second) :: rest).flatten =
          first ++ '-' :: (second ++ rest.flatten) := by simp
      rw [hjoined, Text.splitOn_append_cons (hyphen_not_mem_of_mem_kebabRun hfirst)]
      exact List.forall_mem_cons.mpr ⟨hfirst, ih second hsecond hrest⟩
  · induction name using Text.splitInduction '-' with
    | whole q hq =>
      rw [List.splitOn_eq_singleton hq]
      exact fun h => mem_kebabNames_of_mem_kebabRun (h q List.mem_cons_self)
    | part q rest hq ih =>
      rw [Text.splitOn_append_cons hq]
      intro h
      obtain ⟨hrun, hrest⟩ := List.forall_mem_cons.mp h
      exact append_cons_mem_kebabNames hrun (ih hrest)

/-! ## The test -/

/-- What the test makes of a piece without a hyphen before it goes on. -/
theorem isKebabFrom_append (h : '-' ∉ part) {inRun : Bool} {rest : Text} :
    isKebabFrom inRun (part ++ rest) = true ↔
      (∀ c ∈ part, isKebabChar c = true) ∧ isKebabFrom (inRun || !part.isEmpty) rest = true := by
  induction part generalizing inRun with
  | nil => simp
  | cons c part ih =>
    obtain ⟨hc, hpart⟩ : '-' ≠ c ∧ '-' ∉ part := by simpa using h
    have hne : (c == '-') = false := by simpa using hc.symm
    rw [List.cons_append, isKebabFrom, List.forall_mem_cons]
    by_cases hchar : isKebabChar c = true
    · simp [hchar, ih hpart]
    · simp [hchar, hne]

/-- A text passes when the pieces between its hyphens are runs. -/
theorem isKebab_iff_splitOn : isKebab name = true ↔
    ∀ run ∈ name.splitOn '-', run ≠ [] ∧ ∀ c ∈ run, isKebabChar c = true := by
  rw [isKebab]
  induction name using Text.splitInduction '-' with
  | whole q hq =>
    have hwhole : isKebabFrom false q = true ↔
        (∀ c ∈ q, isKebabChar c = true) ∧ isKebabFrom (false || !q.isEmpty) [] = true := by
      rw [← isKebabFrom_append hq, List.append_nil]
    rw [hwhole, List.splitOn_eq_singleton hq]
    simp [isKebabFrom, and_comm]
  | part q rest hq ih =>
    have hhyphen : isKebabFrom (false || !q.isEmpty) ('-' :: rest) = true ↔
        q ≠ [] ∧ isKebabFrom false rest = true := by
      have hchar : isKebabChar '-' = false := by decide
      simp [isKebabFrom, hchar]
    rw [isKebabFrom_append hq, hhyphen, ih, Text.splitOn_append_cons hq, List.forall_mem_cons]
    tauto

theorem isKebab_iff_mem_kebabNames : isKebab name = true ↔ name ∈ kebabNames := by
  simp only [isKebab_iff_splitOn, mem_kebabNames_iff, mem_kebabRun_iff]

end Names

/-! ## The plugin's name -/

namespace ManifestCheck

variable {s : Subject} {m : Manifest} {name : Text}

/-- The issue on a plugin whose name is not in kebab case. -/
def misnamedIssue (m : Manifest) (name : Text) : Issue :=
  { fieldIssue m "name" .should (misnamedMessage "Plugin") with
    source := some (member "name" ('"' :: (name ++ ['"'])))
    suggestion := some "Use lowercase letters, numbers, hyphens only".toList }

theorem saysMisnamed_of_start {i : Issue} {starts : List Text} (h : i.message.take 2 ∈ starts)
    (hother : ∀ thing ∈ namedThings, (misnamedMessage thing).take 2 ∉ starts) :
    i.saysMisnamed = false :=
  Issue.saysMisnamed_eq_false fun thing hthing hmessage => hother thing hthing (hmessage ▸ h)

/-- Of all that is found in a manifest only the rule on the name says that it is not in kebab
case. -/
theorem filter_fields_misnamed (s : Subject) (m : Manifest) :
    (fields s m).filter (·.saysMisnamed) = [nameRule m].filter (·.saysMisnamed) := by
  have hfields : fields s m = [nameRule m] ++
      ([descriptionRule m, authorRule m, versionRule m, keywordsRule m] ++ commandsRule s m) := rfl
  have hbeside : ([descriptionRule m, authorRule m, versionRule m, keywordsRule m] ++
      commandsRule s m).filter (·.saysMisnamed) = [] := by
    rw [List.filter_eq_nil_iff]
    intro i hi
    rw [Bool.not_eq_true]
    rcases start_of_mem_beside_name hi with hstart | ⟨-, -, -, skill, -, hskill⟩
    · exact saysMisnamed_of_start hstart (by decide)
    · exact saysMisnamed_of_start (start_of_mem_skillRule hskill) (by decide)
  rw [hfields, List.filter_append, hbeside, List.append_nil]

/-- A name in kebab case is a passing detail. -/
theorem nameRule_of_isKebab (h : m.name = some (.text name)) (hkebab : IsKebab name) :
    nameRule m = fieldIssue m "name" .ok ("name: ".toList ++ name) := by
  have hpasses : (Scalar.text name).text?.filter isKebab = some name := by
    simp [Scalar.text?, isKebab_iff, hkebab]
  unfold nameRule
  rw [h]
  simp only [hpasses]

theorem nameRule_of_not_isKebab (h : m.name = some (.text name)) (hkebab : ¬ IsKebab name) :
    nameRule m = misnamedIssue m name := by
  have hfails : (Scalar.text name).text?.filter isKebab = none := by
    simp [Scalar.text?, isKebab_iff, hkebab]
  have hmessage : misnamedMessage "Plugin" = "Plugin name not kebab-case".toList := by decide
  unfold nameRule
  rw [h, misnamedIssue, hmessage]
  simp only [hfails]
  rfl

/-- On a name that is a text the rule says whether it is in kebab case. -/
theorem filter_nameRule_misnamed (h : m.name = some (.text name)) :
    [nameRule m].filter (·.saysMisnamed) =
      if IsKebab name then [] else [misnamedIssue m name] := by
  split
  · next hkebab =>
    have hstart : (nameRule m).message.take 2 ∈ ["na".toList] := by
      simp [nameRule_of_isKebab h hkebab]
    rw [List.filter_singleton, saysMisnamed_of_start hstart (by decide)]
    rfl
  · next hkebab =>
    have hsays : (misnamedIssue m name).saysMisnamed = true :=
      Issue.saysMisnamed_iff.mpr ⟨"Plugin", List.mem_cons_self, message_fieldIssue ..⟩
    rw [nameRule_of_not_isKebab h hkebab, List.filter_singleton, hsays]
    rfl

/-- On a loaded manifest whose name is a text a result says that the name is not in kebab case when
it is not, once and as a recommendation. -/
theorem misnamed_run (hloaded : s.manifest = .loaded m) (hname : m.name = some (.text name)) :
    (manifestCheck.run s).misnamed =
      if IsKebab name then [] else [(misnamedIssue m name).stamp .manifest] := by
  have hfound : (manifestCheck.inspect s).issues.filter (·.saysMisnamed) =
      if IsKebab name then [] else [misnamedIssue m name] := by
    have hissues : (manifestCheck.inspect s).issues = fields s m := by
      simp [manifestCheck, inspect, hloaded]
    rw [hissues, filter_fields_misnamed, filter_nameRule_misnamed hname]
  have hweight : ∀ i ∈ (if IsKebab name then [] else [misnamedIssue m name]), i.severity ≠ .ok := by
    intro i hi
    obtain ⟨-, hi⟩ := List.mem_ite_nil_left.mp hi
    obtain rfl := List.mem_singleton.mp hi
    simp [misnamedIssue]
  refine (manifestCheck.filter_run_of_reported s (fun _ => rfl) hfound hweight).trans ?_
  split <;> rfl

end ManifestCheck

/-! ## What the form decides -/

/-- The names in kebab case are runs of small ASCII letters and digits joined by single hyphens: the
language, its form by single characters and its form by the pieces between the hyphens are one, and
the test accepts exactly these names. Where there is a manifest, the structure check reports exactly
the components with other names, which are those of their files without the extension or of their
skill directories. On a loaded manifest whose name is a text the manifest check reports the name
exactly when it is another. -/
theorem kebab_case_decides_name_reports :
    (∀ c, isKebabChar c = true ↔ ('a' ≤ c ∧ c ≤ 'z') ∨ ('0' ≤ c ∧ c ≤ '9')) ∧
    (∀ name : Text,
      (isKebab name = true ↔ name ∈ kebabNames) ∧ (name ∈ kebabNames ↔ IsKebab name) ∧
      (IsKebab name ↔ ∀ run ∈ name.splitOn '-', run ≠ [] ∧ ∀ c ∈ run, isKebabChar c = true)) ∧
    (∀ s : Subject, s.manifest.isMissing = false → (structureCheck.run s).misnamed =
      (s.components.toList.filter fun c => ¬ IsKebab c.name).map StructureCheck.misnamedIssue) ∧
    (∀ (t : FileTree) (root : Path), t.WellNamed →
      ∀ c ∈ (discover t root).toList, c.NamedByPath root) ∧
    ∀ (s : Subject) (m : Manifest) (name : Text), s.manifest = .loaded m →
      m.name = some (.text name) → (manifestCheck.run s).misnamed =
        if IsKebab name then [] else [(ManifestCheck.misnamedIssue m name).stamp .manifest] := by
  refine ⟨fun c => isKebabChar_iff, fun name => ⟨isKebab_iff_mem_kebabNames, ?_, ?_⟩,
    fun s h => StructureCheck.misnamed_run s h,
    fun t root h c hc => namedByPath_of_mem_discover h hc,
    fun s m name hloaded hname => ManifestCheck.misnamed_run hloaded hname⟩
  · rw [← isKebab_iff_mem_kebabNames, isKebab_iff]
  · rw [← isKebab_iff, isKebab_iff_splitOn]

/-- A manifest with a name in title case. -/
def titledText : Text := "\x7b\"name\": \"My Plugin\"\x7d".toList

def titledManifest : Manifest :=
  .ofMembers [("name".toList, .string "My Plugin".toList)] titledText

/-- A plugin with this manifest and a command that is named like it. -/
def titledPlugin : FileTree where
  nodes :=
    [(["p".toList], .directory), (["p".toList, manifestDirectory.toList], .directory),
      (["p".toList, manifestDirectory.toList, "plugin.json".toList], .file (.text titledText)),
      (["p".toList, "commands".toList], .directory),
      (["p".toList, "commands".toList, "Run.md".toList], .file (.text "Run it".toList))]
  base := []

/-- Its command. -/
def titledCommand : Component where
  kind := .command
  path := ⟨"/p/commands/Run.md".toList⟩
  label := "commands/Run.md".toList
  content := .ok "Run it".toList

/-- What the checks look at in it. -/
def titledSubject : Subject := .ofRoot titledPlugin ⟨"/p".toList⟩ .standard .approximate false

theorem titledManifest_loaded : titledSubject.manifest = .loaded titledManifest := by
  have hread : titledPlugin.readText (manifestPath ⟨"/p".toList⟩) = .ok titledText := by decide
  have hparse : Json.parse titledText =
      .ok (.object [("name".toList, .string "My Plugin".toList)]) := by decide +kernel
  simp only [titledSubject, Subject.ofRoot]
  exact ManifestSource.load_of_members hread hparse

theorem titledCommand_mem : titledCommand ∈ (discover titledPlugin ⟨"/p".toList⟩).toList := by
  have hfile : "Run.md".toList ∈ documentNames titledPlugin ⟨"/p".toList⟩ .command := by
    refine mem_documentNames_iff.mpr ⟨⟨["p".toList, "commands".toList],
      ["p".toList, "commands".toList, "Run.md".toList], ⟨by decide, by decide, .inl ?_⟩⟩, by decide,
      by decide⟩
    exact ⟨by decide, rfl⟩
  have hcommand : Component.load titledPlugin ⟨"/p".toList⟩ .command
      (documentPath ⟨"/p".toList⟩ .command "Run.md".toList) = titledCommand := rfl
  rw [← hcommand]
  exact load_mem_discover (by decide) hfile

theorem components_titledSubject :
    titledSubject.components = discover titledPlugin ⟨"/p".toList⟩ := by
  simp only [titledSubject, Subject.ofRoot]

theorem titledPlugin_reports :
    titledSubject.manifest.isMissing = false ∧ titledPlugin.WellNamed ∧
    titledCommand ∈ (discover titledPlugin ⟨"/p".toList⟩).toList ∧
    titledCommand.NamedByPath ⟨"/p".toList⟩ ∧ titledCommand.name = "Run".toList ∧
    StructureCheck.misnamedIssue titledCommand ∈ (structureCheck.run titledSubject).misnamed ∧
    titledSubject.manifest = .loaded titledManifest ∧
    titledManifest.name = some (.text "My Plugin".toList) ∧
    (manifestCheck.run titledSubject).misnamed =
      [(ManifestCheck.misnamedIssue titledManifest "My Plugin".toList).stamp .manifest] := by
  obtain ⟨-, -, hcomponents, hnames, hplugin⟩ := kebab_case_decides_name_reports
  have hmissing : titledSubject.manifest.isMissing = false := by
    rw [titledManifest_loaded]
    rfl
  have hnamed : titledPlugin.WellNamed := by
    unfold FileTree.WellNamed
    decide
  have hname : titledCommand.name = "Run".toList := by decide
  have hcommand : ¬ IsKebab titledCommand.name := by
    rw [← isKebab_iff, hname]
    decide
  refine ⟨hmissing, hnamed, titledCommand_mem, hnames _ _ hnamed _ titledCommand_mem, hname, ?_,
    titledManifest_loaded, rfl, ?_⟩
  · rw [hcomponents _ hmissing, components_titledSubject]
    exact List.mem_map_of_mem (List.mem_filter.mpr ⟨titledCommand_mem, decide_eq_true hcommand⟩)
  · rw [hplugin _ _ _ titledManifest_loaded rfl, if_neg]
    rw [← isKebab_iff]
    decide

end PluginLint
