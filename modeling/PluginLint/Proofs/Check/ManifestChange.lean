import PluginLint.Proofs.Check.ManifestRules
import PluginLint.Proofs.Command.SkillDirectories
import PluginLint.Proofs.Document.Sections
import PluginLint.Proofs.FileTree.Rewriting
import PluginLint.Proofs.Report.Requirements

/-!
# What another manifest changes

The requirements on a manifest depend on its members and on what lies around it, and its text only
gives them their lines. A manifest that is written anew leaves everything around it as it was
(`ManifestCheck.resembles_rewrite`): the skills are found where they were, and even a skill whose
entry document is the manifest itself is reported as before, since an object has no header.
-/
namespace PluginLint

/-! ## Requirements on members -/

namespace ManifestCheck

variable {t : FileTree} {root : Path} {members members' : List (Text × Json)} {raw raw' : Text}

/-- The manifest gives an issue on a field its line and nothing else. -/
theorem withoutLine_fieldIssue (m m' : Manifest) (key : String) (severity : Severity)
    (message : Text) : (fieldIssue m key severity message).withoutLine =
      (fieldIssue m' key severity message).withoutLine := by
  obtain ⟨line, h⟩ := exists_fieldIssue_eq m key severity message
  obtain ⟨line', h'⟩ := exists_fieldIssue_eq m' key severity message
  rw [h, h']
  rfl

theorem requirements_nameRule (h : ManifestRule.member? members' "name" =
    ManifestRule.member? members "name") :
    requirements [nameRule (Manifest.ofMembers members' raw')] =
      requirements [nameRule (Manifest.ofMembers members raw)] := by
  have hname : (Manifest.ofMembers members' raw').name = (Manifest.ofMembers members raw).name := by
    rw [name_ofMembers, name_ofMembers, h]
  cases hcase : (Manifest.ofMembers members raw).name with
  | none => rw [nameRule, nameRule, hname, hcase]
  | some name =>
    rw [requirements_detail (severity_nameRule (hname.trans hcase)),
      requirements_detail (severity_nameRule hcase)]

theorem requirements_authorRule (h : ManifestRule.member? members' "author" =
    ManifestRule.member? members "author") :
    requirements [authorRule (Manifest.ofMembers members' raw')] =
      requirements [authorRule (Manifest.ofMembers members raw)] := by
  have hauthor : (Manifest.ofMembers members' raw').author =
      (Manifest.ofMembers members raw).author := by
    rw [author_ofMembers, author_ofMembers, h]
  have hsame := withoutLine_fieldIssue (Manifest.ofMembers members' raw')
    (Manifest.ofMembers members raw) "author"
  refine requirements_congr ?_
  unfold authorRule
  rw [hauthor]
  split
  · rfl
  · exact hsame _ _
  · exact Issue.withoutLine_with (hsame _ _) _ _
  · exact Issue.withoutLine_with (hsame _ _) _ _

/-- Whether two subjects are the same to the manifest check but for the manifest. -/
structure Resembles (s s' : Subject) : Prop where
  root : s'.root = s.root
  directory : ∀ p, s'.tree.isDirectory p = s.tree.isDirectory p
  file : ∀ p, s'.tree.isFile p = s.tree.isFile p
  skills : ∀ declared, s'.components.skills.flatMap (skillRule declared) =
    s.components.skills.flatMap (skillRule declared)

/-- What is said on an entry depends on the files and directories that are there. -/
theorem Resembles.withoutLine_entryRule {s s' : Subject} (h : Resembles s s') (m m' : Manifest)
    (entry : CommandEntry) :
    (entryRule s' m' entry).withoutLine = (entryRule s m entry).withoutLine := by
  have hsame := withoutLine_fieldIssue m' m "commands"
  unfold entryRule
  split
  · simp only [pathRule, h.root, h.directory, h.file]
    split
    · exact Issue.withoutLine_with (hsame _ _) _ _
    · split
      · rfl
      · exact hsame _ _
  · exact Issue.withoutLine_with (hsame _ _) _ _

theorem Resembles.isVerified_iff {s s' : Subject} (h : Resembles s s') {item : Json} :
    ManifestRule.IsVerified s'.tree s'.root item ↔ ManifestRule.IsVerified s.tree s.root item := by
  rw [ManifestRule.IsVerified, ManifestRule.IsVerified, h.root]
  simp only [h.directory, h.file]

/-- The requirements that are found in a manifest with commands. -/
theorem requirements_fields (s : Subject) (raw : Text) {items : List Json}
    (h : ManifestRule.member? members "commands" = some (.array items)) (hitems : items ≠ []) :
    requirements (fields s (Manifest.ofMembers members raw)) =
      requirements [nameRule (Manifest.ofMembers members raw)] ++
      requirements [authorRule (Manifest.ofMembers members raw)] ++
      requirements (items.map fun item =>
        entryRule s (Manifest.ofMembers members raw) (.ofJson item)) ++
      requirements (s.components.skills.flatMap (skillRule (ManifestRule.strings items))) := by
  obtain ⟨item, rest, rfl⟩ := List.exists_cons_of_ne_nil hitems
  have hfields (name description author version keywords : Issue) :
      requirements [name, description, author, version, keywords] =
        requirements [name] ++ requirements [description] ++ requirements [author] ++
          requirements [version] ++ requirements [keywords] := by
    simp only [← requirements_append, List.cons_append, List.nil_append]
  rw [fields, commandsRule_of_items s raw h, requirements_append, requirements_append,
    List.map_map, hfields, requirements_detail (severity_descriptionRule _),
    requirements_detail (severity_versionRule _), requirements_detail (severity_keywordsRule _),
    List.append_nil, List.append_nil, List.append_nil, ← List.append_assoc]
  rfl

/-! ## Reports on skills -/

section Skills

variable {c : Component} {declared : List Text} {i : Issue}

theorem skillRule_of_not_isInvocable {content : Text} (hcontent : c.content = .ok content)
    (h : ¬ ManifestRule.IsInvocable content) : skillRule declared c = [] := by
  unfold skillRule
  split
  · rfl
  · rw [hcontent]
    exact if_neg (mt userInvocable_iff.mp h)

theorem skillRule_of_declared (h : declaredPath c ∈ declared) : skillRule declared c = [] :=
  if_pos (List.contains_iff_mem.mpr h)

/-- One more path makes no difference to a skill with another path. -/
theorem skillRule_concat_of_ne {path : Text} (h : declaredPath c ≠ path) :
    skillRule (declared ++ [path]) c = skillRule declared c := by
  have hsame : (declared ++ [path]).contains (declaredPath c) =
      declared.contains (declaredPath c) := by
    simp [h]
  unfold skillRule
  rw [hsame]

/-- A skill has one report at most, a requirement on its entry document. When it says that the skill
is not declared it names the path. -/
theorem of_mem_skillRule (h : i ∈ skillRule declared c) :
    skillRule declared c = [i] ∧ i.severity = .must ∧ i.file = some c.label ∧
      (i.message = "Undeclared user-invocable skill".toList → i.source = some (declaredPath c)) := by
  have hundeclared (line : Nat) : (undeclared c line).severity = .must ∧
      (undeclared c line).file = some c.label ∧
      (undeclared c line).source = some (declaredPath c) := by
    obtain ⟨line', hline⟩ := exists_undeclared_eq c line
    rw [hline]
    exact ⟨rfl, rfl, rfl⟩
  unfold skillRule at h ⊢
  split at h
  · cases h
  · next hdeclared =>
    rw [if_neg hdeclared]
    split at h
    · obtain rfl := List.mem_singleton.mp h
      refine ⟨rfl, rfl, rfl, fun hmessage => ?_⟩
      simp [Component.cannotRead, Issue.cannotRead] at hmessage
    · obtain ⟨hinvocable, hi⟩ := List.mem_ite_nil_right.mp h
      obtain rfl := List.mem_singleton.mp hi
      obtain ⟨hseverity, hfile, hsource⟩ := hundeclared
        ((((Document.parse _).header.field? "user-invocable".toList).map (·.line)).getD 0)
      exact ⟨if_pos hinvocable, hseverity, hfile, fun _ => hsource⟩

end Skills

end ManifestCheck

/-! ## A manifest read as a document -/

/-- Behind a minus sign there is only a number to read. -/
theorem Json.exists_number_of_parse {rest : Text} {value : Json}
    (h : parse ('-' :: rest) = .ok value) : ∃ n, value = .number n := by
  have hread (fuel depth : Nat) : readValue (fuel + 1) depth ('-' :: rest) =
      (readNumber true rest).map fun r => (.number r.1, r.2) := by
    rw [readValue]
    rfl
  rw [parse, readDocument, hread] at h
  cases hnumber : readNumber true rest with
  | error failure =>
    rw [hnumber] at h
    cases h
  | ok found =>
    rw [hnumber] at h
    dsimp only [Except.map, Except.bind] at h
    split at h
    · next heq =>
      split at heq
      · cases heq
        cases h
        exact ⟨_, rfl⟩
      · cases heq
    · cases h

/-- A JSON object has no header, so it does not say that users invoke it. -/
theorem ManifestRule.not_isInvocable_of_object {raw : Text} {members : List (Text × Json)}
    (h : Json.parse raw = .ok (.object members)) : ¬ IsInvocable raw := by
  have hsections : Document.sections? raw = none := by
    rw [Document.sections?, if_neg]
    intro hopen
    obtain ⟨rest, rfl⟩ := List.isPrefixOf_iff_prefix.mp hopen
    obtain ⟨n, hn⟩ := Json.exists_number_of_parse h
    cases hn
  rw [IsInvocable, Document.parse_of_no_sections hsections]
  rintro ⟨value, hvalue, -⟩
  cases hvalue

/-! ## The plugin with another manifest -/

section Rewriting

variable {t t' : FileTree} {root : Path} {place : Location}

theorem FileTree.DiffersInFile.skillNames_eq (h : t.DiffersInFile t' place) :
    skillNames t' root = skillNames t root :=
  h.subdirectoryNames_eq (kindDirectory root .skill)

/-- The skills are found where they were found, with what is read there now. -/
theorem FileTree.DiffersInFile.skills_eq (h : t.DiffersInFile t' place) :
    (discover t' root).skills =
      (discover t root).skills.map fun c => c.withContent (t'.readText c.path) := by
  have hentry : hasEntry t' root = hasEntry t root :=
    funext fun name => h.isFile_eq (entryPath (skillPath root name))
  rw [skills_eq_map, skills_eq_map, h.skillNames_eq, hentry, List.map_map]
  rfl

theorem content_of_mem_skills {c : Component} (hc : c ∈ (discover t root).skills) :
    c.content = t.readText c.path := by
  obtain ⟨path, -, rfl⟩ := List.mem_map.mp hc
  rfl

/-- Another manifest changes nothing in the report on a skill, not even where the entry document of
the skill is the manifest itself. -/
theorem ManifestCheck.skillRule_rewrite {raw raw' : Text} {members members' : List (Text × Json)}
    (hread : t.readText (manifestPath root) = .ok raw)
    (hparse : Json.parse raw = .ok (.object members))
    (hparse' : Json.parse raw' = .ok (.object members')) {c : Component}
    (hc : c ∈ (discover t root).skills) (declared : List Text) :
    skillRule declared
        (c.withContent ((t.rewrite (manifestPath root) raw').readText c.path)) =
      skillRule declared c := by
  have hcontent : c.content = t.readText c.path := content_of_mem_skills hc
  -- the path of the skill may lead to the manifest, through links
  rcases FileTree.readText_rewrite hread raw' c.path with hsame | ⟨hold, hnew⟩
  · rw [hsame, ← hcontent]
    rfl
  · have hcontent' : (c.withContent ((t.rewrite (manifestPath root) raw').readText c.path)).content =
        .ok raw' := hnew
    rw [skillRule_of_not_isInvocable (hcontent.trans hold)
        (ManifestRule.not_isInvocable_of_object hparse),
      skillRule_of_not_isInvocable hcontent' (ManifestRule.not_isInvocable_of_object hparse')]

/-- A plugin with another manifest is the same to the manifest check but for the manifest. -/
theorem ManifestCheck.resembles_rewrite {raw raw' : Text} {members members' : List (Text × Json)}
    (hread : t.readText (manifestPath root) = .ok raw)
    (hparse : Json.parse raw = .ok (.object members))
    (hparse' : Json.parse raw' = .ok (.object members')) (limits : Limits) (counter : Counter)
    (verbose : Bool) :
    Resembles (.ofRoot t root limits counter verbose)
      (.ofRoot (t.rewrite (manifestPath root) raw') root limits counter verbose) := by
  obtain ⟨place, -, -, -, hdiffers⟩ := FileTree.exists_differsInFile_rewrite hread raw'
  refine ⟨rfl, hdiffers.isDirectory_eq, hdiffers.isFile_eq, fun declared => ?_⟩
  change (discover _ root).skills.flatMap _ = (discover t root).skills.flatMap _
  rw [hdiffers.skills_eq, List.flatMap_map]
  exact List.flatMap_congr fun c hc => skillRule_rewrite hread hparse hparse' hc declared

end Rewriting

end PluginLint
