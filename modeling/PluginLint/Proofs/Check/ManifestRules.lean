import Mathlib.Data.List.Permutation
import PluginLint.Proofs.Check.ManifestTable
import PluginLint.Proofs.Check.Messages
import PluginLint.Proofs.Check.NumberedLines
import PluginLint.Proofs.Check.RuleBooks

/-!
# The rules on the manifest

The manifest check answers its table of rules, field by field, entry by entry and skill by skill.
So the requirements that a run records are the reports on the violated rules and nothing else, and
a plugin passes exactly when none is violated (`manifest_rules_reported`).
-/
namespace PluginLint

namespace ManifestCheck

/-- The rules on the manifest of a plugin. They cover the requirements. -/
def rules (t : FileTree) (root : Path) (members : List (Text × Json)) : RuleBook ManifestRule where
  severity _ := .must
  Covers severity := severity = .must
  Violated := ManifestRule.Violated t root members
  decidable := inferInstance
  Reports rule i := i.ReportsManifest t root members rule
  not_covers_ok := Severity.noConfusion
  severity_of_reports h := h.severity
  reports_stamp _ h := ⟨h.severity, h.message, by
    have hnamed := h.named
    unfold ManifestRule.NamedBy at hnamed ⊢
    split at hnamed <;> exact hnamed⟩

variable {t : FileTree} {root : Path} {members : List (Text × Json)} {raw : Text}

/-! ## Fields -/

theorem name_ofMembers : (Manifest.ofMembers members raw).name =
    (ManifestRule.member? members "name").map Scalar.ofJson := rfl

theorem author_ofMembers : (Manifest.ofMembers members raw).author =
    (ManifestRule.member? members "author").map Manifest.authorOf := rfl

theorem commands_ofMembers : (Manifest.ofMembers members raw).commands =
    (ManifestRule.member? members "commands").map Manifest.commandsOf := rfl

theorem exists_fieldIssue_eq (m : Manifest) (key : String) (severity : Severity) (message : Text) :
    ∃ line, fieldIssue m key severity message =
      { severity := severity, message := message, file := some manifestLabel.toList,
        line := line } :=
  Issue.exists_atLine_eq _ _

@[simp] theorem severity_fieldIssue (m : Manifest) (key : String) (severity : Severity)
    (message : Text) : (fieldIssue m key severity message).severity = severity := by
  obtain ⟨line, h⟩ := exists_fieldIssue_eq m key severity message
  rw [h]

@[simp] theorem file_fieldIssue (m : Manifest) (key : String) (severity : Severity)
    (message : Text) :
    (fieldIssue m key severity message).file = some manifestLabel.toList := by
  obtain ⟨line, h⟩ := exists_fieldIssue_eq m key severity message
  rw [h]

/-- Whatever name a manifest has, there is no requirement on it. -/
theorem severity_nameRule {m : Manifest} {name : Scalar} (h : m.name = some name) :
    (nameRule m).severity ≠ .must := by
  unfold nameRule
  rw [h]
  dsimp only
  split <;> simp

theorem severity_descriptionRule (m : Manifest) : (descriptionRule m).severity ≠ .must := by
  unfold descriptionRule
  split
  · simp
  · exact Severity.noConfusion

theorem severity_versionRule (m : Manifest) : (versionRule m).severity ≠ .must := by
  unfold versionRule
  split
  · exact Severity.noConfusion
  · split <;> simp

theorem severity_keywordsRule (m : Manifest) : (keywordsRule m).severity ≠ .must := by
  unfold keywordsRule
  split
  · simp
  · exact Severity.noConfusion

theorem answered_nameRule : (rules t root members).Answered [.name]
    [nameRule (Manifest.ofMembers members raw)] := by
  cases h : ManifestRule.member? members "name" with
  | none =>
    have hname : (Manifest.ofMembers members raw).name = none := by
      rw [name_ofMembers, h, Option.map_none]
    rw [nameRule, hname]
    exact .of_reports h ⟨rfl, rfl, rfl⟩
  | some value =>
    have hname : (Manifest.ofMembers members raw).name = some (.ofJson value) := by
      rw [name_ofMembers, h, Option.map_some]
    have hobeyed : ¬ (ManifestRule.name).Violated t root members := by
      simp [ManifestRule.Violated, h]
    exact (RuleBook.Answered.of_obeyed hobeyed).append (.detail (severity_nameRule hname))

theorem exists_person_iff {author : Json} :
    (∃ name, Manifest.authorOf author = .person (some name)) ↔
      ManifestRule.NamesAuthor author := by
  cases author with
  | object fields =>
    have hnames : ManifestRule.NamesAuthor (.object fields) ↔
        ∃ name ∈ Json.member? "name".toList fields, name ≠ .null := by
      constructor
      · rintro ⟨_, hfields, hname⟩
        cases hfields
        exact hname
      · intro hname
        exact ⟨fields, rfl, hname⟩
    rw [hnames]
    unfold Manifest.authorOf
    dsimp only
    generalize Json.member? "name".toList fields = name
    cases name with
    | none => simp
    | some name => cases name <;> simp
  | _ => simp [Manifest.authorOf, ManifestRule.NamesAuthor]

theorem exists_authorNameless {m : Manifest} {author : Author} (h : m.author = some author)
    (hnameless : ¬ ∃ name, author = .person (some name)) :
    ∃ shown, authorRule m = authorNameless m shown := by
  unfold authorRule
  rw [h]
  cases author with
  | other value => exact ⟨_, rfl⟩
  | person name =>
    cases name with
    | none => exact ⟨_, rfl⟩
    | some name => exact absurd ⟨name, rfl⟩ hnameless

theorem answered_authorRule : (rules t root members).Answered [.author]
    [authorRule (Manifest.ofMembers members raw)] := by
  cases h : ManifestRule.member? members "author" with
  | none =>
    have hauthor : (Manifest.ofMembers members raw).author = none := by
      rw [author_ofMembers, h, Option.map_none]
    have hrule : (ManifestRule.author).Violated t root members := by
      simp [ManifestRule.Violated, h]
    have hmessage : ManifestRule.message t root members .author =
        "Missing 'author' field".toList := if_pos h
    unfold authorRule
    rw [hauthor]
    exact .of_reports hrule ⟨rfl, hmessage.symm, rfl⟩
  | some value =>
    have hauthor : (Manifest.ofMembers members raw).author =
        some (Manifest.authorOf value) := by
      rw [author_ofMembers, h, Option.map_some]
    have hrule : (ManifestRule.author).Violated t root members ↔
        ¬ ManifestRule.NamesAuthor value := by
      simp [ManifestRule.Violated, h]
    by_cases hnamed : ManifestRule.NamesAuthor value
    · obtain ⟨name, hname⟩ := exists_person_iff.mpr hnamed
      have hdetail : (authorRule (Manifest.ofMembers members raw)).severity ≠ .must := by
        unfold authorRule
        rw [hauthor, hname]
        simp
      exact (RuleBook.Answered.of_obeyed fun hbad => hrule.mp hbad hnamed).append (.detail hdetail)
    · obtain ⟨shown, hshown⟩ := exists_authorNameless hauthor (mt exists_person_iff.mp hnamed)
      have hmessage : ManifestRule.message t root members .author =
          "Missing 'author.name' field".toList := if_neg (by simp [h])
      rw [hshown]
      exact .of_reports (hrule.mpr hnamed)
        ⟨severity_fieldIssue _ _ _ _, (message_fieldIssue _ _ _).trans hmessage.symm,
          file_fieldIssue _ _ _ _⟩

/-! ## Entries and skills -/

theorem commandPath?_eq_filter (item : Json) :
    ManifestRule.commandPath? item = (CommandEntry.ofJson item).path?.filter isCommandPath := by
  cases item with
  | string path =>
    have hentry : (CommandEntry.ofJson (.string path)).path? = some path := rfl
    rw [hentry, ManifestRule.commandPath?]
    by_cases h : IsCommandPath path
    · rw [if_pos h, Option.filter_some_pos (isCommandPath_iff.mpr h)]
    · rw [if_neg h, Option.filter_some_neg (Bool.eq_false_iff.mpr (mt isCommandPath_iff.mp h))]
  | _ => rfl

theorem isVerified_iff {item : Json} : ManifestRule.IsVerified t root item ↔
    ∃ path, ManifestRule.commandPath? item = some path ∧
      t.isDirectory (root.join (trimSlashes path)) = true ∧
      t.isFile (entryPath (root.join (trimSlashes path))) = true := by
  cases item with
  | string path =>
    by_cases h : IsCommandPath path <;>
      simp [ManifestRule.IsVerified, ManifestRule.commandPath?, h]
  | _ => simp [ManifestRule.IsVerified, ManifestRule.commandPath?]

theorem plainText_eq_text (item : Json) : plainText item = (CommandEntry.ofJson item).text := by
  cases item <;> rfl

/-- The report on an entry that is a command path says what is missing and names the path. -/
theorem reports_path {item : Json} {path : Text} {i : Issue}
    (hpath : ManifestRule.commandPath? item = some path) (hseverity : i.severity = .must)
    (hmessage : i.message = ManifestRule.pathMessage t root path)
    (hnamed : i.source = some ('"' :: (path ++ ['"'])) ∨ i.file = some (trimDots path)) :
    i.ReportsManifest t root members (.entry item) := by
  have hentry : ManifestRule.entryMessage t root item =
      ManifestRule.pathMessage t root path := by
    rw [ManifestRule.entryMessage, hpath]
  have hnames : ManifestRule.NamesEntry i item := by
    rw [ManifestRule.NamesEntry, hpath]
    exact hnamed
  exact ⟨hseverity, hmessage.trans hentry.symm, hnames⟩

theorem reports_badEntry {item : Json} (m : Manifest)
    (hpath : ManifestRule.commandPath? item = none) :
    (badEntry m (.ofJson item)).ReportsManifest t root members (.entry item) := by
  have hentry : ManifestRule.entryMessage t root item =
      "Invalid path format: ".toList ++ (CommandEntry.ofJson item).text := by
    rw [ManifestRule.entryMessage, hpath, plainText_eq_text]
  have hnames : ManifestRule.NamesEntry (badEntry m (.ofJson item)) item := by
    rw [ManifestRule.NamesEntry, hpath]
    exact file_fieldIssue _ _ _ _
  exact ⟨severity_fieldIssue _ _ _ _, (message_fieldIssue _ _ _).trans hentry.symm, hnames⟩

theorem answered_pathRule (s : Subject) (m : Manifest) {item : Json} {path : Text}
    (hpath : ManifestRule.commandPath? item = some path) :
    (rules s.tree s.root members).Answered [.entry item] [pathRule s m path] := by
  have hrule : (ManifestRule.entry item).Violated s.tree s.root members ↔
      ¬ (s.tree.isDirectory (s.root.join (trimSlashes path)) = true ∧
        s.tree.isFile (entryPath (s.root.join (trimSlashes path))) = true) := by
    simp [ManifestRule.Violated, isVerified_iff, hpath]
  unfold pathRule
  by_cases hdirectory : s.tree.isDirectory (s.root.join (trimSlashes path)) = true
  · have hmessage : ManifestRule.pathMessage s.tree s.root path =
        "Missing SKILL.md in command".toList := if_pos hdirectory
    by_cases hfile : s.tree.isFile (entryPath (s.root.join (trimSlashes path))) = true
    · simp only [hdirectory, hfile, Bool.not_true, Bool.false_eq_true, if_false]
      refine (RuleBook.Answered.of_obeyed fun hbad => ?_).append (.detail ?_)
      · exact hrule.mp hbad ⟨hdirectory, hfile⟩
      · exact fun hmust => Severity.noConfusion ((severity_fieldIssue _ _ _ _).symm.trans hmust)
    · simp only [hdirectory, hfile, Bool.not_true, Bool.not_false, Bool.false_eq_true, if_false,
        if_true]
      exact .of_reports (hrule.mpr fun hgood => hfile hgood.2)
        (reports_path hpath rfl hmessage.symm (.inr rfl))
  · have hmessage : ManifestRule.pathMessage s.tree s.root path =
        "Command path not found".toList := if_neg hdirectory
    simp only [hdirectory, Bool.not_false, if_true]
    exact .of_reports (hrule.mpr fun hgood => hdirectory hgood.1)
      (reports_path hpath (severity_fieldIssue _ _ _ _)
        ((message_fieldIssue _ _ _).trans hmessage.symm) (.inl rfl))

/-- An entry gets one report when it leads to no entry document, and none when it does. -/
theorem answered_entryRule (s : Subject) (m : Manifest) (item : Json) :
    (rules s.tree s.root members).Answered [.entry item] [entryRule s m (.ofJson item)] := by
  unfold entryRule
  rw [← commandPath?_eq_filter]
  cases hpath : ManifestRule.commandPath? item with
  | some path => exact answered_pathRule s m hpath
  | none =>
    have hrule : (ManifestRule.entry item).Violated s.tree s.root members := by
      simp [ManifestRule.Violated, isVerified_iff, hpath]
    exact .of_reports hrule (reports_badEntry m hpath)

theorem truthValue?_iff {value : Text} : truthValue? value = some true ↔
    Text.lowercase (Text.trim value) ∈ ["true".toList, "yes".toList, "on".toList, "1".toList] := by
  rw [← List.contains_iff_mem]
  unfold truthValue?
  dsimp only
  split
  · next h => exact iff_of_true rfl h
  · next h =>
    refine iff_of_false ?_ h
    split <;> simp

theorem userInvocable_iff {content : Text} :
    (Fields.ofHeader (Document.parse content).header).userInvocable = some true ↔
      ManifestRule.IsInvocable content := by
  rw [ManifestRule.IsInvocable, Fields.ofHeader, Option.bind_eq_some_iff]
  simp only [truthValue?_iff, Option.mem_def]

/-- The line of the report on a skill is all that depends on where its header says so. -/
theorem exists_undeclared_eq (c : Component) (number : Nat) :
    ∃ line, undeclared c number =
      { severity := .must
        message := "Undeclared user-invocable skill".toList
        file := some c.label
        line := line
        source := some (declaredPath c)
        suggestion := some ("Add \"".toList ++ declaredPath c ++
          "\" to \"commands\" array in plugin.json".toList) } :=
  Issue.exists_atLine_eq _ _

/-- A skill gets one report when it has to be declared or cannot be read, and none otherwise. -/
theorem answered_skillRule (c : Component) : (rules t root members).Answered [.skill c]
    (skillRule (ManifestRule.strings (ManifestRule.listed members)) c) := by
  unfold skillRule
  by_cases hdeclared : declaredPath c ∈ ManifestRule.strings (ManifestRule.listed members)
  · rw [if_pos (List.contains_iff_mem.mpr hdeclared)]
    exact .of_obeyed fun hbad => hbad (.inl hdeclared)
  · rw [if_neg (mt List.contains_iff_mem.mp hdeclared)]
    have hrule : (ManifestRule.skill c).Violated t root members ↔
        ∀ content, c.content = .ok content → ManifestRule.IsInvocable content := by
      have hundeclared : "./skills/".toList ++ c.name ++ ['/'] ∉
          ManifestRule.strings (ManifestRule.listed members) := hdeclared
      simp only [ManifestRule.Violated, ManifestRule.IsAccountedFor, hundeclared, false_or,
        not_exists, not_and, not_not]
    cases hcontent : c.content with
    | error fault =>
      have hmessage : ManifestRule.skillMessage c = "Cannot read file".toList := by
        rw [ManifestRule.skillMessage, hcontent]
      refine .of_reports (hrule.mpr ?_) ⟨rfl, hmessage.symm, rfl⟩
      simp [hcontent]
    | ok content =>
      have hmessage : ManifestRule.skillMessage c = "Undeclared user-invocable skill".toList := by
        rw [ManifestRule.skillMessage, hcontent]
      dsimp only
      by_cases hinvocable : ManifestRule.IsInvocable content
      · rw [if_pos (userInvocable_iff.mpr hinvocable)]
        obtain ⟨line, hline⟩ := exists_undeclared_eq c
          ((((Document.parse content).header.field? "user-invocable".toList).map (·.line)).getD 0)
        rw [hline]
        refine .of_reports (hrule.mpr ?_) ⟨rfl, hmessage.symm, rfl⟩
        rw [hcontent]
        rintro _ ⟨rfl⟩
        exact hinvocable
      · rw [if_neg (mt userInvocable_iff.mp hinvocable)]
        exact .of_obeyed fun hbad => hinvocable (hrule.mp hbad content hcontent)

/-! ## Commands -/

theorem commandPaths_eq (items : List Json) :
    (items.map CommandEntry.ofJson).filterMap CommandEntry.path? = ManifestRule.strings items := by
  rw [List.filterMap_map, ManifestRule.strings]
  refine List.filterMap_congr fun item _ => ?_
  cases item <;> rfl

theorem not_violated_commands {item : Json} {rest : List Json}
    (h : ManifestRule.member? members "commands" = some (.array (item :: rest))) :
    ¬ (ManifestRule.commands).Violated t root members := by
  simp [ManifestRule.Violated, ManifestRule.IsListing, h]

/-- With entries that are listed, these are looked at and then the skills. -/
theorem commandsRule_of_items (s : Subject) (raw : Text) {item : Json} {rest : List Json}
    (h : ManifestRule.member? members "commands" = some (.array (item :: rest))) :
    commandsRule s (Manifest.ofMembers members raw) =
      ((item :: rest).map CommandEntry.ofJson).map (entryRule s (Manifest.ofMembers members raw)) ++
        s.components.skills.flatMap (skillRule (ManifestRule.strings (item :: rest))) := by
  have hcommands : (Manifest.ofMembers members raw).commands =
      some (.entries ((item :: rest).map CommandEntry.ofJson)) := by
    rw [commands_ofMembers, h]
    rfl
  have hpaths : (Manifest.ofMembers members raw).commandPaths =
      ManifestRule.strings (item :: rest) := by
    rw [Manifest.commandPaths, hcommands]
    exact commandPaths_eq (item :: rest)
  unfold commandsRule
  rw [hcommands, hpaths]
  rfl

/-- Entries and then skills are answered one by one. -/
theorem answered_entries (s : Subject) (m : Manifest) {items : List Json}
    (h : ManifestRule.listed members = items) :
    (rules s.tree s.root members).Answered
      (items.map .entry ++ s.components.skills.map .skill)
      ((items.map CommandEntry.ofJson).map (entryRule s m) ++
        s.components.skills.flatMap (skillRule (ManifestRule.strings items))) := by
  rw [List.map_map, List.map_eq_flatMap, List.map_eq_flatMap, List.map_eq_flatMap, ← h]
  exact (RuleBook.Answered.flatMap fun item _ => answered_entryRule s m item).append
    (.flatMap fun c _ => answered_skillRule c)

/-- Commands that are no list with something in it get one report, and nothing else is looked at. -/
theorem answered_noListing {value : Json} {i : Issue}
    (h : ManifestRule.member? members "commands" = some value)
    (hlisting : ¬ ManifestRule.IsListing value) (hseverity : i.severity = .must)
    (hmessage : i.message = ManifestRule.commandsMessage members)
    (hfile : i.file = some manifestLabel.toList) :
    (rules t root members).Answered [.commands] [i] := by
  have hrule : (ManifestRule.commands).Violated t root members := ⟨value, h, hlisting⟩
  exact .of_reports hrule ⟨hseverity, hmessage, hfile⟩

/-- The commands are answered as a whole when they are no list with something in it, and entry by
entry and then skill by skill when they are. -/
theorem answered_commandsRule (s : Subject) :
    (rules s.tree s.root members).Answered
      ([.commands] ++
        match ManifestRule.listed members with
        | [] => []
        | items => items.map .entry ++ s.components.skills.map .skill)
      (commandsRule s (Manifest.ofMembers members raw)) := by
  have hcommands : (Manifest.ofMembers members raw).commands =
      (ManifestRule.member? members "commands").map Manifest.commandsOf := commands_ofMembers
  cases h : ManifestRule.member? members "commands" with
  | none =>
    have hrule : ¬ (ManifestRule.commands).Violated s.tree s.root members := by
      simp [ManifestRule.Violated, h]
    unfold commandsRule
    rw [hcommands, ManifestRule.listed, h]
    exact .of_obeyed hrule
  | some value =>
    cases value with
    | array items =>
      cases items with
      | nil =>
        unfold commandsRule
        rw [hcommands, ManifestRule.listed_of_array h, h]
        refine answered_noListing h (by simp [ManifestRule.IsListing]) (severity_fieldIssue _ _ _ _)
          ((message_fieldIssue _ _ _).trans ?_) (file_fieldIssue _ _ _ _)
        rw [ManifestRule.commandsMessage, h]
      | cons item rest =>
        have hrule : ¬ (ManifestRule.commands).Violated s.tree s.root members :=
          not_violated_commands h
        rw [commandsRule_of_items s raw h, ManifestRule.listed_of_array h]
        exact (RuleBook.Answered.of_obeyed hrule).append
          (answered_entries s (Manifest.ofMembers members raw) (ManifestRule.listed_of_array h))
    | _ =>
      unfold commandsRule
      rw [hcommands, ManifestRule.listed, h]
      refine answered_noListing h (by simp [ManifestRule.IsListing]) (severity_fieldIssue _ _ _ _)
        ((message_fieldIssue _ _ _).trans ?_) (file_fieldIssue _ _ _ _)
      rw [ManifestRule.commandsMessage, h]

/-- The fields of a manifest answer its table of rules, and what is found in the others are no
requirements. -/
theorem answered_fields (s : Subject) :
    (rules s.tree s.root members).Answered (ManifestRule.table s.components.skills members)
      (fields s (Manifest.ofMembers members raw)) := by
  have hdescription : (rules s.tree s.root members).Answered []
      [descriptionRule (.ofMembers members raw)] := .detail (severity_descriptionRule _)
  have hauthor : (rules s.tree s.root members).Answered [.author]
      [authorRule (.ofMembers members raw)] := answered_authorRule
  have hversion : (rules s.tree s.root members).Answered []
      [versionRule (.ofMembers members raw)] := .detail (severity_versionRule _)
  have hkeywords : (rules s.tree s.root members).Answered []
      [keywordsRule (.ofMembers members raw)] := .detail (severity_keywordsRule _)
  exact (answered_nameRule.append (hdescription.append
    (hauthor.append (hversion.append hkeywords)))).append (answered_commandsRule s)

end ManifestCheck

/-! ## Runs -/

section Runs

variable {t : FileTree} {root : Path} {members : List (Text × Json)} {raw : Text}

theorem FileTree.isFile_of_readText {p : Path} {text : Text} (h : t.readText p = .ok text) :
    t.isFile p = true := by
  unfold readText at h
  unfold isFile find?
  split at h
  · cases h
  · next location hlocate =>
    rw [hlocate]
    dsimp only
    split at h
    · next hnode => rw [hnode]
    all_goals cases h

/-- A manifest is loaded when its file is read and holds an object. -/
theorem ManifestSource.load_of_members (hread : t.readText (manifestPath root) = .ok raw)
    (hparse : Json.parse raw = .ok (.object members)) :
    load t root = .loaded (Manifest.ofMembers members raw) := by
  simp only [load, FileTree.isFile_of_readText hread, if_true, hread, parse, hparse]

/-- With an object for a manifest its fields are looked at. -/
theorem ManifestCheck.inspect_of_members (hread : t.readText (manifestPath root) = .ok raw)
    (hparse : Json.parse raw = .ok (.object members)) (limits : Limits) (counter : Counter)
    (verbose : Bool) : manifestCheck.inspect (.ofRoot t root limits counter verbose) =
      ⟨fields (.ofRoot t root limits counter verbose) (.ofMembers members raw), false⟩ := by
  have hload : (Subject.ofRoot t root limits counter verbose).manifest =
      .loaded (Manifest.ofMembers members raw) := ManifestSource.load_of_members hread hparse
  simp only [manifestCheck, inspect, hload]

/-- With an object for a manifest a run answers the table of rules. -/
theorem ManifestCheck.answered_run (hread : t.readText (manifestPath root) = .ok raw)
    (hparse : Json.parse raw = .ok (.object members)) (limits : Limits) (counter : Counter)
    (verbose : Bool) : (rules t root members).Answered
      (ManifestRule.table (discover t root).skills members)
      (manifestCheck.run (.ofRoot t root limits counter verbose)).issues := by
  rw [Check.issues_run, inspect_of_members hread hparse]
  exact (answered_fields (.ofRoot t root limits counter verbose)).kept _ _

/-- Where no object is read, one requirement says why. -/
theorem ManifestCheck.exists_inspect_eq {s : Subject}
    (h : ∀ m, s.manifest ≠ .loaded m) : ∃ i, inspect s = ⟨[i], false⟩ ∧ i.severity = .must := by
  unfold inspect
  cases hmanifest : s.manifest with
  | missing => exact ⟨_, rfl, rfl⟩
  | unreadable fault => exact ⟨_, rfl, rfl⟩
  | invalid e =>
    obtain ⟨line, hline⟩ := Issue.exists_atLine_eq
      { issue .must "Invalid JSON syntax" with
        source := some s!"{e.message} (column {e.column})".toList
        suggestion := some "Fix JSON syntax error".toList } e.line
    refine ⟨_, rfl, ?_⟩
    rw [hline]
    rfl
  | loaded m => exact absurd hmanifest (h m)

/-- A manifest is loaded from an object alone. -/
theorem ManifestSource.exists_members_of_load {m : Manifest} (h : load t root = .loaded m) :
    ∃ raw members, t.readText (manifestPath root) = .ok raw ∧
      Json.parse raw = .ok (.object members) := by
  simp only [load] at h
  split at h
  · split at h
    · next raw hread =>
      unfold parse at h
      split at h
      · next members hparse => exact ⟨raw, members, hread, hparse⟩
      · cases h
      · cases h
    · cases h
  · cases h

/-- What it takes for no rule of the table to be violated. -/
theorem ManifestRule.all_obeyed_iff (skills : List Component) :
    (∀ rule ∈ table skills members, ¬ Violated t root members rule) ↔
      (∃ name, member? members "name" = some name) ∧
      (∃ author ∈ member? members "author", NamesAuthor author) ∧
      (member? members "commands" = none ∨
        ∃ items, member? members "commands" = some (.array items) ∧ items ≠ [] ∧
          (∀ item ∈ items, IsVerified t root item) ∧
          ∀ c ∈ skills, "./skills/".toList ++ c.name ++ ['/'] ∉ strings items →
            ∃ content, c.content = .ok content ∧ ¬ IsInvocable content) := by
  have hname : ¬ Violated t root members .name ↔ ∃ name, member? members "name" = some name :=
    Option.ne_none_iff_exists'
  have hauthor : ¬ Violated t root members .author ↔
      ∃ author ∈ member? members "author", NamesAuthor author := by
    simp [Violated]
  have hcommands : ¬ Violated t root members .commands ↔
      ∀ value ∈ member? members "commands", IsListing value := by
    simp [Violated]
  have hentry (item : Json) : ¬ Violated t root members (.entry item) ↔
      IsVerified t root item := not_not
  have hskill (c : Component) : ¬ Violated t root members (.skill c) ↔
      ("./skills/".toList ++ c.name ++ ['/'] ∉ strings (listed members) →
        ∃ content, c.content = .ok content ∧ ¬ IsInvocable content) :=
    not_not.trans or_iff_not_imp_left
  rw [table, List.forall_mem_append, List.forall_mem_cons, List.forall_mem_cons,
    List.forall_mem_singleton, hname, hauthor, hcommands, and_assoc, and_assoc]
  refine and_congr_right fun _ => and_congr_right fun _ => ?_
  cases h : member? members "commands" with
  | none => simp [listed, h]
  | some value =>
    cases value with
    | array items =>
      rw [listed_of_array h] at hskill ⊢
      cases items with
      | nil => simp [IsListing]
      | cons item rest =>
        have hlisting : ∀ value ∈ some (Json.array (item :: rest)), IsListing value := by
          rintro _ ⟨rfl⟩
          exact ⟨_, rfl, List.cons_ne_nil _ _⟩
        rw [List.forall_mem_append, List.forall_mem_map, List.forall_mem_map]
        simp only [hentry, hskill]
        constructor
        · intro hall
          exact .inr ⟨_, rfl, List.cons_ne_nil _ _, hall.2⟩
        · rintro (hnone | ⟨items, hitems, -, hall⟩)
          · cases hnone
          · obtain rfl := Json.array.inj (Option.some.inj hitems)
            exact ⟨hlisting, hall⟩
    | _ => simp [IsListing]

end Runs

/-- A manifest with a good entry and one that is no string. -/
def declaringManifest : Text :=
  "\x7b\"author\":\x7b\"name\":\"a\"\x7d,\"commands\":[\"./skills/s/\",null],\"name\":\"p\"\x7d".toList

/-- Its members, sorted by key. -/
def declaringMembers : List (Text × Json) :=
  [("author".toList, .object [("name".toList, .string ['a'])]),
    ("commands".toList, .array [.string "./skills/s/".toList, .null]),
    ("name".toList, .string ['p'])]

/-- A skill for users to invoke. -/
def declaredSkill : Component :=
  ⟨.skill, ⟨"/p/skills/s/SKILL.md".toList⟩, "skills/s/SKILL.md".toList,
    .ok "---\nuser-invocable: yes\n---\n".toList⟩

/-- A plugin with that manifest and that skill. -/
def declaringPlugin : FileTree where
  nodes :=
    [(["p".toList], .directory),
      (["p".toList, manifestDirectory.toList], .directory),
      (["p".toList, manifestDirectory.toList, "plugin.json".toList],
        .file (.text declaringManifest)),
      (["p".toList, "skills".toList], .directory),
      (["p".toList, "skills".toList, "s".toList], .directory),
      (["p".toList, "skills".toList, "s".toList, skillEntry.toList],
        .file (.text "---\nuser-invocable: yes\n---\n".toList))]
  base := []

theorem declaringPlugin_skills :
    (discover declaringPlugin ⟨"/p".toList⟩).skills = [declaredSkill] := by
  have hnames : declaringPlugin.names ["p".toList, "skills".toList] = ["s".toList] :=
    List.mergeSort_singleton "s".toList
  have hplace : declaringPlugin.locate (kindDirectory ⟨"/p".toList⟩ .skill) =
      .ok ["p".toList, "skills".toList] := by decide
  have hdirectory : declaringPlugin.node? ["p".toList, "skills".toList] = some .directory := by
    decide
  have hentries : declaringPlugin.entries (kindDirectory ⟨"/p".toList⟩ .skill) =
      [⟨"s".toList, ⟨"/p/skills/s".toList⟩, ["p".toList, "skills".toList, "s".toList]⟩] := by
    simp only [FileTree.entries, hplace, if_pos hdirectory, hnames]
    rfl
  change skillDocuments declaringPlugin ⟨"/p".toList⟩ = _
  rw [skillDocuments, skillDirectories, hentries]
  rfl

end PluginLint
