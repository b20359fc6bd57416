import PluginLint.Proofs.Check.Engine

/-!
# How messages start

Four kinds of issues point at a line, one says that a file cannot be read, and their messages start
with other letters than those of all other issues (`reservedStarts`). Rule by rule, what a rule
finds is of one of these five kinds or it is plain.
-/
namespace PluginLint

namespace Issue

variable {i : Issue}

/-- Whether an issue is of one of the kinds that point at a line. -/
def PointsAtLine (i : Issue) : Prop :=
  i.message = "Second-person voice in skill body".toList ∨
    (∃ tool, i.message = "Explicit ".toList ++ tool ++ " tool reference".toList) ∨
    i.message = "Tab character in YAML frontmatter".toList ∨
    i.message = "Hardcoded absolute path".toList

/-- Whether an issue says that a file cannot be read. -/
def SaysUnreadable (i : Issue) : Prop := i.message = "Cannot read file".toList

instance (i : Issue) : Decidable i.SaysUnreadable := inferInstanceAs (Decidable (_ = _))

end Issue

/-- How the messages start that point at a line. -/
def pointerStarts : List Text := ["Se".toList, "Ex".toList, "Ta".toList, "Ha".toList]

/-- These and how the message starts that a file cannot be read. -/
def reservedStarts : List Text := "Ca".toList :: pointerStarts

namespace Issue

variable {i : Issue}

/-- Whether the message of an issue starts in none of these ways. -/
def IsPlain (i : Issue) : Prop := i.message.take 2 ∉ reservedStarts

theorem start_of_pointsAtLine (h : i.PointsAtLine) : i.message.take 2 ∈ pointerStarts := by
  rcases h with h | ⟨tool, h⟩ | h | h <;> rw [h] <;> simp [pointerStarts]

theorem not_pointsAtLine (h : i.message.take 2 ∉ pointerStarts) : ¬ i.PointsAtLine :=
  fun hi => h (start_of_pointsAtLine hi)

theorem IsPlain.not_pointsAtLine (h : i.IsPlain) : ¬ i.PointsAtLine :=
  Issue.not_pointsAtLine fun hstart => h (List.mem_cons_of_mem _ hstart)

theorem IsPlain.not_saysUnreadable (h : i.IsPlain) : ¬ i.SaysUnreadable := by
  intro hi
  rw [IsPlain, hi] at h
  exact h (by decide)

theorem SaysUnreadable.not_pointsAtLine (h : i.SaysUnreadable) : ¬ i.PointsAtLine := by
  apply Issue.not_pointsAtLine
  rw [h]
  decide

theorem PointsAtLine.not_saysUnreadable (h : i.PointsAtLine) : ¬ i.SaysUnreadable :=
  fun hi => hi.not_pointsAtLine h

theorem saysUnreadable_cannotRead (file reason : Text) : (cannotRead file reason).SaysUnreadable :=
  rfl

theorem message_atLine (i : Issue) (line : Nat) : (i.atLine line).message = i.message := by
  unfold atLine
  split <;> rfl

end Issue

section Rules

open Issue

variable {file : Text} {i : Issue}

/-! ## Rules that point at lines -/

theorem FrontmatterCheck.pointsAtLine_of_mem_tabRule {number : Nat} {ls : List Text}
    (h : i ∈ tabRule file number ls) : i.PointsAtLine := by
  induction ls generalizing number with
  | nil => cases h
  | cons line rest ih =>
    unfold tabRule at h
    split at h
    · obtain rfl := List.mem_singleton.mp h
      exact .inr (.inr (.inl rfl))
    · exact ih h

theorem FrontmatterCheck.pointsAtLine_of_mem_voiceRule {number : Nat} {ls : List Text}
    (h : i ∈ voiceRule file number ls) : i.PointsAtLine := by
  induction ls generalizing number with
  | nil => cases h
  | cons line rest ih =>
    rcases List.mem_append.mp h with hline | hrest
    · obtain ⟨-, hi⟩ := List.mem_ite_nil_right.mp hline
      obtain rfl := List.mem_singleton.mp hi
      exact .inl (message_atLine _ _)
    · exact ih hrest

theorem StructureCheck.pointsAtLine_of_mem_scriptPaths {number : Nat} {ls : List Text}
    (h : i ∈ scriptPaths file number ls) : i.PointsAtLine := by
  induction ls generalizing number with
  | nil => cases h
  | cons line rest ih =>
    rcases List.mem_append.mp h with hline | hrest
    · obtain ⟨-, hi⟩ := List.mem_ite_nil_right.mp hline
      obtain rfl := List.mem_singleton.mp hi
      exact .inr (.inr (.inr rfl))
    · exact ih hrest

theorem ToolsCheck.pointsAtLine_of_mem_placedIssues {number : Nat} {line : Text}
    (h : i ∈ placedIssues file number line) : i.PointsAtLine := by
  obtain ⟨found, hfound, rfl⟩ := List.mem_map.mp h
  have htool : ∃ tool, found.message = "Explicit ".toList ++ tool ++ " tool reference".toList := by
    unfold scanLine at hfound
    split at hfound
    · cases hfound
    · simp only [List.mem_append, List.mem_ite_nil_right, List.mem_singleton] at hfound
      rcases hfound with (⟨-, rfl⟩ | ⟨-, rfl⟩) | ⟨-, rfl⟩
      · exact ⟨"core".toList, by decide⟩
      · exact ⟨"Bash".toList, by decide⟩
      · exact ⟨"Task".toList, by decide⟩
  obtain ⟨tool, hmessage⟩ := htool
  exact .inr (.inl ⟨tool, (message_atLine found number).trans hmessage⟩)

/-! ## Rules with plain issues -/

namespace FrontmatterCheck

theorem isPlain_headerMissing : (headerMissing file).IsPlain := by
  simp [IsPlain, headerMissing, reservedStarts, pointerStarts]

theorem isPlain_missing (key suggestion : String) : (missing file key suggestion).IsPlain := by
  simp [IsPlain, missing, toString, String.toList_append, reservedStarts, pointerStarts]

theorem isPlain_valueIssue (key : String) (field : Field) (severity : Severity)
    {message : String} (suggestion : String) (h : message.toList.take 2 ∉ reservedStarts) :
    (valueIssue file key field severity message suggestion).IsPlain := by
  unfold IsPlain
  rwa [valueIssue, message_atLine]

/-- A detail starts with its key. -/
theorem isPlain_present {key : String} (field : Field)
    (h : key.toList.take 2 ∉ reservedStarts) (hlong : 2 ≤ key.toList.length) :
    (present file key field).IsPlain := by
  unfold IsPlain
  rwa [present, message_atLine, List.append_assoc, List.append_assoc,
    List.take_append_of_le_length hlong]

theorem isPlain_choice {key : String} (allowed : List String) (value : Option Field)
    (h : key.toList.take 2 ∉ reservedStarts) (hlong : 2 ≤ key.toList.length) :
    (choice file key allowed value).IsPlain := by
  unfold choice
  split
  · exact isPlain_missing _ _
  · split
    · exact isPlain_present _ h hlong
    · exact isPlain_valueIssue _ _ _ _
        (by simp [toString, String.toList_append, reservedStarts, pointerStarts])

theorem isPlain_commandRules {f : Fields} (h : i ∈ commandRules file f) : i.IsPlain := by
  rcases List.mem_append.mp h with hfirst | hshell
  · obtain rfl := List.mem_singleton.mp hfirst
    split
    · exact isPlain_present _ (by decide) (by decide)
    · exact isPlain_missing _ _
  · split at hshell
    · obtain rfl := List.mem_singleton.mp hshell
      exact isPlain_valueIssue _ _ _ _ (by decide)
    · cases hshell

theorem isPlain_agentRules {f : Fields} (h : i ∈ agentRules file f) : i.IsPlain := by
  simp only [agentRules, List.mem_append, List.mem_ite_nil_right, List.mem_cons,
    List.not_mem_nil, or_false] at h
  rcases h with (rfl | ⟨-, rfl⟩) | rfl | rfl
  · unfold agentName
    split
    · exact isPlain_missing _ _
    · split
      · exact isPlain_present _ (by decide) (by decide)
      · exact isPlain_valueIssue _ _ _ _ (by decide)
  · exact isPlain_missing _ _
  · exact isPlain_choice _ _ (by decide) (by decide)
  · exact isPlain_choice _ _ (by decide) (by decide)

theorem isPlain_skillFields {f : Fields}
    (h : i ∈ [skillName file f.name, skillDescription file f.description]) :
    i.IsPlain := by
  rcases List.mem_pair.mp h with rfl | rfl
  · unfold skillName
    split
    · exact isPlain_present _ (by decide) (by decide)
    · exact isPlain_missing _ _
  · unfold skillDescription
    split
    · exact isPlain_missing _ _
    · split
      · exact isPlain_valueIssue _ _ _ _ (by decide)
      · exact isPlain_present _ (by decide) (by decide)

end FrontmatterCheck

theorem ToolsCheck.isPlain_shellRule {f : Fields} (h : i ∈ shellRule file f) : i.IsPlain := by
  unfold shellRule at h
  split at h
  · obtain rfl := List.mem_singleton.mp h
    unfold IsPlain
    simp [message_atLine, reservedStarts, pointerStarts]
  · cases h

namespace StructureCheck

variable {s : Subject}

theorem isPlain_manifestMissing : manifestMissing.IsPlain := by
  simp [IsPlain, manifestMissing, reservedStarts, pointerStarts]

theorem isPlain_manifestFound : manifestFound.IsPlain := by
  simp [IsPlain, manifestFound, reservedStarts, pointerStarts]

theorem isPlain_misplaced {kind : ComponentKind} (h : i ∈ misplaced s kind) : i.IsPlain := by
  simp only [misplaced, List.mem_ite_nil_right, List.mem_singleton] at h
  obtain ⟨-, rfl⟩ := h
  unfold IsPlain
  cases kind <;> simp [toString, ComponentKind.directory, reservedStarts, pointerStarts]

theorem isPlain_naming {c : Component} (h : i ∈ naming c) : i.IsPlain := by
  simp only [naming, List.mem_ite_nil_left, List.mem_singleton] at h
  obtain ⟨-, rfl⟩ := h
  unfold IsPlain
  cases hkind : c.kind <;> simp [toString, ComponentKind.word, reservedStarts, pointerStarts]

theorem isPlain_entryMissing {directory : Path} (h : i ∈ entryMissing s directory) : i.IsPlain := by
  simp only [entryMissing, List.mem_ite_nil_left, List.mem_singleton] at h
  obtain ⟨-, rfl⟩ := h
  simp [IsPlain, toString, reservedStarts, pointerStarts]

theorem isPlain_generic {name : String} (h : i ∈ generic s name) : i.IsPlain := by
  simp only [generic, List.mem_ite_nil_right, List.mem_singleton] at h
  obtain ⟨-, rfl⟩ := h
  simp [IsPlain, toString, String.toList_append, reservedStarts, pointerStarts]

theorem isPlain_readmeMissing (h : i ∈ readmeMissing s) : i.IsPlain := by
  simp only [readmeMissing, List.mem_ite_nil_left, List.mem_singleton] at h
  obtain ⟨-, rfl⟩ := h
  simp [IsPlain, reservedStarts, pointerStarts]

/-- The rule on script paths alone points at lines. -/
theorem exists_scriptConfig_of_mem_inspect (h : i ∈ (inspect s).issues) (hi : i.PointsAtLine) :
    s.manifest.isMissing = false ∧ ∃ file ∈ scriptConfigs, i ∈ scriptConfig s file.toList := by
  simp only [inspect] at h
  split at h
  · obtain rfl := List.mem_singleton.mp h
    exact absurd hi isPlain_manifestMissing.not_pointsAtLine
  · next hmanifest =>
    refine ⟨Bool.eq_false_iff.mpr hmanifest, ?_⟩
    simp only [layout, List.mem_append, List.mem_flatMap, List.mem_singleton] at h
    rcases h with (((((rfl | ⟨_, -, h⟩) | ⟨_, -, h⟩) | ⟨_, -, h⟩) | hscript) | ⟨_, -, h⟩) | h
    · exact absurd hi isPlain_manifestFound.not_pointsAtLine
    · exact absurd hi (isPlain_misplaced h).not_pointsAtLine
    · exact absurd hi (isPlain_naming h).not_pointsAtLine
    · exact absurd hi (isPlain_entryMissing h).not_pointsAtLine
    · exact hscript
    · exact absurd hi (isPlain_generic h).not_pointsAtLine
    · exact absurd hi (isPlain_readmeMissing h).not_pointsAtLine

end StructureCheck

namespace ManifestCheck

variable {s : Subject} {m : Manifest}

@[simp] theorem message_fieldIssue (key : String) (severity : Severity) (message : Text) :
    (fieldIssue m key severity message).message = message := by
  rw [fieldIssue, message_atLine]

/-- How the messages on a manifest start that are not about a skill. -/
def messageStarts : List Text :=
  ["Mi".toList, "Pl".toList, "na".toList, "de".toList, "au".toList, "No".toList, "Ve".toList,
    "ve".toList, "ke".toList, "'c".toList, "In".toList, "Co".toList]

/-- How those of them start that are not about the name of the plugin either. -/
def otherStarts : List Text :=
  ["Mi".toList, "de".toList, "au".toList, "No".toList, "Ve".toList, "ve".toList, "ke".toList,
    "'c".toList, "In".toList, "Co".toList]

theorem mem_messageStarts {start : Text} (h : start ∈ otherStarts) : start ∈ messageStarts := by
  have hsubset : ∀ start ∈ otherStarts, start ∈ messageStarts := by decide
  exact hsubset start h

theorem start_nameRule : (nameRule m).message.take 2 ∈ messageStarts := by
  unfold nameRule
  split
  · simp [issue, messageStarts]
  · split <;> simp [messageStarts]

theorem start_of_mem_otherRules
    (h : i ∈ [descriptionRule m, authorRule m, versionRule m, keywordsRule m]) :
    i.message.take 2 ∈ otherStarts := by
  simp only [List.mem_cons, List.not_mem_nil, or_false] at h
  rcases h with rfl | rfl | rfl | rfl
  · unfold descriptionRule
    split <;> simp [issue, otherStarts]
  · unfold authorRule
    split <;> simp [issue, authorNameless, otherStarts]
  · unfold versionRule
    split
    · simp [issue, otherStarts]
    · split <;> simp [otherStarts]
  · unfold keywordsRule
    split <;> simp [issue, otherStarts]

theorem start_of_mem_fieldRules
    (h : i ∈ [nameRule m, descriptionRule m, authorRule m, versionRule m, keywordsRule m]) :
    i.message.take 2 ∈ messageStarts := by
  rcases List.mem_cons.mp h with rfl | hother
  · exact start_nameRule
  · exact mem_messageStarts (start_of_mem_otherRules hother)

theorem start_entryRule (entry : CommandEntry) :
    (entryRule s m entry).message.take 2 ∈ otherStarts := by
  unfold entryRule
  split
  · simp only [pathRule]
    split
    · simp [otherStarts]
    · split <;> simp [otherStarts]
  · simp [badEntry, otherStarts]

/-- Beside the name of the plugin, what is found in a manifest starts in one of these ways or is
about a skill, and then there are entries. -/
theorem start_of_mem_beside_name
    (h : i ∈ [descriptionRule m, authorRule m, versionRule m, keywordsRule m] ++ commandsRule s m) :
    i.message.take 2 ∈ otherStarts ∨
    ∃ entry rest, m.commands = some (.entries (entry :: rest)) ∧
      ∃ c ∈ s.components.skills, i ∈ skillRule m.commandPaths c := by
  rcases List.mem_append.mp h with hother | hcommands
  · exact .inl (start_of_mem_otherRules hother)
  · unfold commandsRule at hcommands
    split at hcommands
    · cases hcommands
    · obtain rfl := List.mem_singleton.mp hcommands
      exact .inl (by simp [otherStarts])
    · obtain rfl := List.mem_singleton.mp hcommands
      exact .inl (by simp [otherStarts])
    · next entries hempty hentries =>
      rcases List.mem_append.mp hcommands with hentry | hskill
      · obtain ⟨entry, -, rfl⟩ := List.mem_map.mp hentry
        exact .inl (start_entryRule entry)
      · obtain ⟨entry, rest, rfl⟩ := List.exists_cons_of_ne_nil hempty
        exact .inr ⟨entry, rest, hentries, List.mem_flatMap.mp hskill⟩

/-- What is found in a manifest starts as messages on one do or is about a skill, and then there are
entries. -/
theorem start_of_mem_fields (h : i ∈ fields s m) : i.message.take 2 ∈ messageStarts ∨
    ∃ entry rest, m.commands = some (.entries (entry :: rest)) ∧
      ∃ c ∈ s.components.skills, i ∈ skillRule m.commandPaths c := by
  rcases List.mem_cons.mp h with rfl | hbeside
  · exact .inl start_nameRule
  · exact (start_of_mem_beside_name hbeside).imp_left mem_messageStarts

theorem isPlain_of_start (h : i.message.take 2 ∈ messageStarts) : i.IsPlain := by
  have hdisjoint : ∀ start ∈ messageStarts, start ∉ reservedStarts := by decide
  exact hdisjoint _ h

theorem isPlain_undeclared (skill : Component) (line : Nat) : (undeclared skill line).IsPlain := by
  rw [IsPlain, undeclared, message_atLine]
  simp [reservedStarts, pointerStarts]

theorem start_of_mem_skillRule {declared : List Text} {skill : Component}
    (h : i ∈ skillRule declared skill) : i.message.take 2 ∈ ["Ca".toList, "Un".toList] := by
  unfold skillRule at h
  split at h
  · cases h
  · split at h
    · obtain rfl := List.mem_singleton.mp h
      simp [Component.cannotRead, Issue.cannotRead]
    · simp only [List.mem_ite_nil_right, List.mem_singleton] at h
      obtain ⟨-, rfl⟩ := h
      simp [undeclared, message_atLine]

theorem not_pointsAtLine_skillRule {declared : List Text} {skill : Component}
    (h : i ∈ skillRule declared skill) : ¬ i.PointsAtLine := by
  have hdisjoint : ∀ start ∈ ["Ca".toList, "Un".toList], start ∉ pointerStarts := by decide
  exact Issue.not_pointsAtLine (hdisjoint _ (start_of_mem_skillRule h))

theorem not_pointsAtLine_fields (h : i ∈ fields s m) : ¬ i.PointsAtLine := by
  rcases start_of_mem_fields h with hstart | ⟨-, -, -, skill, -, hskill⟩
  · exact (isPlain_of_start hstart).not_pointsAtLine
  · exact not_pointsAtLine_skillRule hskill

theorem isPlain_missing : (issue .must "plugin.json not found").IsPlain := by
  simp [IsPlain, issue, reservedStarts, pointerStarts]

theorem isPlain_invalid {j : Issue} (h : j.message = "Invalid JSON syntax".toList) (line : Nat) :
    (j.atLine line).IsPlain := by
  rw [IsPlain, message_atLine, h]
  decide

theorem not_pointsAtLine_inspect (h : i ∈ (inspect s).issues) : ¬ i.PointsAtLine := by
  unfold inspect at h
  split at h
  · obtain rfl := List.mem_singleton.mp h
    exact isPlain_missing.not_pointsAtLine
  · obtain rfl := List.mem_singleton.mp h
    exact (saysUnreadable_cannotRead _ _).not_pointsAtLine
  · obtain rfl := List.mem_singleton.mp h
    exact (isPlain_invalid rfl _).not_pointsAtLine
  · exact not_pointsAtLine_fields h

end ManifestCheck

namespace TokensCheck

variable {s : Subject}

theorem isPlain_bodyRule (b : SkillBudget) (limits : Limits) :
    (bodyRule file b limits).IsPlain := by
  unfold IsPlain
  simp only [bodyRule, bandIssue]
  split
  · simp [plain, toString, String.toList_append, reservedStarts, pointerStarts]
  · simp [plain, toString, String.toList_append, reservedStarts, pointerStarts]
  · split <;> simp [plain, toString, String.toList_append, reservedStarts, pointerStarts]

/-- The figures start with two blanks. -/
theorem isPlain_breakdown {u : Units} {limits : Limits} (h : i ∈ breakdown u limits) :
    i.IsPlain := by
  have hlines {files : List FileUnits} (hi : i ∈ fileLines files) : i.IsPlain := by
    obtain ⟨f, -, rfl⟩ := List.mem_map.mp hi
    simp [IsPlain, reservedStarts, pointerStarts]
  simp only [breakdown, List.mem_append, List.mem_cons, List.not_mem_nil, or_false] at h
  rcases h with ((head | references) | scripts) | rfl
  · unfold IsPlain
    rcases head with rfl | rfl | rfl <;>
      simp [plain, toString, String.toList_append, reservedStarts, pointerStarts]
  · exact hlines references
  · split at scripts
    · cases scripts
    · rcases List.mem_cons.mp scripts with rfl | files
      · simp [IsPlain, plain, toString, String.toList_append, reservedStarts, pointerStarts]
      · exact hlines files
  · simp [IsPlain, plain, toString, String.toList_append, reservedStarts, pointerStarts]

theorem isPlain_metadataRule {b : SkillBudget} {limits : Limits}
    (h : i ∈ metadataRule file b limits) : i.IsPlain := by
  simp only [metadataRule, List.mem_ite_nil_right, List.mem_singleton] at h
  obtain ⟨-, rfl⟩ := h
  simp [IsPlain, plain, toString, String.toList_append, reservedStarts, pointerStarts]

theorem saysUnreadable_of_mem_readRules {b : SkillBudget} (h : i ∈ readRules file b) :
    i.SaysUnreadable := by
  obtain ⟨_, -, rfl⟩ := List.mem_map.mp h
  exact saysUnreadable_cannotRead _ _

theorem not_pointsAtLine_budgetRules {b : SkillBudget} {limits : Limits} {verbose : Bool}
    (h : i ∈ budgetRules file b limits verbose) : ¬ i.PointsAtLine := by
  simp only [budgetRules, List.mem_append, List.mem_singleton, List.mem_ite_nil_right] at h
  rcases h with ((rfl | hmetadata) | hread) | ⟨-, hbreakdown⟩
  · exact (isPlain_bodyRule b limits).not_pointsAtLine
  · exact (isPlain_metadataRule hmetadata).not_pointsAtLine
  · exact (saysUnreadable_of_mem_readRules hread).not_pointsAtLine
  · exact (isPlain_breakdown hbreakdown).not_pointsAtLine

theorem not_pointsAtLine_skillRules {skill : Component} (h : i ∈ skillRules s skill) :
    ¬ i.PointsAtLine := by
  unfold skillRules at h
  split at h
  · obtain rfl := List.mem_singleton.mp h
    exact (saysUnreadable_cannotRead _ _).not_pointsAtLine
  · split at h
    · exact not_pointsAtLine_budgetRules h
    · cases h

theorem isPlain_noDirectory : (plain .may "No skills/ directory").IsPlain := by
  simp [IsPlain, plain, reservedStarts, pointerStarts]

theorem isPlain_noSkills : (noSkills s).IsPlain := by
  have hmessage : (noSkills s).message = "No skills found".toList := rfl
  rw [IsPlain, hmessage]
  decide

theorem not_pointsAtLine_inspect (h : i ∈ (inspect s).issues) : ¬ i.PointsAtLine := by
  unfold inspect at h
  split at h
  · obtain rfl := List.mem_singleton.mp h
    exact isPlain_noDirectory.not_pointsAtLine
  · split at h
    · obtain rfl := List.mem_singleton.mp h
      exact isPlain_noSkills.not_pointsAtLine
    · obtain ⟨skill, -, hskill⟩ := List.mem_flatMap.mp h
      exact not_pointsAtLine_skillRules hskill

end TokensCheck

end Rules

end PluginLint
