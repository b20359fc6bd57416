import PluginLint.Proofs.Check.Isolation
import PluginLint.Proofs.Check.NumberedLines
import PluginLint.Proofs.Check.Messages
import PluginLint.Proofs.Document.FieldLines

/-!
# Issues on header fields

What the frontmatter check and the tools check find is about a whole file, a field that is not
there, a line of text or else about a field of a header (`IsOnField`). Rule by rule, an issue of the
last sort quotes the field and stands at its line, and so does the report on a skill that has to be
declared, at the field that says so. The line of a field is a line of the header that has its key,
so a reader who follows the issue finds the key there (`field_issues_point_at_keys`).
-/
namespace PluginLint

namespace Issue

/-- Whether an issue is about a field of a header that is there. -/
structure IsOnField (i : Issue) : Prop where
  readable : i.message ≠ "Cannot read file".toList
  headed : i.message ≠ "No YAML frontmatter found".toList
  there : ∀ key : Text, i.message ≠ "Missing '".toList ++ key ++ "' in frontmatter".toList
  not_on_line : ¬ i.PointsAtLine

/-- Whether an issue shows a key with a value, as the text that it is about or in its message. -/
def Quotes (i : Issue) (key value : Text) : Prop :=
  i.source = some (key ++ ": ".toList ++ value) ∨
    i.message = key ++ ": \"".toList ++ value ++ ['"']

/-- Whether an issue stands at the line of a field, which is a line of the header with its key. -/
structure PointsAtField (i : Issue) (file content key : Text) (field : Field) : Prop where
  in_file : i.file = some file
  of_header : (Document.parse content).header.field? key = some field
  at_line : i.line = some field.line
  has_key : Document.IsFieldLine content key field.line

/-- Whether an issue quotes some field of a document and points at it, if it is about one. -/
def FitsField (i : Issue) (file content : Text) : Prop :=
  i.IsOnField → ∃ key field, i.Quotes key field.value ∧ i.PointsAtField file content key field

variable {i : Issue} {file content key : Text} {field : Field}

theorem pointsAtField_atLine (h : (Document.parse content).header.field? key = some field)
    (hfile : i.file = some file) : (i.atLine field.line).PointsAtField file content key field where
  in_file := by
    obtain ⟨line, hline⟩ := i.exists_atLine_eq field.line
    rw [hline, ← hfile]
  of_header := h
  at_line := by rw [atLine_of_pos i (Document.isFieldLine_of_field? h).1]
  has_key := Document.isFieldLine_of_field? h

theorem source_atLine (i : Issue) (line : Nat) : (i.atLine line).source = i.source := by
  unfold atLine
  split <;> rfl

end Issue

/-! ## The rules on fields -/

section Fields

open Issue

variable {file content : Text} {key : String} {field : Field} {i : Issue}

namespace FrontmatterCheck

theorem fitsField_missing (key suggestion : String) :
    (missing file key suggestion).FitsField file content := by
  intro hi
  refine absurd ?_ (hi.there key.toList)
  simp [missing, toString, String.toList_append]

theorem fitsField_present (h : (Document.parse content).header.field? key.toList = some field) :
    (present file key field).FitsField file content := by
  intro _
  refine ⟨key.toList, field, .inr ?_, pointsAtField_atLine h rfl⟩
  rw [present, message_atLine]

theorem fitsField_valueIssue (h : (Document.parse content).header.field? key.toList = some field)
    (severity : Severity) (message suggestion : String) :
    (valueIssue file key field severity message suggestion).FitsField file content := by
  intro _
  refine ⟨key.toList, field, .inl ?_, pointsAtField_atLine h rfl⟩
  rw [valueIssue, source_atLine]

theorem fitsField_choice (key : String) (allowed : List String) :
    (choice file key allowed
      ((Document.parse content).header.field? key.toList)).FitsField file content := by
  unfold choice
  split
  · exact fitsField_missing _ _
  · next field hfield =>
    split
    · exact fitsField_present hfield
    · exact fitsField_valueIssue hfield _ _ _

theorem fitsField_of_mem_commandRules
    (h : i ∈ commandRules file (Fields.ofHeader (Document.parse content).header)) :
    i.FitsField file content := by
  rcases List.mem_append.mp h with hdescription | hshell
  · obtain rfl := List.mem_singleton.mp hdescription
    split
    · next field hfield => exact fitsField_present hfield
    · exact fitsField_missing _ _
  · split at hshell
    · next field hfield =>
      obtain rfl := List.mem_singleton.mp hshell
      exact fitsField_valueIssue (Option.filter_eq_some_iff.mp hfield).1 _ _ _
    · cases hshell

theorem fitsField_of_mem_agentRules
    (h : i ∈ agentRules file (Fields.ofHeader (Document.parse content).header)) :
    i.FitsField file content := by
  simp only [agentRules, List.mem_append, List.mem_ite_nil_right, List.mem_cons,
    List.not_mem_nil, or_false] at h
  rcases h with (rfl | ⟨-, rfl⟩) | rfl | rfl
  · unfold agentName
    split
    · exact fitsField_missing _ _
    · next field hfield =>
      split
      · exact fitsField_present hfield
      · exact fitsField_valueIssue hfield _ _ _
  · exact fitsField_missing _ _
  · exact fitsField_choice _ _
  · exact fitsField_choice _ _

theorem fitsField_of_mem_skillRules
    (h : i ∈ skillRules file (Fields.ofHeader (Document.parse content).header)
      (Document.parse content)) : i.FitsField file content := by
  rcases List.mem_append.mp h with hfields | hvoice
  · rcases List.mem_pair.mp hfields with rfl | rfl
    · unfold skillName
      split
      · next field hfield => exact fitsField_present hfield
      · exact fitsField_missing _ _
    · unfold skillDescription
      split
      · exact fitsField_missing _ _
      · next field hfield =>
        split
        · exact fitsField_valueIssue hfield _ _ _
        · exact fitsField_present hfield
  · intro hi
    exact absurd (pointsAtLine_of_mem_voiceRule hvoice) hi.not_on_line

theorem fitsField_of_mem_documentRules {kind : ComponentKind}
    (h : i ∈ documentRules kind file content) : i.FitsField file content := by
  simp only [documentRules] at h
  split at h
  · obtain rfl := List.mem_singleton.mp h
    exact fun hi => absurd rfl hi.headed
  · rcases List.mem_append.mp h with htab | hfields
    · exact fun hi => absurd (pointsAtLine_of_mem_tabRule htab) hi.not_on_line
    · cases kind with
      | command => exact fitsField_of_mem_commandRules hfields
      | agent => exact fitsField_of_mem_agentRules hfields
      | skill => exact fitsField_of_mem_skillRules hfields

end FrontmatterCheck

theorem ToolsCheck.fitsField_of_mem_documentRules (h : i ∈ documentRules file content) :
    i.FitsField file content := by
  rcases List.mem_append.mp h with hprose | hshell
  · obtain ⟨p, -, hplaced⟩ := List.mem_flatMap.mp hprose
    exact fun hi => absurd (pointsAtLine_of_mem_placedIssues hplaced) hi.not_on_line
  · unfold shellRule at hshell
    split at hshell
    · next field hfield =>
      obtain rfl := List.mem_singleton.mp hshell
      intro _
      refine ⟨"allowed-tools".toList, field, .inl ?_,
        pointsAtField_atLine (Option.filter_eq_some_iff.mp hfield).1 rfl⟩
      rw [source_atLine]
      rfl
    · cases hshell

/-- The report on a skill that has to be declared stands at the field of its header that says so. -/
theorem ManifestCheck.pointsAtField_of_mem_skillRule {declared : List Text} {skill : Component}
    (h : i ∈ skillRule declared skill) (hi : i.message = "Undeclared user-invocable skill".toList) :
    ∃ content field, skill.content = .ok content ∧
      i.PointsAtField skill.label content "user-invocable".toList field := by
  unfold skillRule at h
  split at h
  · cases h
  · split at h
    · obtain rfl := List.mem_singleton.mp h
      cases hi
    · next content hcontent =>
      obtain ⟨hasks, hundeclared⟩ := List.mem_ite_nil_right.mp h
      obtain rfl := List.mem_singleton.mp hundeclared
      obtain ⟨value, hvalue, -⟩ := Option.bind_eq_some_iff.mp hasks
      obtain ⟨field, hfield, -⟩ := Option.map_eq_some_iff.mp hvalue
      refine ⟨content, field, hcontent, ?_⟩
      rw [hfield]
      exact pointsAtField_atLine hfield rfl

end Fields

/-! ## Runs -/

/-- Whether an issue is about a component of a plugin and points at a field of its header. -/
def Subject.ShowsField (s : Subject) (i : Issue) (key : Text) (field : Field) : Prop :=
  ∃ c ∈ s.components.toList, ∃ content, c.content = .ok content ∧
    i.PointsAtField c.label content key field

section Runs

variable {s : Subject} {i : Issue}

/-- Marking an issue as belonging to a check leaves its place as it is. -/
theorem Issue.PointsAtField.stamp {file content key : Text} {field : Field}
    (h : i.PointsAtField file content key field) (kind : CheckKind) :
    (i.stamp kind).PointsAtField file content key field :=
  ⟨h.in_file, h.of_header, h.at_line, h.has_key⟩

/-- What a check finds that goes through the components fits the fields of their headers when what
it finds in each document does. -/
theorem Check.showsField_of_mem_run {c : Check} {rules : Component → Text → List Issue}
    (hinspect : (c.inspect s).issues = s.components.toList.flatMap fun component =>
      match component.content with
      | .error fault => [component.cannotRead fault]
      | .ok content => rules component content)
    (hfits : ∀ component content, ∀ found ∈ rules component content,
      found.FitsField component.label content)
    (h : i ∈ (c.run s).issues) (hi : i.IsOnField) :
    ∃ key field, i.Quotes key field.value ∧ s.ShowsField i key field := by
  rw [run, record_eq] at h
  obtain ⟨found, hkept, rfl⟩ := List.mem_map.mp h
  have hfound := List.mem_of_mem_filter hkept
  rw [hinspect] at hfound
  obtain ⟨component, hmem, hrule⟩ := List.mem_flatMap.mp hfound
  cases hcontent : component.content with
  | error fault =>
    rw [hcontent] at hrule
    obtain rfl := List.mem_singleton.mp hrule
    exact absurd rfl hi.readable
  | ok content =>
    rw [hcontent] at hrule
    obtain ⟨key, field, hquotes, hpoints⟩ := hfits component content found hrule
      ⟨hi.readable, hi.headed, hi.there, hi.not_on_line⟩
    exact ⟨key, field, hquotes, component, hmem, content, hcontent, hpoints.stamp c.kind⟩

theorem showsField_of_mem_frontmatterCheck (h : i ∈ (frontmatterCheck.run s).issues)
    (hi : i.IsOnField) : ∃ key field, i.Quotes key field.value ∧ s.ShowsField i key field :=
  Check.showsField_of_mem_run rfl
    (fun _ _ _ => FrontmatterCheck.fitsField_of_mem_documentRules) h hi

theorem showsField_of_mem_toolsCheck (h : i ∈ (toolsCheck.run s).issues) (hi : i.IsOnField) :
    ∃ key field, i.Quotes key field.value ∧ s.ShowsField i key field :=
  Check.showsField_of_mem_run rfl (fun _ _ _ => ToolsCheck.fitsField_of_mem_documentRules) h hi

/-- No rule on the manifest itself speaks of a skill that has to be declared. -/
theorem showsField_of_mem_manifestCheck (h : i ∈ (manifestCheck.run s).issues)
    (hi : i.message = "Undeclared user-invocable skill".toList) :
    ∃ field, s.ShowsField i "user-invocable".toList field := by
  rw [Check.run, Check.record_eq] at h
  obtain ⟨found, hkept, rfl⟩ := List.mem_map.mp h
  have hmessage : found.message = "Undeclared user-invocable skill".toList := hi
  have hfound : found ∈ (ManifestCheck.inspect s).issues := List.mem_of_mem_filter hkept
  unfold ManifestCheck.inspect at hfound
  split at hfound
  · obtain rfl := List.mem_singleton.mp hfound
    cases hmessage
  · obtain rfl := List.mem_singleton.mp hfound
    cases hmessage
  · obtain rfl := List.mem_singleton.mp hfound
    rw [Issue.message_atLine] at hmessage
    cases hmessage
  · rcases ManifestCheck.start_of_mem_fields hfound with hstart | ⟨-, -, -, skill, hskill, hrule⟩
    · rw [hmessage] at hstart
      exact absurd hstart (by decide)
    · obtain ⟨content, field, hcontent, hpoints⟩ :=
        ManifestCheck.pointsAtField_of_mem_skillRule hrule hmessage
      exact ⟨field, skill, List.mem_append_right _ hskill, content, hcontent, hpoints.stamp _⟩

end Runs

/-- The fields of a header have different keys, each stands further down than the one before it, and
each on a line of the header that has its key. So what the frontmatter and tools checks find about
fields that are there quotes a field and points at a line with its key, and so does every report on
a skill that has to be declared. -/
theorem field_issues_point_at_keys :
    (∀ content, (Document.parse content).header.keys.Nodup ∧
      ((Document.parse content).header.fields.map fun entry => entry.2.line).Pairwise (· < ·) ∧
      ∀ entry ∈ (Document.parse content).header.fields,
        Document.IsFieldLine content entry.1 entry.2.line) ∧
    ∀ s : Subject,
      (∀ i ∈ (frontmatterCheck.run s).issues ++ (toolsCheck.run s).issues, i.IsOnField →
        ∃ key field, i.Quotes key field.value ∧ s.ShowsField i key field) ∧
      ∀ i ∈ (manifestCheck.run s).issues, i.message = "Undeclared user-invocable skill".toList →
        ∃ field, s.ShowsField i "user-invocable".toList field := by
  constructor
  · intro content
    exact ⟨Document.keys_nodup content, Document.lines_pairwise content,
      fun _ hentry => Document.isFieldLine_of_mem hentry⟩
  · intro s
    refine ⟨fun i hi hon => ?_, fun i hi hmessage => showsField_of_mem_manifestCheck hi hmessage⟩
    rcases List.mem_append.mp hi with hfrontmatter | htools
    · exact showsField_of_mem_frontmatterCheck hfrontmatter hon
    · exact showsField_of_mem_toolsCheck htools hon

/-- A header that starts behind the delimiter on its line, with a fold and a key that comes twice. -/
def crampedSkill : Text := "--- name: s\ndescription:\n  short\nname: t\n---".toList

def crampedPlugin : Subject where
  tree := ⟨[], []⟩
  root := ⟨[]⟩
  components :=
    { commands := []
      agents := []
      skills :=
        [⟨.skill, ⟨"skills/s/SKILL.md".toList⟩, "skills/s/SKILL.md".toList, .ok crampedSkill⟩] }
  manifest := .missing
  limits := .standard
  counter := .approximate
  verbose := true

/-- The issue on the description, as it is recorded. -/
def crampedIssue : Issue where
  severity := .should
  check := .frontmatter
  message := "Description too short".toList
  file := some "skills/s/SKILL.md".toList
  line := some 2
  source := some "description: short".toList
  suggestion := some "Add more detail about when this skill should be used".toList

theorem crampedIssue_points_at_key :
    (Document.parse crampedSkill).header.fields =
      [("name".toList, ⟨['t'], 1⟩), ("description".toList, ⟨"short".toList, 2⟩)] ∧
    Document.IsFieldLine crampedSkill "name".toList 1 ∧
    crampedIssue ∈ (frontmatterCheck.run crampedPlugin).issues ∧ crampedIssue.IsOnField ∧
    ∃ key field, crampedIssue.Quotes key field.value ∧
      crampedPlugin.ShowsField crampedIssue key field := by
  obtain ⟨hheaders, hruns⟩ := field_issues_point_at_keys
  have hfields : (Document.parse crampedSkill).header.fields =
      [("name".toList, ⟨['t'], 1⟩), ("description".toList, ⟨"short".toList, 2⟩)] := by decide
  have hname : ("name".toList, (⟨['t'], 1⟩ : Field)) ∈
      (Document.parse crampedSkill).header.fields := by
    rw [hfields]
    exact List.mem_cons_self
  have hmem : crampedIssue ∈ (frontmatterCheck.run crampedPlugin).issues := by decide
  have hon : crampedIssue.IsOnField := {
    readable := by decide
    headed := by decide
    there := by
      intro key h
      have hfirst := congrArg List.head? h
      exact absurd hfirst (by simp [crampedIssue])
    not_on_line := Issue.not_pointsAtLine (by decide) }
  exact ⟨hfields, (hheaders crampedSkill).2.2 _ hname, hmem, hon,
    (hruns crampedPlugin).1 crampedIssue (List.mem_append_left _ hmem) hon⟩

end PluginLint
