import PluginLint.Check.Frontmatter
import PluginLint.Check.Tools
import PluginLint.Proofs.Report.Recording
import PluginLint.Proofs.Text.Search
import PluginLint.Proofs.Text.Trim

/-!
# Access to the shell

A list of tools that names the shell gives it away, and two checks report that. They search the list
as a whole, so a filter for the shell in one entry hides a bare name in another: a list with a bare
name is reported exactly when none of its entries opens a filter
(`bare_shell_reported_iff_no_filter`).
-/
namespace PluginLint

/-! ## Lists of tools -/

/-- The entries of a list of tools, as they are written between commas. -/
def toolEntries (tools : Text) : List Text := tools.splitOn ','

/-- Whether a list of tools has an entry that is the shell's name and nothing else. -/
def NamesBareShell (tools : Text) : Prop :=
  ∃ entry ∈ toolEntries tools, Text.trim entry = "Bash".toList

/-- Whether an entry of a list of tools opens a filter for the shell. -/
def FiltersShell (tools : Text) : Prop :=
  ∃ entry ∈ toolEntries tools, Text.occurs "Bash(".toList entry = true

theorem occurs_shell_of_bare {tools : Text} (h : NamesBareShell tools) :
    Text.occurs "Bash".toList tools = true := by
  obtain ⟨entry, hentry, htrim⟩ := h
  refine (Text.occurs_iff_exists_splitOn (by decide) tools).mpr ⟨entry, hentry, ?_⟩
  rw [Text.occurs_iff_isInfix, ← htrim]
  exact Text.trim_isInfix entry

/-- With a bare name in it, a list counts as unrestricted unless some entry opens a filter. -/
theorem isUnrestrictedShell_iff_of_bare {tools : Text} (h : NamesBareShell tools) :
    isUnrestrictedShell tools = true ↔ ¬ FiltersShell tools := by
  have hfilter : Text.occurs "Bash(".toList tools = true ↔ FiltersShell tools :=
    Text.occurs_iff_exists_splitOn (by decide) tools
  rw [isUnrestrictedShell, occurs_shell_of_bare h, Bool.true_and, Bool.not_eq_true',
    ← Bool.not_eq_true, hfilter]

/-! ## Issues -/

/-- Whether an issue reports that the tools of a file give the shell away. -/
structure Issue.ReportsShell (i : Issue) (file tools : Text) : Prop where
  severity : i.severity = .must
  message : i.message = "Unrestricted Bash in allowed-tools".toList
  file : i.file = some file
  source : i.source = some ("allowed-tools: ".toList ++ tools)

theorem Issue.reportsShell_stamp (kind : CheckKind) (i : Issue) (file tools : Text) :
    (i.stamp kind).ReportsShell file tools ↔ i.ReportsShell file tools :=
  ⟨fun h => ⟨h.severity, h.message, h.file, h.source⟩,
    fun h => ⟨h.severity, h.message, h.file, h.source⟩⟩

/-- A check that goes through the components one by one reports the shell where one of them gives
rise to it. -/
theorem Check.exists_reportsShell_run {c : Check} {rules : Component → List Issue}
    (h : ∀ s : Subject, (c.inspect s).issues = s.components.toList.flatMap rules) (s : Subject)
    (file tools : Text) :
    (∃ i ∈ (c.run s).issues, i.ReportsShell file tools) ↔
      ∃ component ∈ s.components.toList, ∃ i ∈ rules component, i.ReportsShell file tools := by
  have hrecord : (∃ i ∈ (c.run s).issues, i.ReportsShell file tools) ↔
      ∃ i ∈ (c.inspect s).issues, i.ReportsShell file tools :=
    exists_record _ _ _ (fun i => i.reportsShell_stamp _ file tools)
      fun i hi => by simp [hi.severity]
  rw [hrecord, h]
  simp only [List.mem_flatMap]
  constructor
  · rintro ⟨i, ⟨component, hcomponent, hi⟩, hreport⟩
    exact ⟨component, hcomponent, i, hi, hreport⟩
  · rintro ⟨component, hcomponent, i, hi, hreport⟩
    exact ⟨i, ⟨component, hcomponent, hi⟩, hreport⟩

/-- The message on the shell is told from others by its first letter. -/
theorem Issue.not_reportsShell_of_message {i : Issue} (h : i.message.head? ≠ some 'U')
    (file tools : Text) : ¬ i.ReportsShell file tools := fun hi => h (by simp [hi.message])

theorem Issue.not_reportsShell_of_severity {i : Issue} (h : i.severity ≠ .must)
    (file tools : Text) : ¬ i.ReportsShell file tools := fun hi => h hi.severity

theorem Issue.reportsShell_atLine (i : Issue) (line : Nat) (file tools : Text) :
    (i.atLine line).ReportsShell file tools ↔ i.ReportsShell file tools := by
  unfold atLine
  split
  · exact Iff.rfl
  · exact ⟨fun h => ⟨h.severity, h.message, h.file, h.source⟩,
      fun h => ⟨h.severity, h.message, h.file, h.source⟩⟩

/-- An issue on the tools of a file reports them and nothing else. -/
theorem Issue.reportsShell_iff_of_source {i : Issue} {label tools file found : Text}
    (hseverity : i.severity = .must)
    (hmessage : i.message = "Unrestricted Bash in allowed-tools".toList)
    (hfile : i.file = some label) (hsource : i.source = some ("allowed-tools: ".toList ++ found)) :
    i.ReportsShell file tools ↔ label = file ∧ found = tools := by
  constructor
  · intro h
    refine ⟨Option.some.inj (hfile.symm.trans h.file), ?_⟩
    exact List.append_cancel_left (Option.some.inj (hsource.symm.trans h.source))
  · rintro ⟨rfl, rfl⟩
    exact ⟨hseverity, hmessage, hfile, hsource⟩

theorem Component.not_reportsShell_cannotRead (c : Component) (fault : Fault) (file tools : Text) :
    ¬ (c.cannotRead fault).ReportsShell file tools :=
  Issue.not_reportsShell_of_message (by simp [cannotRead, Issue.cannotRead]) file tools

/-! ## Components -/

/-- The tools field of a text. -/
def toolsField? (content : Text) : Option Field :=
  (Document.parse content).header.field? "allowed-tools".toList

/-- Whether the document of a component gives the shell away by some list of tools. -/
def Component.GivesShell (c : Component) (tools : Text) : Prop :=
  ∃ content field, c.content = .ok content ∧
    (Fields.ofHeader (Document.parse content).header).unrestrictedShell = some field ∧
    field.value = tools

theorem unrestrictedShell_eq_some_iff {content : Text} {field : Field} :
    (Fields.ofHeader (Document.parse content).header).unrestrictedShell = some field ↔
      toolsField? content = some field ∧ isUnrestrictedShell field.value = true :=
  Option.filter_eq_some_iff

theorem Component.isUnrestrictedShell_of_givesShell {c : Component} {tools : Text}
    (h : c.GivesShell tools) : isUnrestrictedShell tools = true := by
  obtain ⟨content, field, -, hfield, rfl⟩ := h
  exact (unrestrictedShell_eq_some_iff.mp hfield).2

theorem Component.givesShell_of_field {c : Component} {content : Text} {field : Field}
    (hcontent : c.content = .ok content) (hfield : toolsField? content = some field)
    (h : isUnrestrictedShell field.value = true) : c.GivesShell field.value :=
  ⟨content, field, hcontent, unrestrictedShell_eq_some_iff.mpr ⟨hfield, h⟩, rfl⟩

/-! ## The tools check -/

namespace ToolsCheck

theorem severity_of_scanLine {line : Text} {i : Issue} (h : i ∈ scanLine line) :
    i.severity = .should := by
  unfold scanLine at h
  split at h
  · cases h
  · simp only [List.mem_append, List.mem_ite_nil_right, List.mem_singleton] at h
    rcases h with (⟨-, rfl⟩ | ⟨-, rfl⟩) | ⟨-, rfl⟩ <;> rfl

theorem severity_of_placedIssues {file line : Text} {number : Nat} {i : Issue}
    (h : i ∈ placedIssues file number line) : i.severity = .should := by
  obtain ⟨j, hj, rfl⟩ := List.mem_map.mp h
  have hseverity := severity_of_scanLine hj
  unfold Issue.atLine
  split <;> exact hseverity

theorem exists_reportsShell_shellRule {file tools : Text} (label : Text) (f : Fields) :
    (∃ i ∈ shellRule label f, i.ReportsShell file tools) ↔
      ∃ field, f.unrestrictedShell = some field ∧ label = file ∧ field.value = tools := by
  unfold shellRule
  cases f.unrestrictedShell with
  | none => simp
  | some field =>
    simp only [List.mem_singleton, exists_eq_left, Issue.reportsShell_atLine, Option.some.injEq,
      exists_eq_left']
    exact Issue.reportsShell_iff_of_source rfl rfl rfl rfl

/-- Of what is found in a component, only the issue on its header is about the shell. -/
theorem exists_reportsShell_componentRules {file tools : Text} (c : Component) :
    (∃ i ∈ componentRules c, i.ReportsShell file tools) ↔
      c.label = file ∧ c.GivesShell tools := by
  unfold componentRules Component.GivesShell
  cases hcontent : c.content with
  | error fault => simp [c.not_reportsShell_cannotRead fault file tools]
  | ok content =>
    have hprose : ¬ ∃ i ∈ (Document.proseLines content (Document.parse content).headerEnd).flatMap
        (fun p => placedIssues c.label p.1 p.2), i.ReportsShell file tools := by
      rintro ⟨i, hi, hreport⟩
      obtain ⟨p, -, hplaced⟩ := List.mem_flatMap.mp hi
      refine Issue.not_reportsShell_of_severity ?_ file tools hreport
      simp [severity_of_placedIssues hplaced]
    simp only [documentRules, List.mem_append, or_and_right, exists_or, hprose, false_or,
      exists_reportsShell_shellRule]
    constructor
    · rintro ⟨field, hfield, hlabel, htools⟩
      exact ⟨hlabel, content, field, rfl, hfield, htools⟩
    · rintro ⟨hlabel, _, field, hsame, hfield, htools⟩
      obtain rfl := Except.ok.inj hsame
      exact ⟨field, hfield, hlabel, htools⟩

end ToolsCheck

/-! ## The frontmatter check -/

namespace FrontmatterCheck

variable {file tools : Text}

theorem not_reportsShell_missing (label : Text) (key suggestion : String) :
    ¬ (missing label key suggestion).ReportsShell file tools :=
  Issue.not_reportsShell_of_message (by simp [missing, toString, String.toList_append]) file tools

theorem not_reportsShell_present (label : Text) (key : String) (field : Field) :
    ¬ (present label key field).ReportsShell file tools := by
  rw [present, Issue.reportsShell_atLine]
  exact Issue.not_reportsShell_of_severity (by simp) file tools

theorem not_reportsShell_tabRule {label : Text} {number : Nat} {ls : List Text} {i : Issue}
    (h : i ∈ tabRule label number ls) : ¬ i.ReportsShell file tools := by
  induction ls generalizing number with
  | nil => cases h
  | cons line rest ih =>
    unfold tabRule at h
    split at h
    · obtain rfl := List.mem_singleton.mp h
      exact Issue.not_reportsShell_of_message (by simp) file tools
    · exact ih h

theorem not_reportsShell_choice (label : Text) (key : String) (allowed : List String)
    (value : Option Field) : ¬ (choice label key allowed value).ReportsShell file tools := by
  unfold choice
  split
  · exact not_reportsShell_missing _ _ _
  · split
    · exact not_reportsShell_present _ _ _
    · rw [valueIssue, Issue.reportsShell_atLine]
      exact Issue.not_reportsShell_of_message
        (by simp [toString, String.toList_append]) file tools

theorem not_reportsShell_agentRules {label : Text} {f : Fields} {i : Issue}
    (h : i ∈ agentRules label f) : ¬ i.ReportsShell file tools := by
  simp only [agentRules, List.mem_append, List.mem_ite_nil_right, List.mem_cons,
    List.not_mem_nil, or_false] at h
  rcases h with (rfl | ⟨-, rfl⟩) | rfl | rfl
  · unfold agentName
    split
    · exact not_reportsShell_missing _ _ _
    · split
      · exact not_reportsShell_present _ _ _
      · rw [valueIssue, Issue.reportsShell_atLine]
        exact Issue.not_reportsShell_of_message (by simp) file tools
  · exact not_reportsShell_missing _ _ _
  · exact not_reportsShell_choice _ _ _ _
  · exact not_reportsShell_choice _ _ _ _

theorem not_reportsShell_voiceRule {label : Text} {number : Nat} {ls : List Text} {i : Issue}
    (h : i ∈ voiceRule label number ls) : ¬ i.ReportsShell file tools := by
  induction ls generalizing number with
  | nil => cases h
  | cons line rest ih =>
    rcases List.mem_append.mp h with hline | hrest
    · obtain ⟨-, hi⟩ := List.mem_ite_nil_right.mp hline
      obtain rfl := List.mem_singleton.mp hi
      rw [Issue.reportsShell_atLine]
      exact Issue.not_reportsShell_of_severity (by simp) file tools
    · exact ih hrest

theorem not_reportsShell_skillRules {label : Text} {f : Fields} {d : Document} {i : Issue}
    (h : i ∈ skillRules label f d) : ¬ i.ReportsShell file tools := by
  simp only [skillRules, List.mem_append, List.mem_cons, List.not_mem_nil, or_false] at h
  rcases h with (rfl | rfl) | hvoice
  · unfold skillName
    split
    · exact not_reportsShell_present _ _ _
    · exact not_reportsShell_missing _ _ _
  · unfold skillDescription
    split
    · exact not_reportsShell_missing _ _ _
    · split
      · rw [valueIssue, Issue.reportsShell_atLine]
        exact Issue.not_reportsShell_of_severity (by simp) file tools
      · exact not_reportsShell_present _ _ _
  · exact not_reportsShell_voiceRule hvoice

theorem exists_reportsShell_commandRules (label : Text) (f : Fields) :
    (∃ i ∈ commandRules label f, i.ReportsShell file tools) ↔
      ∃ field, f.unrestrictedShell = some field ∧ label = file ∧ field.value = tools := by
  have hkey : "allowed-tools".toList ++ ": ".toList = "allowed-tools: ".toList := by decide
  unfold commandRules
  simp only [List.singleton_append, List.mem_cons, exists_eq_or_imp]
  refine (or_iff_right ?_).trans ?_
  · cases f.description with
    | none => exact not_reportsShell_missing _ _ _
    | some field => exact not_reportsShell_present _ _ _
  · cases f.unrestrictedShell with
    | none => simp
    | some field =>
      simp only [List.mem_singleton, exists_eq_left, valueIssue, Issue.reportsShell_atLine,
        Option.some.injEq, exists_eq_left']
      exact Issue.reportsShell_iff_of_source rfl rfl rfl (by rw [hkey])

/-- A header without fields has no list of tools. -/
theorem unrestrictedShell_of_no_fields {h : Header} (hnone : h.fields = []) :
    (Fields.ofHeader h).unrestrictedShell = none := by
  have hfield : h.field? "allowed-tools".toList = none := by
    rw [Header.field?, hnone]
    rfl
  calc (Fields.ofHeader h).unrestrictedShell
      = (h.field? "allowed-tools".toList).filter fun field => isUnrestrictedShell field.value := rfl
    _ = none := by rw [hfield, Option.filter_none]

/-- The check reports the shell in the headers of commands and nowhere else. -/
theorem exists_reportsShell_componentRules (c : Component) :
    (∃ i ∈ componentRules c, i.ReportsShell file tools) ↔
      c.kind = .command ∧ c.label = file ∧ c.GivesShell tools := by
  unfold componentRules Component.GivesShell
  cases hcontent : c.content with
  | error fault => simp [c.not_reportsShell_cannotRead fault file tools]
  | ok content =>
    simp only [Except.ok.injEq, exists_and_left, exists_eq_left', documentRules]
    split
    · next hnone =>
      have hmissing : ¬ (headerMissing c.label).ReportsShell file tools :=
        Issue.not_reportsShell_of_message (by simp [headerMissing]) file tools
      simp [unrestrictedShell_of_no_fields hnone, hmissing]
    · have htab : ¬ ∃ i ∈ tabRule c.label 1
          ((Text.lines content).take (Document.parse content).headerEnd),
          i.ReportsShell file tools := by
        rintro ⟨i, hi, hreport⟩
        exact not_reportsShell_tabRule hi hreport
      simp only [headerRules, List.mem_append, or_and_right, exists_or, htab, false_or]
      cases c.kind with
      | command =>
        simp only [exists_reportsShell_commandRules, true_and]
        constructor
        · rintro ⟨field, hfield, hlabel, htools⟩
          exact ⟨hlabel, field, hfield, htools⟩
        · rintro ⟨hlabel, field, hfield, htools⟩
          exact ⟨field, hfield, hlabel, htools⟩
      | agent =>
        simp only [reduceCtorEq, false_and, iff_false, not_exists, not_and]
        exact fun i hi => not_reportsShell_agentRules hi
      | skill =>
        simp only [reduceCtorEq, false_and, iff_false, not_exists, not_and]
        exact fun i hi => not_reportsShell_skillRules hi

end FrontmatterCheck

/-! ## Runs -/

/-- The tools check reports the lists that give the shell away, of whatever kind a component is. -/
theorem exists_reportsShell_toolsCheck {s : Subject} {file tools : Text} :
    (∃ i ∈ (toolsCheck.run s).issues, i.ReportsShell file tools) ↔
      ∃ c ∈ s.components.toList, c.label = file ∧ c.GivesShell tools := by
  rw [Check.exists_reportsShell_run (fun _ => rfl)]
  simp only [ToolsCheck.exists_reportsShell_componentRules]

/-- The frontmatter check reports those of commands. -/
theorem exists_reportsShell_frontmatterCheck {s : Subject} {file tools : Text} :
    (∃ i ∈ (frontmatterCheck.run s).issues, i.ReportsShell file tools) ↔
      ∃ c ∈ s.components.toList, c.kind = .command ∧ c.label = file ∧ c.GivesShell tools := by
  rw [Check.exists_reportsShell_run (fun _ => rfl)]
  simp only [FrontmatterCheck.exists_reportsShell_componentRules]

/-- A list of tools that names the shell with nothing else in the entry is reported by the tools
check, and in a command by the frontmatter check as well, exactly when no entry of the list opens a
filter for the shell. -/
theorem bare_shell_reported_iff_no_filter (s : Subject) (c : Component) (content : Text)
    (field : Field) (hc : c ∈ s.components.toList) (hcontent : c.content = .ok content)
    (hfield : toolsField? content = some field) (hbare : NamesBareShell field.value) :
    ((∃ i ∈ (toolsCheck.run s).issues, i.ReportsShell c.label field.value) ↔
      ¬ FiltersShell field.value) ∧
    (c.kind = .command →
      ((∃ i ∈ (frontmatterCheck.run s).issues, i.ReportsShell c.label field.value) ↔
        ¬ FiltersShell field.value)) := by
  rw [exists_reportsShell_toolsCheck, exists_reportsShell_frontmatterCheck,
    ← isUnrestrictedShell_iff_of_bare hbare]
  refine ⟨⟨?_, ?_⟩, fun hkind => ⟨?_, ?_⟩⟩
  · rintro ⟨other, -, -, hgives⟩
    exact other.isUnrestrictedShell_of_givesShell hgives
  · intro hflag
    exact ⟨c, hc, rfl, Component.givesShell_of_field hcontent hfield hflag⟩
  · rintro ⟨other, -, -, -, hgives⟩
    exact other.isUnrestrictedShell_of_givesShell hgives
  · intro hflag
    exact ⟨c, hc, hkind, rfl, Component.givesShell_of_field hcontent hfield hflag⟩

/-- A command's document with a list of tools. -/
def toolsDocument (tools : Text) : Text :=
  "---\ndescription: d\nallowed-tools: ".toList ++ tools ++ "\n---\n".toList

/-- A plugin with one command that has a list of tools. -/
def commandWithTools (tools : Text) : Subject where
  tree := ⟨[], []⟩
  root := ⟨[]⟩
  components :=
    { commands := [⟨.command, ⟨"commands/a.md".toList⟩, "commands/a.md".toList,
        .ok (toolsDocument tools)⟩]
      agents := []
      skills := [] }
  manifest := .missing
  limits := .standard
  counter := .approximate
  verbose := false

/-- A filter beside a bare name hides it from both checks. -/
theorem bare_shell_unreported_beside_filter :
    toolsField? (toolsDocument "Bash, Bash(git:*)".toList) =
      some ⟨"Bash, Bash(git:*)".toList, 3⟩ ∧
    NamesBareShell "Bash, Bash(git:*)".toList ∧
    (toolsCheck.run (commandWithTools "Bash, Bash(git:*)".toList)).issues = [] ∧
    (frontmatterCheck.run (commandWithTools "Bash, Bash(git:*)".toList)).issues = [] := by
  exact ⟨by decide, ⟨"Bash".toList, by decide, by decide⟩, by decide, by decide⟩

/-- A bare name beside another tool is reported by both checks. -/
theorem bare_shell_reported_beside_another_tool :
    NamesBareShell "Read, Bash ,Grep".toList ∧ ¬ FiltersShell "Read, Bash ,Grep".toList ∧
    (∃ i ∈ (toolsCheck.run (commandWithTools "Read, Bash ,Grep".toList)).issues,
      i.ReportsShell "commands/a.md".toList "Read, Bash ,Grep".toList) ∧
    (∃ i ∈ (frontmatterCheck.run (commandWithTools "Read, Bash ,Grep".toList)).issues,
      i.ReportsShell "commands/a.md".toList "Read, Bash ,Grep".toList) := by
  have hbare : NamesBareShell "Read, Bash ,Grep".toList :=
    ⟨" Bash ".toList, by decide, by decide⟩
  have hfilter : ¬ FiltersShell "Read, Bash ,Grep".toList := by
    have hentries : toolEntries "Read, Bash ,Grep".toList =
        ["Read".toList, " Bash ".toList, "Grep".toList] := by decide
    simp only [FiltersShell, hentries]
    decide
  obtain ⟨htools, hcommand⟩ := bare_shell_reported_iff_no_filter
    (commandWithTools "Read, Bash ,Grep".toList) _ _ ⟨"Read, Bash ,Grep".toList, 3⟩
    (List.mem_singleton.mpr rfl) rfl (by decide) hbare
  exact ⟨hbare, hfilter, htools.mpr hfilter, (hcommand rfl).mpr hfilter⟩

end PluginLint
