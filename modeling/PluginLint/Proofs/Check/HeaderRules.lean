import Mathlib.Data.List.Nodup
import PluginLint.Proofs.Check.Forms
import PluginLint.Proofs.Check.NumberedLines
import PluginLint.Proofs.Check.RuleBooks
import PluginLint.Proofs.Text.Search

/-!
# The rules on headers

What the frontmatter check asks of a component is a table: the rules for its kind, in the order of
the report (`HeaderRule.table`). A rule is said by what violates it, as a property of the document,
and a violation is reported by one issue. The requirements and the recommendations on a component
with a header are the reports of the violated rules and nothing else
(`header_rules_reported`).
-/
namespace PluginLint

/-! ## Rules -/

/-- A rule on the header of a component or, for skills, on a line of the body. -/
inductive HeaderRule where
  | noTab
  | required (key : String)
  | filteredShell
  | agentName
  | oneOf (key : String) (allowed : List String)
  | longDescription
  | imperative (bodyLine : Nat)
  deriving DecidableEq, Repr

namespace HeaderRule

/-- The rules for a component of a kind, in the order of the report. -/
def table (content : Text) : ComponentKind → List HeaderRule
  | .command => [.noTab, .required "description", .filteredShell]
  | .agent =>
    [.noTab, .agentName, .required "description",
      .oneOf "model" ["inherit", "sonnet", "opus", "haiku"],
      .oneOf "color" ["blue", "cyan", "green", "yellow", "magenta", "red"]]
  | .skill =>
    [.noTab, .required "name", .required "description", .longDescription] ++
      (List.range' 1 (Text.lines (Document.parse content).body).length).map .imperative

def severity : HeaderRule → Severity
  | .longDescription => .should
  | .imperative _ => .should
  | _ => .must

/-- The field that a rule asks for, if it reports that the field is missing. -/
def required? : HeaderRule → Option String
  | .required key => some key
  | .agentName => some "name"
  | .oneOf key _ => some key
  | _ => none

/-- What there is to say on a violation when the field is there. -/
def complaint : HeaderRule → String
  | .noTab => "Tab character in YAML frontmatter"
  | .required _ => ""
  | .filteredShell => "Unrestricted Bash in allowed-tools"
  | .agentName => "Invalid agent name format"
  | .oneOf key _ => s!"Invalid {key} value"
  | .longDescription => "Description too short"
  | .imperative _ => "Second-person voice in skill body"

/-- The value of a header field of a document. -/
def value? (content : Text) (key : String) : Option Text :=
  (Document.parse content).header.value? key.toList

/-- Whether a document violates a rule. A field that is not there has no value that would do. -/
def Violated (content : Text) : HeaderRule → Prop
  | .noTab => ∃ line ∈ (Text.lines content).take (Document.parse content).headerEnd, '\t' ∈ line
  | .required key => value? content key = none
  | .filteredShell => ∃ tools ∈ value? content "allowed-tools",
      "Bash".toList <:+: tools ∧ ¬ "Bash(".toList <:+: tools
  | .agentName => ∀ name ∈ value? content "name", ¬ IsAgentName name
  | .oneOf key allowed => ∀ value ∈ value? content key, value ∉ allowed.map String.toList
  | .longDescription => ∃ description ∈ value? content "description",
      (description.filter (· ≠ ' ')).length < 10
  | .imperative bodyLine => ∃ line ∈ Text.lineAt? (Document.parse content).body bodyLine,
      Phrase.AddressesReader line

instance (content : Text) : DecidablePred (Violated content) := fun rule =>
  match rule with
  | .noTab => inferInstanceAs (Decidable (∃ line ∈ List.take _ _, '\t' ∈ line))
  | .required _ => inferInstanceAs (Decidable (_ = none))
  | .filteredShell => inferInstanceAs (Decidable (∃ tools ∈ value? _ _, _ ∧ ¬ _))
  | .agentName => inferInstanceAs (Decidable (∀ name ∈ value? _ _, ¬ IsAgentName name))
  | .oneOf _ _ => inferInstanceAs (Decidable (∀ value ∈ value? _ _, value ∉ _))
  | .longDescription => inferInstanceAs (Decidable (∃ description ∈ value? _ _, _ < _))
  | .imperative _ =>
    inferInstanceAs (Decidable (∃ line ∈ Text.lineAt? _ _, Phrase.AddressesReader line))

/-- What the report on a violation says. -/
def message (content : Text) (rule : HeaderRule) : Text :=
  match rule.required? with
  | some key =>
    if value? content key = none then s!"Missing '{key}' in frontmatter".toList
    else rule.complaint.toList
  | none => rule.complaint.toList

/-- The line that the report on a rule for lines points at: the first one with a tab, or the one of
the document that holds the line of the body. -/
def place? (content : Text) : HeaderRule → Option Nat
  | .noTab => ((Text.lines content).findIdx? ('\t' ∈ ·)).map (1 + ·)
  | .imperative bodyLine => some ((Document.parse content).lineOfBody bodyLine)
  | _ => none

end HeaderRule

/-- Whether an issue is the report on a violated rule. -/
structure Issue.ReportsHeader (content file : Text) (rule : HeaderRule) (i : Issue) : Prop where
  severity : i.severity = rule.severity
  message : i.message = rule.message content
  file : i.file = some file
  line : ∀ number ∈ rule.place? content, i.line = some number

/-- A report that need not point at a line is one wherever it points. -/
theorem Issue.ReportsHeader.atLine {content file : Text} {rule : HeaderRule} {i : Issue}
    (h : i.ReportsHeader content file rule) (hplace : rule.place? content = none) (number : Nat) :
    (i.atLine number).ReportsHeader content file rule := by
  obtain ⟨line, hline⟩ := i.exists_atLine_eq number
  rw [hline]
  refine ⟨h.severity, h.message, h.file, fun number hnumber => ?_⟩
  rw [hplace] at hnumber
  cases hnumber

namespace FrontmatterCheck

/-- The rules on headers, for the document of a component. They cover everything but passing
details. -/
def rules (content file : Text) : RuleBook HeaderRule where
  severity := HeaderRule.severity
  Covers severity := severity ≠ .ok
  Violated := HeaderRule.Violated content
  decidable := inferInstance
  Reports rule i := i.ReportsHeader content file rule
  not_covers_ok h := h rfl
  severity_of_reports h := h.severity
  reports_stamp _ h := ⟨h.severity, h.message, h.file, h.line⟩

variable {content file : Text} {rule : HeaderRule} {key : String} {field : Field}

/-! ## Answers on a field -/

/-- A field that is missing is reported by the rule that asks for it. -/
theorem answered_missing (hkey : rule.required? = some key) (hnone : HeaderRule.value? content key = none)
    (suggestion : String) :
    (rules content file).Answered [rule] [missing file key suggestion] := by
  have hmessage : rule.message content = s!"Missing '{key}' in frontmatter".toList := by
    simp only [HeaderRule.message, hkey, hnone, if_true]
  cases rule with
  | required _ =>
    obtain rfl := Option.some.inj hkey
    exact .of_reports hnone ⟨rfl, hmessage.symm, rfl, by simp [HeaderRule.place?]⟩
  | agentName =>
    obtain rfl := Option.some.inj hkey
    have hrule : HeaderRule.agentName.Violated content := by simp [HeaderRule.Violated, hnone]
    exact .of_reports hrule ⟨rfl, hmessage.symm, rfl, by simp [HeaderRule.place?]⟩
  | oneOf asked allowed =>
    obtain rfl := Option.some.inj hkey
    have hrule : (HeaderRule.oneOf asked allowed).Violated content := by
      simp [HeaderRule.Violated, hnone]
    exact .of_reports hrule ⟨rfl, hmessage.symm, rfl, by simp [HeaderRule.place?]⟩
  | _ => cases hkey

/-- A field that will do is a passing detail. -/
theorem answered_present (hrule : ¬ rule.Violated content) (field : Field) :
    (rules content file).Answered [rule] [present file key field] := by
  have hok : (present file key field).severity = .ok := by
    obtain ⟨line, hline⟩ := Issue.exists_atLine_eq
      { severity := .ok, message := key.toList ++ ": \"".toList ++ field.value ++ ['"'],
        file := some file } field.line
    rw [present, hline]
  exact (RuleBook.Answered.of_obeyed hrule).append (.detail fun hcovers => hcovers hok)

/-- A value that will not do is reported by the rule that it violates. -/
theorem answered_value (hrule : rule.Violated content) (hplace : rule.place? content = none)
    {message : String} (hmessage : message.toList = rule.message content) (suggestion : String) :
    (rules content file).Answered [rule]
      [valueIssue file key field rule.severity message suggestion] := by
  refine .of_reports hrule (Issue.ReportsHeader.atLine ⟨rfl, hmessage, rfl, ?_⟩ hplace _)
  rw [hplace]
  simp

/-! ## The rules one by one -/

theorem value?_of_field? {field : Option Field}
    (h : (Document.parse content).header.field? key.toList = field) :
    HeaderRule.value? content key = field.map (·.value) := by
  rw [HeaderRule.value?, Header.value?, h]

theorem tabRule_eq_nil {ls : List Text} (h : ∀ line ∈ ls, '\t' ∉ line) (number : Nat) :
    tabRule file number ls = [] := by
  induction ls generalizing number with
  | nil => rfl
  | cons line rest ih =>
    rw [tabRule, if_neg (h line List.mem_cons_self)]
    exact ih (fun other hother => h other (List.mem_cons_of_mem _ hother)) _

/-- The first line with a tab is reported, whatever lines come behind those that are looked at. -/
theorem exists_tabRule_eq {ls : List Text} (h : ∃ line ∈ ls, '\t' ∈ line) (number : Nat)
    (more : List Text) :
    ∃ i j, tabRule file number ls = [i] ∧ i.severity = .must ∧
      i.message = "Tab character in YAML frontmatter".toList ∧ i.file = some file ∧
      (ls ++ more).findIdx? ('\t' ∈ ·) = some j ∧ i.line = some (number + j) := by
  induction ls generalizing number with
  | nil => simp at h
  | cons line rest ih =>
    rw [tabRule]
    by_cases hline : '\t' ∈ line
    · rw [if_pos hline]
      exact ⟨_, 0, rfl, rfl, rfl, rfl, by simp [List.findIdx?_cons, hline], rfl⟩
    · rw [if_neg hline]
      have hrest : ∃ line ∈ rest, '\t' ∈ line := by
        obtain ⟨found, hfound, htab⟩ := h
        rcases List.mem_cons.mp hfound with rfl | hfound
        · exact absurd htab hline
        · exact ⟨found, hfound, htab⟩
      obtain ⟨i, j, hi, hseverity, hmessage, hfile, hj, hnumber⟩ := ih hrest (number + 1)
      refine ⟨i, j + 1, hi, hseverity, hmessage, hfile, ?_, ?_⟩
      · simp [List.findIdx?_cons, hline, hj]
      · rw [hnumber, Nat.add_assoc, Nat.add_comm 1]

theorem answered_tabRule : (rules content file).Answered [.noTab]
    (tabRule file 1 ((Text.lines content).take (Document.parse content).headerEnd)) := by
  by_cases h : HeaderRule.noTab.Violated content
  · obtain ⟨i, j, hi, hseverity, hmessage, hfile, hj, hnumber⟩ := exists_tabRule_eq h 1
      ((Text.lines content).drop (Document.parse content).headerEnd)
    rw [hi]
    refine .of_reports h ⟨hseverity, hmessage, hfile, fun number hplace => ?_⟩
    rw [List.take_append_drop] at hj
    rw [HeaderRule.place?, hj] at hplace
    rw [hnumber, ← hplace]
    rfl
  · rw [tabRule_eq_nil]
    · exact .of_obeyed h
    · intro line hline htab
      exact h ⟨line, hline, htab⟩

theorem not_violated_required {field : Field}
    (h : (Document.parse content).header.field? key.toList = some field) :
    ¬ (HeaderRule.required key).Violated content := by
  rw [HeaderRule.Violated, value?_of_field? h]
  simp

theorem answered_required {field : Field}
    (h : (Document.parse content).header.field? key.toList = some field) :
    (rules content file).Answered [.required key] [present file key field] :=
  answered_present (not_violated_required h) field

theorem isUnrestrictedShell_iff {tools : Text} : isUnrestrictedShell tools = true ↔
    "Bash".toList <:+: tools ∧ ¬ "Bash(".toList <:+: tools := by
  rw [isUnrestrictedShell, Bool.and_eq_true, Bool.not_eq_true', ← Bool.not_eq_true,
    Text.occurs_iff_isInfix, Text.occurs_iff_isInfix]

theorem answered_shell : (rules content file).Answered [.filteredShell]
    (match (Fields.ofHeader (Document.parse content).header).unrestrictedShell with
    | some field =>
      [valueIssue file "allowed-tools" field .must "Unrestricted Bash in allowed-tools"
        "Use filtered Bash: Bash(git:*), Bash(npm:*)"]
    | none => []) := by
  cases h : (Fields.ofHeader (Document.parse content).header).unrestrictedShell with
  | none =>
    refine .of_obeyed ?_
    rintro ⟨tools, htools, hshell⟩
    obtain ⟨field, hfield, rfl⟩ := Option.map_eq_some_iff.mp htools
    exact Option.filter_eq_none_iff.mp h field hfield (isUnrestrictedShell_iff.mpr hshell)
  | some field =>
    obtain ⟨hfield, hshell⟩ := Option.filter_eq_some_iff.mp h
    have hrule : HeaderRule.filteredShell.Violated content :=
      ⟨field.value, Option.map_eq_some_iff.mpr ⟨field, hfield, rfl⟩,
        isUnrestrictedShell_iff.mp hshell⟩
    exact answered_value hrule rfl rfl _

theorem answered_agentName : (rules content file).Answered [.agentName]
    [agentName file ((Document.parse content).header.field? "name".toList)] := by
  cases h : (Document.parse content).header.field? "name".toList with
  | none => exact answered_missing rfl (value?_of_field? h) _
  | some field =>
    have hvalue := value?_of_field? h
    have hrule : HeaderRule.agentName.Violated content ↔ ¬ IsAgentName field.value := by
      simp [HeaderRule.Violated, hvalue]
    rw [agentName]
    by_cases hname : isAgentName field.value = true
    · rw [if_pos hname]
      exact answered_present (fun hbad => hrule.mp hbad (isAgentName_iff.mp hname)) field
    · rw [if_neg hname]
      refine answered_value (hrule.mpr fun hgood => hname (isAgentName_iff.mpr hgood)) rfl ?_ _
      simp [HeaderRule.message, HeaderRule.required?, hvalue, HeaderRule.complaint]

theorem answered_choice (key : String) (allowed : List String) :
    (rules content file).Answered [.oneOf key allowed]
      [choice file key allowed ((Document.parse content).header.field? key.toList)] := by
  cases h : (Document.parse content).header.field? key.toList with
  | none => exact answered_missing rfl (value?_of_field? h) _
  | some field =>
    have hvalue := value?_of_field? h
    have hrule : (HeaderRule.oneOf key allowed).Violated content ↔
        field.value ∉ allowed.map String.toList := by
      simp [HeaderRule.Violated, hvalue]
    rw [choice]
    by_cases hallowed : (allowed.map String.toList).contains field.value = true
    · rw [if_pos hallowed]
      exact answered_present (fun hbad => hrule.mp hbad (List.contains_iff_mem.mp hallowed)) field
    · rw [if_neg hallowed]
      refine answered_value (hrule.mpr fun hgood => hallowed (List.contains_iff_mem.mpr hgood)) rfl ?_ _
      simp [HeaderRule.message, HeaderRule.required?, hvalue, HeaderRule.complaint]

/-- The description of a skill answers two rules: it must be there, and it should not be short. -/
theorem answered_skillDescription :
    (rules content file).Answered [.required "description", .longDescription]
      [skillDescription file ((Document.parse content).header.field? "description".toList)] := by
  cases h : (Document.parse content).header.field? "description".toList with
  | none =>
    have hvalue := value?_of_field? h
    have hlong : ¬ HeaderRule.longDescription.Violated content := by
      simp [HeaderRule.Violated, hvalue]
    have hmissing : (rules content file).Answered [.required "description"]
        [missing file "description" "Add description with trigger phrases"] :=
      answered_missing rfl hvalue _
    exact hmissing.append (.of_obeyed hlong)
  | some field =>
    have hvalue := value?_of_field? h
    have hlong : HeaderRule.longDescription.Violated content ↔
        (field.value.filter (· ≠ ' ')).length < minimumDescription := by
      simp [HeaderRule.Violated, hvalue, minimumDescription]
    refine RuleBook.Answered.append (.of_obeyed (not_violated_required h)) ?_
    rw [skillDescription]
    by_cases hshort : (field.value.filter (· ≠ ' ')).length < minimumDescription
    · rw [if_pos hshort]
      exact answered_value (hlong.mpr hshort) rfl rfl _
    · rw [if_neg hshort]
      exact answered_present (fun hbad => hshort (hlong.mp hbad)) field

/-- The lines of a body from one of them on answer the rules for these lines. -/
theorem answered_voiceRule {ls : List Text} {j : Nat}
    (h : (Text.lines (Document.parse content).body).drop j = ls) :
    (rules content file).Answered ((List.range' (j + 1) ls.length).map .imperative)
      (voiceRule file ((Document.parse content).lineOfBody (j + 1)) ls) := by
  induction ls generalizing j with
  | nil => exact .nil
  | cons line rest ih =>
    have hline : Text.lineAt? (Document.parse content).body (j + 1) = some line := by
      rw [Text.lineAt?, ← List.head?_drop, h, List.head?_cons]
    have hrule : (HeaderRule.imperative (j + 1)).Violated content ↔
        Phrase.AddressesReader line := by
      simp [HeaderRule.Violated, hline]
    have hrest := ih (j := j + 1) (by rw [← List.tail_drop, h, List.tail_cons])
    rw [List.length_cons, List.range'_succ, List.map_cons, voiceRule, ← List.singleton_append]
    refine RuleBook.Answered.append ?_ hrest
    by_cases hstands : Phrase.stands Phrase.secondPerson line = true
    · have hpos : 0 < (Document.parse content).lineOfBody (j + 1) := Nat.succ_pos _
      rw [if_pos hstands, Issue.atLine_of_pos _ hpos]
      exact .of_reports (hrule.mpr (Phrase.stands_secondPerson_iff.mp hstands))
        ⟨rfl, rfl, rfl, fun number hnumber => hnumber⟩
    · rw [if_neg hstands]
      exact .of_obeyed fun hbad => hstands (Phrase.stands_secondPerson_iff.mpr (hrule.mp hbad))

/-! ## Kinds -/

theorem answered_commandRules : (rules content file).Answered [.required "description", .filteredShell]
    (commandRules file (Fields.ofHeader (Document.parse content).header)) := by
  have hdescription : (rules content file).Answered [.required "description"]
      [match (Fields.ofHeader (Document.parse content).header).description with
        | some field => present file "description" field
        | none => missing file "description" "Add description: \"Short description\""] := by
    cases h : (Fields.ofHeader (Document.parse content).header).description with
    | none => exact answered_missing rfl (value?_of_field? h) _
    | some field => exact answered_required h
  exact hdescription.append answered_shell

theorem answered_agentRules : (rules content file).Answered
    [.agentName, .required "description", .oneOf "model" models, .oneOf "color" colors]
    (agentRules file (Fields.ofHeader (Document.parse content).header)) := by
  have hdescription : (rules content file).Answered [.required "description"]
      (if (Fields.ofHeader (Document.parse content).header).description.isNone then
        [missing file "description"
          "Add description with trigger conditions and <example> blocks"]
      else []) := by
    cases h : (Fields.ofHeader (Document.parse content).header).description with
    | none => exact answered_missing rfl (value?_of_field? h) _
    | some field => exact .of_obeyed (not_violated_required h)
  exact (answered_agentName.append hdescription).append
    ((answered_choice "model" models).append (answered_choice "color" colors))

theorem answered_skillName : (rules content file).Answered [.required "name"]
    [skillName file ((Document.parse content).header.field? "name".toList)] := by
  cases h : (Document.parse content).header.field? "name".toList with
  | none => exact answered_missing rfl (value?_of_field? h) _
  | some field => exact answered_required h

theorem answered_skillRules : (rules content file).Answered
    ([.required "name", .required "description", .longDescription] ++
      (List.range' 1 (Text.lines (Document.parse content).body).length).map .imperative)
    (skillRules file (Fields.ofHeader (Document.parse content).header) (Document.parse content)) :=
  (answered_skillName.append answered_skillDescription).append (answered_voiceRule rfl)

/-- The rules for a header are answered kind by kind. -/
theorem answered_headerRules (kind : ComponentKind) :
    (rules content file).Answered (HeaderRule.table content kind)
      (headerRules kind file content (Document.parse content)) := by
  cases kind with
  | command => exact answered_tabRule.append answered_commandRules
  | agent => exact answered_tabRule.append answered_agentRules
  | skill => exact answered_tabRule.append answered_skillRules

end FrontmatterCheck

/-! ## Reports -/

theorem HeaderRule.table_nodup (content : Text) (kind : ComponentKind) :
    (table content kind).Nodup := by
  cases kind with
  | command => simp [table]
  | agent => simp [table]
  | skill =>
    have himperative : Function.Injective HeaderRule.imperative :=
      fun _ _ h => HeaderRule.imperative.inj h
    refine List.nodup_append.mpr ⟨by simp, List.Nodup.map himperative List.nodup_range', ?_⟩
    intro rule hrule other hother
    obtain ⟨bodyLine, -, rfl⟩ := List.mem_map.mp hother
    rintro rfl
    simp at hrule

/-- The report on a readable component with a header is its table of rules: the requirements are one
for each violated rule among those that must be kept, and the recommendations one for each violated
rule among the others, in the order of the table, and no rule is in it twice. A component without a
header gets one requirement and nothing else. -/
theorem header_rules_reported (s : Subject) :
    (frontmatterCheck.run s).issues =
      s.components.toList.flatMap (FrontmatterCheck.report s.verbose) ∧
    ∀ c ∈ s.components.toList, ∀ content, c.content = .ok content →
      ((Document.parse content).header.fields = [] →
        ∃ i, FrontmatterCheck.report s.verbose c = [i] ∧ i.severity = .must ∧
          i.message = "No YAML frontmatter found".toList ∧ i.file = some c.label) ∧
      ((Document.parse content).header.fields ≠ [] →
        (HeaderRule.table content c.kind).Nodup ∧
        (FrontmatterCheck.rules content c.label).Answered (HeaderRule.table content c.kind)
          (FrontmatterCheck.report s.verbose c)) := by
  constructor
  · rw [Check.issues_run]
    exact Check.kept_flatMap _ _ _ _
  · intro c _ content hcontent
    rw [FrontmatterCheck.report, FrontmatterCheck.componentRules, hcontent]
    simp only [FrontmatterCheck.documentRules]
    constructor
    · intro hnone
      rw [if_pos hnone]
      refine ⟨(FrontmatterCheck.headerMissing c.label).stamp .frontmatter, ?_, rfl, rfl, rfl⟩
      simp [Check.kept, FrontmatterCheck.headerMissing]
    · intro hsome
      rw [if_neg hsome]
      exact ⟨HeaderRule.table_nodup content c.kind,
        (FrontmatterCheck.answered_headerRules c.kind).kept _ _⟩

/-- An agent that breaks every rule on fields. -/
def misnamedAgent : Text := "---\nname: x-\nmodel: gpt\n---\n".toList

/-- A skill with a short description and orders in its body. -/
def orderingSkill : Text :=
  "---\nname: s\ndescription: too  short\n---\nYou mustard.\nYou must.\n(You can)\n".toList

/-- A plugin with both of them. -/
def unrulyPlugin : Subject where
  tree := ⟨[], []⟩
  root := ⟨[]⟩
  components :=
    { commands := []
      agents := [⟨.agent, ⟨"agents/x.md".toList⟩, "agents/x.md".toList, .ok misnamedAgent⟩]
      skills :=
        [⟨.skill, ⟨"skills/s/SKILL.md".toList⟩, "skills/s/SKILL.md".toList, .ok orderingSkill⟩] }
  manifest := .missing
  limits := .standard
  counter := .approximate
  verbose := true

theorem unruly_plugin_reported :
    (HeaderRule.table misnamedAgent .agent).filter (HeaderRule.Violated misnamedAgent ·) =
      [.agentName, .required "description", .oneOf "model" FrontmatterCheck.models,
        .oneOf "color" FrontmatterCheck.colors] ∧
    (HeaderRule.table orderingSkill .skill).filter (HeaderRule.Violated orderingSkill ·) =
      [.longDescription, .imperative 2, .imperative 3] ∧
    ∀ c ∈ unrulyPlugin.components.toList, ∃ content, c.content = .ok content ∧
      (FrontmatterCheck.rules content c.label).Answered (HeaderRule.table content c.kind)
        (FrontmatterCheck.report true c) := by
  refine ⟨by decide, by decide, ?_⟩
  intro c hc
  have hreport := (header_rules_reported unrulyPlugin).2 c hc
  rcases List.mem_cons.mp hc with rfl | hc
  · exact ⟨misnamedAgent, rfl, ((hreport _ rfl).2 (by decide)).2⟩
  · obtain rfl := List.mem_singleton.mp hc
    exact ⟨orderingSkill, rfl, ((hreport _ rfl).2 (by decide)).2⟩

end PluginLint
