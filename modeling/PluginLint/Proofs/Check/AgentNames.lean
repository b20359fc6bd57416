import PluginLint.Proofs.Check.HeaderRules

/-!
# Names of agents

The name of an agent is accepted when it has three to fifty small letters, digits and hyphens with
no hyphen at either end. That is the kebab case of the other names but for hyphens in a row, which
kebab case does not allow and the rule on agents does (`agent_name_accepted_iff`).
-/
namespace PluginLint

/-- Whether an issue rejects the name of an agent. -/
structure Issue.RejectsName (i : Issue) : Prop where
  severity : i.severity = .must
  message : i.message = "Invalid agent name format".toList

/-- Whether none of some issues rejects the name of an agent. -/
def AcceptsName (issues : List Issue) : Prop := ∀ i ∈ issues, ¬ i.RejectsName

/-- Of all rules on headers the one on the names of agents alone says that a name has no good
form. -/
theorem HeaderRule.eq_agentName_of_message {rule : HeaderRule} {content : Text}
    (h : rule.message content = "Invalid agent name format".toList) : rule = .agentName := by
  have hmissing (key : String) :
      s!"Missing '{key}' in frontmatter".toList ≠ "Invalid agent name format".toList := by
    intro hkey
    simpa [toString, String.toList_append] using congrArg List.head? hkey
  cases rule with
  | agentName => rfl
  | required key =>
    simp only [message, required?] at h
    split at h
    · exact absurd h (hmissing key)
    · simp [complaint] at h
  | oneOf key allowed =>
    simp only [message, required?] at h
    split at h
    · exact absurd h (hmissing key)
    · have hlast := congrArg List.getLast? h
      simp [complaint, toString, String.toList_append, List.getLast?_cons] at hlast
  | _ => simp [message, required?, complaint] at h

namespace FrontmatterCheck

variable {file content : Text} {field : Field} {issues : List Issue}

/-- Issues that answer the rules for agents accept the name exactly when it has the form. -/
theorem acceptsName_iff_of_answered {table : List HeaderRule} (hrule : .agentName ∈ table)
    (h : (rules content file).Answered table issues)
    (hfield : (Document.parse content).header.field? "name".toList = some field) :
    AcceptsName issues ↔ IsAgentName field.value := by
  have hvalue : HeaderRule.value? content "name" = some field.value := value?_of_field? hfield
  have hviolated : HeaderRule.agentName.Violated content ↔ ¬ IsAgentName field.value := by
    simp [HeaderRule.Violated, hvalue]
  have hmessage : HeaderRule.agentName.message content = "Invalid agent name format".toList := by
    simp [HeaderRule.message, HeaderRule.required?, hvalue, HeaderRule.complaint]
  have hcovers : (rules content file).Covers ((rules content file).severity .agentName) :=
    Severity.noConfusion
  constructor
  · intro haccepts
    by_contra hbad
    obtain ⟨i, hi, hreport⟩ :=
      h.exists_report hcovers hrule (hviolated.mpr hbad)
    exact haccepts i hi ⟨hreport.severity, hreport.message.trans hmessage⟩
  · rintro hgood i hi ⟨hseverity, hrejects⟩
    obtain ⟨rule, -, hbad, hreport⟩ := h.exists_violation hi (hseverity ▸ hcovers)
    obtain rfl := HeaderRule.eq_agentName_of_message (hreport.message.symm.trans hrejects)
    exact hviolated.mp hbad hgood

/-- The rule on the name of an agent, for any text as its name. -/
theorem acceptsName_agentName (file : Text) (field : Field) :
    AcceptsName [agentName file (some field)] ↔ IsAgentName field.value := by
  rw [AcceptsName, List.forall_mem_singleton, agentName, ← isAgentName_iff]
  by_cases h : isAgentName field.value = true
  · rw [if_pos h, iff_true_right h]
    rintro ⟨hseverity, -⟩
    obtain ⟨line, hline⟩ := Issue.exists_atLine_eq
      { severity := .ok, message := "name".toList ++ ": \"".toList ++ field.value ++ ['"'],
        file := some file } field.line
    rw [present, hline] at hseverity
    cases hseverity
  · rw [if_neg h, iff_false_right h, not_not]
    obtain ⟨line, hline⟩ := Issue.exists_atLine_eq
      { severity := .must, message := "Invalid agent name format".toList, file := some file
        source := some ("name".toList ++ ": ".toList ++ field.value)
        suggestion := some "Use 3-50 chars, kebab-case, no leading/trailing hyphens".toList }
      field.line
    rw [valueIssue, hline]
    exact ⟨rfl, rfl⟩

end FrontmatterCheck

/-- Whatever text an agent has for a name, it is accepted exactly when it is three to fifty small
letters, digits and hyphens that start and end with no hyphen. Those of them in kebab case are the
ones without two hyphens in a row. In a run the report on an agent with a name accepts it in the
same case. -/
theorem agent_name_accepted_iff (s : Subject) :
    (∀ (file : Text) (field : Field),
      (AcceptsName [FrontmatterCheck.agentName file (some field)] ↔ IsAgentName field.value) ∧
      ((AcceptsName [FrontmatterCheck.agentName file (some field)] ∧
          ¬ "--".toList <:+: field.value) ↔
        3 ≤ field.value.length ∧ field.value.length ≤ 50 ∧ isKebab field.value = true)) ∧
    (frontmatterCheck.run s).issues =
      s.components.toList.flatMap (FrontmatterCheck.report s.verbose) ∧
    ∀ c ∈ s.components.toList, c.kind = .agent → ∀ content, c.content = .ok content →
      ∀ field, (Document.parse content).header.field? "name".toList = some field →
        (AcceptsName (FrontmatterCheck.report s.verbose c) ↔ IsAgentName field.value) ∧
        ((AcceptsName (FrontmatterCheck.report s.verbose c) ∧ ¬ "--".toList <:+: field.value) ↔
          3 ≤ field.value.length ∧ field.value.length ≤ 50 ∧ isKebab field.value = true) := by
  refine ⟨fun file field => ?_, ?_, fun c _ hkind content hcontent field hfield => ?_⟩
  · have haccepts := FrontmatterCheck.acceptsName_agentName file field
    exact ⟨haccepts, by rw [haccepts, isAgentName_and_apart_iff]⟩
  · rw [Check.issues_run]
    exact Check.kept_flatMap _ _ _ _
  · have hsome : (Document.parse content).header.fields ≠ [] := by
      intro hnone
      rw [Header.field?, hnone] at hfield
      cases hfield
    have hanswered : (FrontmatterCheck.rules content c.label).Answered
        (HeaderRule.table content .agent) (FrontmatterCheck.report s.verbose c) := by
      rw [FrontmatterCheck.report, FrontmatterCheck.componentRules, hcontent]
      simp only [FrontmatterCheck.documentRules]
      rw [if_neg hsome, hkind]
      exact (FrontmatterCheck.answered_headerRules .agent).kept _ _
    have haccepts : AcceptsName (FrontmatterCheck.report s.verbose c) ↔
        IsAgentName field.value :=
      FrontmatterCheck.acceptsName_iff_of_answered (by simp [HeaderRule.table]) hanswered hfield
    exact ⟨haccepts, by rw [haccepts, isAgentName_and_apart_iff]⟩

/-- An agent's document with a name. -/
def agentNamed (name : Text) : Text := "---\nname: ".toList ++ name ++ "\n---\n".toList

/-- A plugin with an agent whose name is in kebab case and another whose name has two hyphens in a
row. -/
def twoAgentsPlugin : Subject where
  tree := ⟨[], []⟩
  root := ⟨[]⟩
  components :=
    { commands := []
      agents :=
        [⟨.agent, ⟨"agents/a.md".toList⟩, "agents/a.md".toList, .ok (agentNamed "a-1b".toList)⟩,
          ⟨.agent, ⟨"agents/b.md".toList⟩, "agents/b.md".toList, .ok (agentNamed "a--b".toList)⟩]
      skills := [] }
  manifest := .missing
  limits := .standard
  counter := .approximate
  verbose := false

theorem two_agents_plugin_accepted :
    ∀ c ∈ twoAgentsPlugin.components.toList, ∃ name, c.content = .ok (agentNamed name) ∧
      (Document.parse (agentNamed name)).header.field? "name".toList = some ⟨name, 2⟩ ∧
      IsAgentName name ∧ AcceptsName (FrontmatterCheck.report false c) := by
  intro c hc
  have hreport := (agent_name_accepted_iff twoAgentsPlugin).2.2 c hc
  rcases List.mem_cons.mp hc with rfl | hc
  · have hname : IsAgentName "a-1b".toList := by decide
    exact ⟨"a-1b".toList, rfl, by decide, hname,
      (hreport rfl _ rfl ⟨"a-1b".toList, 2⟩ (by decide)).1.mpr hname⟩
  · obtain rfl := List.mem_singleton.mp hc
    have hname : IsAgentName "a--b".toList := by decide
    exact ⟨"a--b".toList, rfl, by decide, hname,
      (hreport rfl _ rfl ⟨"a--b".toList, 2⟩ (by decide)).1.mpr hname⟩

/-- The name with two hyphens in a row is accepted although it is not in kebab case. -/
theorem doubled_hyphen_accepted :
    ¬ ∀ s : Subject, ∀ c ∈ s.components.toList, c.kind = .agent → ∀ content,
      c.content = .ok content →
      ∀ field, (Document.parse content).header.field? "name".toList = some field →
        (AcceptsName (FrontmatterCheck.report s.verbose c) ↔
          3 ≤ field.value.length ∧ field.value.length ≤ 50 ∧ isKebab field.value = true) := by
  intro h
  have hreport := h twoAgentsPlugin
    ⟨.agent, ⟨"agents/b.md".toList⟩, "agents/b.md".toList, .ok (agentNamed "a--b".toList)⟩
    (by simp [twoAgentsPlugin, Components.toList]) rfl _ rfl ⟨"a--b".toList, 2⟩ (by decide)
  have hkebab := (hreport.mp ?_).2.2
  · exact absurd hkebab (by decide)
  · intro i hi hrejects
    have hmessages : (FrontmatterCheck.report twoAgentsPlugin.verbose
        ⟨.agent, ⟨"agents/b.md".toList⟩, "agents/b.md".toList,
          .ok (agentNamed "a--b".toList)⟩).all
        (fun i => i.message != "Invalid agent name format".toList) = true := by decide
    simpa [hrejects.message] using List.all_eq_true.mp hmessages i hi

end PluginLint
