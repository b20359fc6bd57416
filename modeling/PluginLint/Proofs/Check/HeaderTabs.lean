import PluginLint.Proofs.Check.FieldIssues

/-!
# Tabs in headers

A header reaches from the start of a document to the end of the closing delimiter. The rule on tabs
goes through whole lines, and so on to the end of the line of that delimiter. It reports the first
tab up to there, once, at its line (`map_line_tabRule`). Tabs further down are never reported. A tab
behind the delimiter on its line is, although it is no longer in the header, unless the header has
one of its own (`tabs_reported_up_to_line_end`).
-/
namespace PluginLint

namespace Document

/-- The header of a document, from its start to the end of the closing delimiter. -/
def headerSpan (content : Text) : Text :=
  match sections? content with
  | some (block, _) => delimiter ++ block ++ delimiter
  | none => []

/-- What stands behind the closing delimiter on its line. -/
def behindDelimiter (content : Text) : Text :=
  match sections? content with
  | some (_, after) => after.takeWhile (· ≠ '\n')
  | none => []

/-- The line on which the first tab of a text stands. -/
def tabLine? (s : Text) : Option Nat :=
  (Text.cut? ['\t'] s).map fun found => Text.newlines found.1 + 1

theorem occurs_tab_iff {s : Text} : Text.occurs ['\t'] s = true ↔ '\t' ∈ s := by
  rw [Text.occurs_iff_isInfix, List.singleton_infix_iff]

theorem tabLine?_eq_none_iff {s : Text} : tabLine? s = none ↔ '\t' ∉ s := by
  rw [tabLine?, Option.map_eq_none_iff, Text.cut?_eq_none_iff, ← occurs_tab_iff, Bool.not_eq_true]

/-- A first tab stays where it is when more comes behind. -/
theorem tabLine?_append_of_mem {s : Text} (h : '\t' ∈ s) (t : Text) :
    tabLine? (s ++ t) = tabLine? s := by
  obtain ⟨found, hcut⟩ := Option.isSome_iff_exists.mp (occurs_tab_iff.mpr h)
  rw [tabLine?, tabLine?, Text.cut?_append hcut, hcut]
  rfl

/-- The lines down to that of the closing delimiter hold the header and what stands behind it on its
last line. -/
theorem findIdx?_tab_take_lines (content : Text) :
    (((Text.lines content).take (parse content).headerEnd).findIdx? ('\t' ∈ ·)).map (1 + ·) =
      tabLine? (headerSpan content ++ behindDelimiter content) := by
  have hmark : (fun line : Text => decide ('\t' ∈ line)) = Text.occurs ['\t'] := by
    funext line
    rw [Bool.eq_iff_iff, decide_eq_true_iff, occurs_tab_iff]
  rw [hmark]
  cases h : sections? content with
  | none =>
    rw [parse_of_no_sections h, headerSpan, behindDelimiter, h]
    rfl
  | some found =>
    obtain ⟨block, after⟩ := found
    have hwhole : content = delimiter ++ block ++ delimiter ++ after.takeWhile (· ≠ '\n') ++
        after.dropWhile (· ≠ '\n') := by
      rw [List.append_assoc _ (after.takeWhile _), List.takeWhile_append_dropWhile]
      exact append_of_sections h
    have htail : after.dropWhile (· ≠ '\n') = [] ∨
        (after.dropWhile (· ≠ '\n')).head? = some '\n' := by
      cases hdrop : after.dropWhile (· ≠ '\n') with
      | nil => exact .inl rfl
      | cons c rest =>
        have hfirst := List.head?_dropWhile_not (· ≠ '\n') after
        rw [hdrop] at hfirst
        right
        simpa using hfirst
    have hrest : Text.newlines (after.takeWhile (· ≠ '\n')) = 0 := by
      apply Text.newlines_of_open
      intro hmem
      simpa using List.mem_takeWhile_imp hmem
    have hend : (parse content).headerEnd = Text.newlines
        (delimiter ++ block ++ delimiter ++ after.takeWhile (· ≠ '\n')) + 1 := by
      rw [parse_of_sections h, headerEnd_eq_newlines, Text.newlines_append _ (after.takeWhile _),
        hrest, Nat.add_zero]
    have hfound := Text.findIdx?_occurs_take_lines (List.cons_ne_nil '\t' []) (by decide)
      (by decide) (delimiter ++ block ++ delimiter ++ after.takeWhile (· ≠ '\n')) htail
    rw [← hwhole, ← hend] at hfound
    rw [hfound, headerSpan, behindDelimiter, h, tabLine?, Option.map_map]
    simp only [Function.comp_def, Nat.add_comm 1]

end Document

/-! ## The rule -/

/-- Whether an issue is about a tab in a header. -/
def Issue.isOnTab (i : Issue) : Bool := i.message = "Tab character in YAML frontmatter".toList

/-- The lines at which tabs are reported. -/
def tabReports (issues : List Issue) : List (Option Nat) :=
  (issues.filter Issue.isOnTab).map (·.line)

theorem tabReports_append (first second : List Issue) :
    tabReports (first ++ second) = tabReports first ++ tabReports second := by
  rw [tabReports, List.filter_append, List.map_append]
  rfl

theorem Issue.PointsAtLine.of_isOnTab {i : Issue} (h : i.isOnTab = true) : i.PointsAtLine :=
  .inr (.inr (.inl (of_decide_eq_true h)))

/-- Rules that point at no line report no tab. -/
theorem tabReports_eq_nil {issues : List Issue} (h : ∀ i ∈ issues, ¬ i.PointsAtLine) :
    tabReports issues = [] := by
  rw [tabReports, List.map_eq_nil_iff, List.filter_eq_nil_iff]
  intro i hi htab
  exact h i hi (.of_isOnTab htab)

namespace FrontmatterCheck

variable {file : Text}

/-- The first line with a tab is reported and no other. -/
theorem tabReports_tabRule (number : Nat) (ls : List Text) :
    tabReports (tabRule file number ls) =
      ((ls.findIdx? ('\t' ∈ ·)).map (number + ·)).toList.map some := by
  induction ls generalizing number with
  | nil => rfl
  | cons line rest ih =>
    rw [tabRule, List.findIdx?_cons]
    by_cases hline : '\t' ∈ line
    · simp [hline, tabReports, Issue.isOnTab]
    · simp only [hline, if_false, decide_false, Bool.false_eq_true, ih, Option.map_map,
        Function.comp_def, Nat.add_assoc, Nat.add_comm 1]

theorem tabReports_voiceRule (number : Nat) (ls : List Text) :
    tabReports (voiceRule file number ls) = [] := by
  induction ls generalizing number with
  | nil => rfl
  | cons line rest ih =>
    rw [voiceRule, tabReports_append, ih, List.append_nil]
    split
    · simp [tabReports, Issue.isOnTab, Issue.message_atLine]
    · rfl

theorem severity_of_mem_tabRule {number : Nat} {ls : List Text} {i : Issue}
    (h : i ∈ tabRule file number ls) : i.severity = .must := by
  induction ls generalizing number with
  | nil => cases h
  | cons line rest ih =>
    unfold tabRule at h
    split at h
    · obtain rfl := List.mem_singleton.mp h
      rfl
    · exact ih h

/-- What the rules for a kind of component find that are not about tabs. -/
def fieldRules (kind : ComponentKind) (file content : Text) : List Issue :=
  let f := Fields.ofHeader (Document.parse content).header
  match kind with
  | .command => commandRules file f
  | .agent => agentRules file f
  | .skill => skillRules file f (Document.parse content)

theorem tabReports_fieldRules (kind : ComponentKind) (content : Text) :
    tabReports (fieldRules kind file content) = [] := by
  cases kind with
  | command => exact tabReports_eq_nil fun _ h => (isPlain_commandRules h).not_pointsAtLine
  | agent => exact tabReports_eq_nil fun _ h => (isPlain_agentRules h).not_pointsAtLine
  | skill =>
    simp only [fieldRules, skillRules]
    rw [tabReports_append, tabReports_voiceRule, List.append_nil]
    exact tabReports_eq_nil fun _ h => (isPlain_skillFields h).not_pointsAtLine

theorem headerRules_eq (kind : ComponentKind) (content : Text) :
    headerRules kind file content (Document.parse content) =
      tabRule file 1 ((Text.lines content).take (Document.parse content).headerEnd) ++
        fieldRules kind file content := by
  cases kind <;> rfl

theorem tabReports_headerRules (kind : ComponentKind) (content : Text) :
    tabReports (headerRules kind file content (Document.parse content)) =
      (Document.tabLine? (Document.headerSpan content ++
        Document.behindDelimiter content)).toList.map some := by
  rw [headerRules_eq, tabReports_append, tabReports_fieldRules, List.append_nil,
    tabReports_tabRule, Document.findIdx?_tab_take_lines]

/-- A report on a tab is a requirement, so a result keeps it whether passing details are wanted or
not. -/
theorem tabReports_kept_headerRules (kind : ComponentKind) (content : Text) (verbose : Bool) :
    tabReports (Check.kept .frontmatter verbose
      (headerRules kind file content (Document.parse content))) =
      tabReports (headerRules kind file content (Document.parse content)) := by
  have hweight : ∀ i ∈ headerRules kind file content (Document.parse content),
      i.isOnTab = true → i.severity = .must := by
    intro i hi htab
    rw [headerRules_eq] at hi
    rcases List.mem_append.mp hi with hrule | hfield
    · exact severity_of_mem_tabRule hrule
    · have hnone : (fieldRules kind file content).filter Issue.isOnTab = [] :=
        List.map_eq_nil_iff.mp (tabReports_fieldRules kind content)
      exact absurd htab (List.filter_eq_nil_iff.mp hnone i hfield)
  rw [tabReports, Check.kept, List.filter_map, List.map_map, List.filter_filter, tabReports]
  refine congrArg (List.map _) (List.filter_congr fun i hi => ?_)
  by_cases htab : i.isOnTab = true
  · have hstamp : (i.stamp .frontmatter).isOnTab = true := htab
    simp [htab, hstamp, hweight i hi htab]
  · have hstamp : ¬ (i.stamp .frontmatter).isOnTab = true := htab
    simp [htab, hstamp]

end FrontmatterCheck

/-- The frontmatter check reports on the components one after the other. On one with a header it
reports a tab when one stands in the header or behind the closing delimiter on its line, once and at
the line of the first of them. So it reports the first tab of the header and nothing else, except
where the header has none and the closing delimiter has one behind it. -/
theorem tabs_reported_up_to_line_end (s : Subject) :
    (frontmatterCheck.run s).issues =
      s.components.toList.flatMap (FrontmatterCheck.report s.verbose) ∧
    ∀ c ∈ s.components.toList, ∀ content, c.content = .ok content →
      (Document.parse content).header.fields ≠ [] →
      tabReports (FrontmatterCheck.report s.verbose c) =
          (Document.tabLine? (Document.headerSpan content ++
            Document.behindDelimiter content)).toList.map some ∧
        (tabReports (FrontmatterCheck.report s.verbose c) =
            (Document.tabLine? (Document.headerSpan content)).toList.map some ↔
          '\t' ∈ Document.headerSpan content ∨ '\t' ∉ Document.behindDelimiter content) := by
  constructor
  · rw [Check.issues_run]
    exact Check.kept_flatMap _ _ _ _
  · intro c _ content hcontent hsome
    have hreports : tabReports (FrontmatterCheck.report s.verbose c) =
        (Document.tabLine? (Document.headerSpan content ++
          Document.behindDelimiter content)).toList.map some := by
      rw [FrontmatterCheck.report, FrontmatterCheck.componentRules, hcontent]
      simp only [FrontmatterCheck.documentRules]
      rw [if_neg hsome, FrontmatterCheck.tabReports_kept_headerRules,
        FrontmatterCheck.tabReports_headerRules]
    refine ⟨hreports, ?_⟩
    rw [hreports]
    by_cases hheader : '\t' ∈ Document.headerSpan content
    · simp only [Document.tabLine?_append_of_mem hheader, hheader, true_or]
    · simp only [hheader, false_or, Document.tabLine?_eq_none_iff.mpr hheader, Option.toList_none,
        List.map_nil, List.map_eq_nil_iff, Option.toList_eq_nil_iff, Document.tabLine?_eq_none_iff,
        List.mem_append]

/-- A command with no tab in its header and one behind the closing delimiter. -/
def tabbedCommand : Text := "---\ndescription: d\n---Run\tit\n".toList

/-- An agent with a tab in its header and others further down. -/
def tabbedAgent : Text := "---\nname: abc\nmodel:\topus\n---\tRun\n\tit\n".toList

/-- A plugin with both of them. -/
def twoTabsPlugin : Subject where
  tree := ⟨[], []⟩
  root := ⟨[]⟩
  components :=
    { commands :=
        [⟨.command, ⟨"commands/a.md".toList⟩, "commands/a.md".toList, .ok tabbedCommand⟩]
      agents := [⟨.agent, ⟨"agents/b.md".toList⟩, "agents/b.md".toList, .ok tabbedAgent⟩]
      skills := [] }
  manifest := .missing
  limits := .standard
  counter := .approximate
  verbose := false

theorem two_tabs_plugin_reported :
    tabReports (frontmatterCheck.run twoTabsPlugin).issues = [some 3, some 3] ∧
    ∀ c ∈ twoTabsPlugin.components.toList, ∃ content, c.content = .ok content ∧
      (Document.parse content).header.fields ≠ [] ∧
      tabReports (FrontmatterCheck.report false c) =
        (Document.tabLine? (Document.headerSpan content ++
          Document.behindDelimiter content)).toList.map some := by
  refine ⟨by decide, fun c hc => ?_⟩
  have hreport := (tabs_reported_up_to_line_end twoTabsPlugin).2 c hc
  rcases List.mem_cons.mp hc with rfl | hc
  · exact ⟨tabbedCommand, rfl, by decide, (hreport _ rfl (by decide)).1⟩
  · obtain rfl := List.mem_singleton.mp hc
    exact ⟨tabbedAgent, rfl, by decide, (hreport _ rfl (by decide)).1⟩

/-- The tab behind the closing delimiter of the command is reported although it is not in the
header. -/
theorem tab_behind_delimiter_reported :
    ¬ ∀ s : Subject, ∀ c ∈ s.components.toList, ∀ content, c.content = .ok content →
      (Document.parse content).header.fields ≠ [] →
      tabReports (FrontmatterCheck.report s.verbose c) =
        (Document.tabLine? (Document.headerSpan content)).toList.map some := by
  intro h
  have hcommand := h twoTabsPlugin _ List.mem_cons_self tabbedCommand rfl (by decide)
  exact absurd hcommand (by decide)

end PluginLint
