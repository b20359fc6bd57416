import PluginLint.Proofs.Check.Isolation
import PluginLint.Proofs.Document.Sections
import PluginLint.Proofs.Text.LineEnds

/-!
# Documents with either kind of line end

Every place where a document is read goes by its lines, by its line feeds or by a mark that lies
within a line, so it makes no difference whether its lines end in a line feed or in a return and a
line feed. The header is the same and stands on the same lines, the body has the same lines in the
same places, and the checks that read documents find the same
(`line_ends_make_no_difference`).
-/
namespace PluginLint

namespace Document

theorem sections?_withReturns (content : Text) :
    sections? (Text.withReturns content) =
      (sections? content).map fun found => (Text.withReturns found.1, Text.withReturns found.2) := by
  have hprefix : delimiter.isPrefixOf (Text.withReturns content) = delimiter.isPrefixOf content := by
    rw [Bool.eq_iff_iff, List.isPrefixOf_iff_prefix, List.isPrefixOf_iff_prefix]
    exact Text.isPrefix_withReturns_iff (by decide) (by decide) content
  by_cases hopen : delimiter <+: content
  · obtain ⟨rest, rfl⟩ := hopen
    have hdelimiter : Text.withReturns delimiter = delimiter := by decide
    rw [Text.withReturns_append, hdelimiter, sections?_of_opened, sections?_of_opened]
    exact Text.cut?_withReturns (by decide) (by decide) (by decide) rest
  · have hno : delimiter.isPrefixOf content = false := by
      rw [Bool.eq_false_iff, Ne, List.isPrefixOf_iff_prefix]
      exact hopen
    simp [sections?, hprefix, hno]

variable {content : Text} (h : '\r' ∉ content)
include h

/-- What is read of the lines of a header block is read of the same lines. -/
theorem parse_withReturns :
    parse (Text.withReturns content) =
      { parse content with body := Text.withReturns (parse content).body } := by
  cases hsections : sections? content with
  | none =>
    have hnone : sections? (Text.withReturns content) = none := by
      rw [sections?_withReturns, hsections]
      rfl
    rw [parse_of_no_sections hnone, parse_of_no_sections hsections]
    rfl
  | some found =>
    obtain ⟨block, after⟩ := found
    have hfound : sections? (Text.withReturns content) =
        some (Text.withReturns block, Text.withReturns after) := by
      rw [sections?_withReturns, hsections]
      rfl
    have hblock : '\r' ∉ Text.trim block := by
      intro hin
      apply h
      rw [append_of_sections hsections, ← Text.blanks_append_trim block]
      simp [hin]
    rw [parse_of_sections hfound, parse_of_sections hsections]
    simp only [ofSections, Text.newlines_withReturns, Text.leadingBlanks_withReturns,
      Text.trim_withReturns, Header.read, Text.lines_withReturns hblock]

theorem lines_body_withReturns :
    Text.lines (parse (Text.withReturns content)).body = Text.lines (parse content).body := by
  have hbody : '\r' ∉ (parse content).body := by
    intro hin
    apply h
    cases hsections : sections? content with
    | none =>
      rw [parse_of_no_sections hsections] at hin
      exact hin
    | some found =>
      rw [append_of_body hsections]
      simp [hin]
  rw [parse_withReturns h]
  exact Text.lines_withReturns hbody

end Document

/-! ## Checks -/

section Checks

variable {content : Text} (h : '\r' ∉ content)
include h

theorem FrontmatterCheck.documentRules_withReturns (kind : ComponentKind) (file : Text) :
    documentRules kind file (Text.withReturns content) = documentRules kind file content := by
  have hheader : (Document.parse (Text.withReturns content)).header =
      (Document.parse content).header := by
    rw [Document.parse_withReturns h]
  have hend : (Document.parse (Text.withReturns content)).headerEnd =
      (Document.parse content).headerEnd := by
    rw [Document.parse_withReturns h]
  have hline : (Document.parse (Text.withReturns content)).lineOfBody 1 =
      (Document.parse content).lineOfBody 1 := by
    rw [Document.parse_withReturns h]
    rfl
  simp only [documentRules, headerRules, skillRules, hheader, hend, hline,
    Text.lines_withReturns h, Document.lines_body_withReturns h]

theorem ToolsCheck.documentRules_withReturns (file : Text) :
    documentRules file (Text.withReturns content) = documentRules file content := by
  simp only [documentRules, Document.parse_withReturns h, Document.proseLines,
    Text.lines_withReturns h]

theorem report_withReturns {c : Component} (hc : c.content = .ok content) (verbose : Bool) :
    FrontmatterCheck.report verbose (c.withContent (.ok (Text.withReturns content))) =
        FrontmatterCheck.report verbose c ∧
      ToolsCheck.report verbose (c.withContent (.ok (Text.withReturns content))) =
        ToolsCheck.report verbose c := by
  simp only [FrontmatterCheck.report, ToolsCheck.report, FrontmatterCheck.componentRules,
    ToolsCheck.componentRules, Component.withContent, hc,
    FrontmatterCheck.documentRules_withReturns h, ToolsCheck.documentRules_withReturns h, and_self]

end Checks

/-- A check that reports alike on two contents of a component finds alike in two plugins that differ
in this. -/
theorem Check.ReportsApart.issues_withContent {c : Check} {report : Bool → Component → List Issue}
    (hc : c.ReportsApart report) {s : Subject} {kind : ComponentKind} {i : Nat} {old : Component}
    (hold : (s.components.ofKind kind)[i]? = some old) {content : Except Fault Text}
    (hsame : report s.verbose (old.withContent content) = report s.verbose old) :
    (c.run (s.withContent kind i content)).issues = (c.run s).issues := by
  obtain ⟨front, back, -, hbefore, hafter⟩ := hc.replaced s kind i old content hold
  rw [hafter, hbefore, hsame]

/-- A document without carriage returns is read in the same way when every line feed in it gets a
return before it. Its header has the same fields on the same lines and ends on the same line, and
the lines of its body are the same in the same places. The frontmatter check and the tools check
find the same in a plugin, whichever component of whatever kind has the document. -/
theorem line_ends_make_no_difference (content : Text) (h : '\r' ∉ content) :
    let d := Document.parse content
    let d' := Document.parse (Text.withReturns content)
    d'.header = d.header ∧ d'.headerEnd = d.headerEnd ∧ d'.bodyOffset = d.bodyOffset ∧
      Text.lines d'.body = Text.lines d.body ∧
      ∀ (s : Subject) (kind : ComponentKind) (i : Nat) (c : Component),
        (s.components.ofKind kind)[i]? = some c → c.content = .ok content →
        let s' := s.withContent kind i (.ok (Text.withReturns content))
        (frontmatterCheck.run s').issues = (frontmatterCheck.run s).issues ∧
          (toolsCheck.run s').issues = (toolsCheck.run s).issues := by
  intro d d'
  have hparse : d' = { d with body := Text.withReturns d.body } := Document.parse_withReturns h
  refine ⟨by rw [hparse], by rw [hparse], by rw [hparse], Document.lines_body_withReturns h, ?_⟩
  intro s kind i c hc hcontent s'
  obtain ⟨hfrontmatter, htools⟩ := report_withReturns h hcontent s.verbose
  exact ⟨frontmatterCheck_reportsApart.issues_withContent hc hfrontmatter,
    toolsCheck_reportsApart.issues_withContent hc htools⟩

/-- A skill with a block in its header and something to be found in each of its parts. -/
def tabbedSkill : Text :=
  "---\nname: a\ndescription: |\n  one\n\n\ttwo words\n---\n\nYou must use the Read tool\n".toList

def tabbedPlugin : Subject where
  tree := ⟨[], []⟩
  root := ⟨"/p".toList⟩
  components :=
    ⟨[], [], [⟨.skill, ⟨"/p/skills/a/SKILL.md".toList⟩, "skills/a/SKILL.md".toList,
      .ok tabbedSkill⟩]⟩
  manifest := .missing
  limits := .standard
  counter := .approximate
  verbose := false

set_option maxRecDepth 4000 in
theorem tabbed_skill_found_with_returns :
    '\r' ∉ tabbedSkill ∧
    (Document.parse (Text.withReturns tabbedSkill)).header = (Document.parse tabbedSkill).header ∧
    let s := tabbedPlugin.withContent .skill 0 (.ok (Text.withReturns tabbedSkill))
    (frontmatterCheck.run s).issues.map (fun i => (i.message, i.line)) =
        [("Tab character in YAML frontmatter".toList, some 6),
          ("Second-person voice in skill body".toList, some 9)] ∧
      (toolsCheck.run s).issues.map (fun i => (i.message, i.line)) =
        [("Explicit core tool reference".toList, some 9)] := by
  have hreturn : '\r' ∉ tabbedSkill := by decide
  obtain ⟨hheader, -, -, -, hissues⟩ := line_ends_make_no_difference tabbedSkill hreturn
  obtain ⟨hfrontmatter, htools⟩ := hissues tabbedPlugin .skill 0 _ rfl rfl
  refine ⟨hreturn, hheader, ?_, ?_⟩
  · rw [hfrontmatter]
    decide
  · rw [htools]
    decide

end PluginLint
