import PluginLint.Proofs.Check.Messages
import PluginLint.Proofs.Check.NumberedLines
import PluginLint.Proofs.Plugin.Labels

/-!
# Issues that point at a line

In a whole report an issue of a kind that points at a line comes from a rule that goes through
numbered lines, so the line that it names is one of the file that it names, with the quoted text in
it. A run looks the file up at the label of a component, which leads to where the component was read
(`pointed_lines_hold_source`).
-/
namespace PluginLint

/-- Whether the line that an issue names is one of the file that it names, with the text that it
quotes. The file is looked up below the root. -/
def Issue.ShownIn (i : Issue) (t : FileTree) (root : Path) : Prop :=
  ∃ file text number line source, i.file = some file ∧ t.readText (root.join file) = .ok text ∧
    i.line = some number ∧ 1 ≤ number ∧ number ≤ (Text.lines text).length ∧
    Text.lineAt? text number = some line ∧ i.source = some source ∧ source <:+: line

section Runs

variable {t : FileTree} {root : Path} {file content : Text} {i : Issue}

theorem Issue.OnLine.shownIn (h : i.OnLine file 1 (Text.lines content))
    (hread : t.readText (root.join file) = .ok content) : i.ShownIn t root := by
  obtain ⟨j, line, source, hline, hfile, hnumber, hsource, hpart⟩ := h
  have hat : Text.lineAt? content (1 + j) = some line := by
    rw [Nat.add_comm]
    exact hline
  obtain ⟨hlow, hhigh⟩ := Text.range_of_lineAt? hat
  exact ⟨file, content, 1 + j, line, source, hfile, hread, hnumber, hlow, hhigh, hat, hsource,
    hpart⟩

theorem FrontmatterCheck.onLine_of_mem_documentRules {kind : ComponentKind}
    (h : i ∈ documentRules kind file content) (hi : i.PointsAtLine) :
    i.OnLine file 1 (Text.lines content) := by
  simp only [documentRules] at h
  split at h
  · obtain rfl := List.mem_singleton.mp h
    exact absurd hi isPlain_headerMissing.not_pointsAtLine
  · rcases List.mem_append.mp h with htab | hfields
    · exact (onLine_of_mem_tabRule htab).of_take
    · cases kind with
      | command => exact absurd hi (isPlain_commandRules hfields).not_pointsAtLine
      | agent => exact absurd hi (isPlain_agentRules hfields).not_pointsAtLine
      | skill =>
        rcases List.mem_append.mp hfields with hheader | hvoice
        · exact absurd hi (isPlain_skillFields hheader).not_pointsAtLine
        · have hpos : 0 < (Document.parse content).lineOfBody 1 := Nat.succ_pos _
          exact onLine_of_body (onLine_of_mem_voiceRule hpos hvoice)

theorem ToolsCheck.onLine_of_mem_documentRules (h : i ∈ documentRules file content)
    (hi : i.PointsAtLine) : i.OnLine file 1 (Text.lines content) := by
  rcases List.mem_append.mp h with hprose | hshell
  · obtain ⟨p, hp, hplaced⟩ := List.mem_flatMap.mp hprose
    exact onLine_of_mem_placedIssues hp hplaced
  · exact absurd hi (isPlain_shellRule hshell).not_pointsAtLine

/-- Where the rules of a check find pointing issues on the lines of a document, its rules for a
component find them on those of the document that was read. -/
theorem onLine_of_mem_componentRules {c : Component} {rules : Text → List Issue}
    (hrules : ∀ text, i ∈ rules text → i.PointsAtLine → i.OnLine c.label 1 (Text.lines text))
    (h : i ∈ match c.content with
      | .error fault => [c.cannotRead fault]
      | .ok text => rules text) (hi : i.PointsAtLine) :
    ∃ text, c.content = .ok text ∧ i.OnLine c.label 1 (Text.lines text) := by
  split at h
  · obtain rfl := List.mem_singleton.mp h
    exact absurd hi (Issue.saysUnreadable_cannotRead _ _).not_pointsAtLine
  · next text htext => exact ⟨text, htext, hrules text h hi⟩

theorem StructureCheck.shownIn_of_mem_scriptConfig {s : Subject} (h : i ∈ scriptConfig s file)
    (hi : i.PointsAtLine) : i.ShownIn s.tree s.root := by
  unfold scriptConfig at h
  split at h
  · next text htext =>
    have hread : s.tree.readText (s.root.join file) = .ok text := by
      unfold FileTree.readOptional at htext
      split at htext
      · cases hfile : s.tree.readText (s.root.join file) with
        | error fault =>
          rw [hfile] at htext
          cases htext
        | ok found =>
          rw [hfile] at htext
          exact congrArg Except.ok (Option.some.inj (Except.ok.inj htext))
      · cases htext
    exact (onLine_of_mem_scriptPaths h).shownIn hread
  · cases h
  · obtain rfl := List.mem_singleton.mp h
    exact absurd hi (Issue.saysUnreadable_cannotRead _ _).not_pointsAtLine

theorem StructureCheck.shownIn_of_mem_inspect {s : Subject} (h : i ∈ (inspect s).issues)
    (hi : i.PointsAtLine) : i.ShownIn s.tree s.root := by
  obtain ⟨-, _, -, hscript⟩ := exists_scriptConfig_of_mem_inspect h hi
  exact shownIn_of_mem_scriptConfig hscript hi

/-- What a built-in check finds at a line of a plugin stands there. -/
theorem shownIn_of_mem_inspect (hnames : t.WellNamed) {c : Check} (hc : c ∈ builtinChecks)
    {limits : Limits} {counter : Counter} {verbose : Bool}
    (h : i ∈ (c.inspect (Subject.ofRoot t root limits counter verbose)).issues)
    (hi : i.PointsAtLine) : i.ShownIn t root := by
  have hcomponent {component : Component} (hmem : component ∈ (discover t root).toList)
      {text : Text} (htext : component.content = .ok text)
      (hline : i.OnLine component.label 1 (Text.lines text)) : i.ShownIn t root :=
    hline.shownIn ((readText_label_of_mem hnames hmem).trans htext)
  rcases builtin_cases hc with rfl | rfl | rfl | rfl | rfl
  · exact StructureCheck.shownIn_of_mem_inspect h hi
  · exact absurd hi (ManifestCheck.not_pointsAtLine_inspect h)
  · obtain ⟨component, hmem, hrule⟩ := List.mem_flatMap.mp h
    obtain ⟨text, htext, hline⟩ := onLine_of_mem_componentRules
      (fun _ => FrontmatterCheck.onLine_of_mem_documentRules) hrule hi
    exact hcomponent hmem htext hline
  · obtain ⟨component, hmem, hrule⟩ := List.mem_flatMap.mp h
    obtain ⟨text, htext, hline⟩ := onLine_of_mem_componentRules
      (fun _ => ToolsCheck.onLine_of_mem_documentRules) hrule hi
    exact hcomponent hmem htext hline
  · exact absurd hi (TokensCheck.not_pointsAtLine_inspect h)

end Runs

/-- In the report of a run, whatever its selection, budget and plugin, the issues on second-person
voice, on named tools, on tabs in a header and on absolute script paths name a line that the file
they name has, and their source is part of that line. -/
theorem pointed_lines_hold_source (t : FileTree) (root : Path) (limits : Limits)
    (counter : Counter) (verbose : Bool) (kinds : List CheckKind) (hnames : t.WellNamed) :
    ∀ r ∈ (((Engine.standard limits verbose).select kinds).validate t root counter).results,
      ∀ i ∈ r.issues, i.PointsAtLine → i.ShownIn t root := by
  intro r hr i hi hpoints
  obtain ⟨kind, -, rfl⟩ := Engine.mem_results_iff.mp hr
  rw [Check.run, Check.record_eq] at hi
  obtain ⟨found, hfound, rfl⟩ := List.mem_map.mp hi
  have hshown : found.ShownIn t root :=
    shownIn_of_mem_inspect hnames (builtinCheck_mem kind) (List.mem_of_mem_filter hfound) hpoints
  exact hshown

/-- A skill with blank lines between its header and its body. -/
def voicedSkill : Component :=
  ⟨.skill, ⟨"/p/skills/a/SKILL.md".toList⟩, "skills/a/SKILL.md".toList,
    .ok "---\nname: a\n---\n\n\n  You must stop \n".toList⟩

def voicedPlugin : FileTree where
  nodes :=
    [(["p".toList], .directory), (["p".toList, "skills".toList], .directory),
      (["p".toList, "skills".toList, "a".toList], .directory),
      (["p".toList, "skills".toList, "a".toList, skillEntry.toList],
        .file (.text "---\nname: a\n---\n\n\n  You must stop \n".toList))]
  base := []

def voicedIssue : Issue where
  severity := .should
  check := .frontmatter
  message := "Second-person voice in skill body".toList
  file := some "skills/a/SKILL.md".toList
  line := some 6
  source := some "You must stop".toList
  suggestion := some "Use imperative form: 'Parse the file...' instead of 'You should...'".toList

theorem voicedIssue_mem_run : voicedIssue ∈ (frontmatterCheck.run
    (Subject.ofRoot voicedPlugin ⟨"/p".toList⟩ .standard .approximate false)).issues := by
  have hskills : discover voicedPlugin ⟨"/p".toList⟩ = ⟨[], [], [voicedSkill]⟩ := by
    simp only [discover, flatDocuments, skillDocuments, skillDirectories, FileTree.entries,
      FileTree.names, FileTree.mergeSort_inOrder]
    rfl
  unfold Check.run Subject.ofRoot
  rw [hskills]
  decide

/-- The body starts on line 6, so that is the line of the issue. -/
theorem voiced_line_holds_source :
    voicedPlugin.WellNamed ∧ voicedIssue.PointsAtLine ∧
    (∃ r ∈ (((Engine.standard .standard false).select [.frontmatter]).validate voicedPlugin
        ⟨"/p".toList⟩ .approximate).results, voicedIssue ∈ r.issues) ∧
    voicedIssue.ShownIn voicedPlugin ⟨"/p".toList⟩ := by
  have hnames : voicedPlugin.WellNamed := by
    unfold FileTree.WellNamed
    decide
  have hpoints : voicedIssue.PointsAtLine := .inl rfl
  have hrun : frontmatterCheck.run
        (Subject.ofRoot voicedPlugin ⟨"/p".toList⟩ .standard .approximate false) ∈
      (((Engine.standard .standard false).select [.frontmatter]).validate voicedPlugin
        ⟨"/p".toList⟩ .approximate).results :=
    Engine.mem_results_iff.mpr ⟨.frontmatter, by decide, rfl⟩
  exact ⟨hnames, hpoints, ⟨_, hrun, voicedIssue_mem_run⟩,
    pointed_lines_hold_source voicedPlugin ⟨"/p".toList⟩ .standard .approximate false
      [.frontmatter] hnames _ hrun voicedIssue voicedIssue_mem_run hpoints⟩

end PluginLint
