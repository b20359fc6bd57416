import PluginLint.Proofs.Check.Isolation
import PluginLint.Proofs.Check.Messages
import PluginLint.Proofs.Text.Lines

/-!
# Script paths

Quotation marks cut a line into pieces, and a piece between two of them is a literal of the line.
The rule on absolute script paths asks for a literal that opens an absolute path and for the end of
a script right in front of a later quotation mark. That mark may close the same literal or any
literal behind it (`hasScriptPath_iff`), so the rule finds the absolute paths of scripts in a line
with one literal, and in a line with more of them also two literals of which neither is such a path
(`script_path_reported_iff`).
-/
namespace PluginLint

/-! ## Literals -/

namespace Text

/-- The pieces of a text that a quotation mark closes. -/
def closedPieces (s : Text) : List Text := (s.splitOn '"').dropLast

/-- The literals of a line: the pieces that a quotation mark opens and the next one closes. -/
def literals (line : Text) : List Text := (closedPieces line).tail

variable {q p : Text}

theorem closedPieces_of_not_mem (hq : '"' ∉ q) : closedPieces q = [] := by
  rw [closedPieces, List.splitOn_eq_singleton hq, List.dropLast_singleton]

theorem closedPieces_append_cons (hq : '"' ∉ q) (rest : Text) :
    closedPieces (q ++ '"' :: rest) = q :: closedPieces rest := by
  rw [closedPieces, splitOn_append_cons hq,
    List.dropLast_cons_of_ne_nil (List.splitOn_ne_nil _ _), closedPieces]

theorem literals_append_cons (hq : '"' ∉ q) (rest : Text) :
    literals (q ++ '"' :: rest) = closedPieces rest := by
  rw [literals, closedPieces_append_cons hq, List.tail_cons]

/-- A text is closed in the front by its first quotation mark only. -/
theorem closed_prefix_iff (hp : '"' ∉ p) (hq : '"' ∉ q) (rest : Text) :
    p ++ ['"'] <+: q ++ '"' :: rest ↔ p = q := by
  induction p generalizing q with
  | nil =>
    cases q with
    | nil => simp
    | cons d q =>
      have hne : d ≠ '"' := fun h => hq (by simp [h])
      simp [List.cons_prefix_cons, hne.symm]
  | cons c p ih =>
    have hc : c ≠ '"' := fun h => hp (by simp [h])
    have hrest : '"' ∉ p := fun h => hp (List.mem_cons_of_mem c h)
    cases q with
    | nil => simp [List.cons_prefix_cons, hc]
    | cons d q =>
      rw [List.cons_append, List.cons_append, List.cons_prefix_cons,
        ih hrest (fun h => hq (List.mem_cons_of_mem d h)), List.cons_eq_cons]

/-- A closed text stands around the first quotation mark or behind it. -/
theorem closed_infix_append_iff (hp : '"' ∉ p) (hq : '"' ∉ q) (rest : Text) :
    p ++ ['"'] <:+: q ++ '"' :: rest ↔ p <:+ q ∨ p ++ ['"'] <:+: rest := by
  induction q with
  | nil =>
    rw [List.nil_append, List.infix_cons_iff, ← List.nil_append ('"' :: rest),
      closed_prefix_iff hp hq, List.suffix_nil]
  | cons d q ih =>
    have hall := closed_prefix_iff hp hq rest
    rw [List.cons_append] at hall ⊢
    rw [List.infix_cons_iff, hall, ih fun h => hq (List.mem_cons_of_mem d h),
      List.suffix_cons_iff, or_assoc]

end Text

/-! ## Paths in the literals of a line -/

/-- How the names of scripts end. -/
def scriptExtensions : List Text := [".sh".toList, ".py".toList, ".js".toList]

/-- Whether a text starts as an absolute path and not as one below a variable. -/
def OpensPath (p : Text) : Prop := p.head? = some '/' ∧ p[1]? ≠ some '$'

/-- Whether a text ends as the name of a script. -/
def EndsScript (p : Text) : Prop := ∃ extension ∈ scriptExtensions, extension <:+ p

/-- Whether a text is the absolute path of a script, with a character at least between its slash
and the extension. -/
@[mk_iff]
structure IsScriptPath (p : Text) : Prop where
  opens : OpensPath p
  closes : EndsScript p
  length : 5 ≤ p.length

instance (p : Text) : Decidable (OpensPath p) := inferInstanceAs (Decidable (_ ∧ _))

instance (p : Text) : Decidable (EndsScript p) :=
  inferInstanceAs (Decidable (∃ extension ∈ scriptExtensions, extension <:+ p))

/-- Whether the first of some literals opens an absolute path and the same or a later one ends a
script. -/
def OpensScript : List Text → Prop
  | [] => False
  | p :: later => IsScriptPath p ∨ OpensPath p ∧ ∃ q ∈ later, EndsScript q

/-- Whether an absolute path of a script seems to stand in a line: it opens in one literal and ends
in the same or a later one. -/
def SpansScript (line : Text) : Prop := ∃ ls, ls <:+ Text.literals line ∧ OpensScript ls

namespace Phrase

open Text (closedPieces literals)

variable {q rest s : Text}

theorem length_of_mem_scriptExtensions {extension : Text} (h : extension ∈ scriptExtensions) :
    extension.length = 3 := by
  revert extension
  decide

theorem not_mem_of_mem_scriptExtensions {extension : Text} (h : extension ∈ scriptExtensions) :
    '"' ∉ extension := by
  revert extension
  decide

theorem closed_infix_iff {extension : Text} (h : '"' ∉ extension) (s : Text) :
    extension ++ ['"'] <:+: s ↔ ∃ p ∈ closedPieces s, extension <:+ p := by
  induction s using Text.splitInduction '"' with
  | whole q hq =>
    rw [Text.closedPieces_of_not_mem hq]
    simp only [List.not_mem_nil, false_and, exists_false, iff_false]
    exact fun hinside => hq (hinside.subset (by simp))
  | part q rest hq ih =>
    rw [Text.closedPieces_append_cons hq, Text.closed_infix_append_iff h hq, ih]
    simp only [List.mem_cons, exists_eq_or_imp]

/-- One of the marks that the rule looks for stands in a text exactly when a piece that is closed
there ends a script. -/
theorem any_scriptEnds_iff (s : Text) : (scriptEnds.any fun mark => Text.occurs mark s) = true ↔
    ∃ p ∈ closedPieces s, EndsScript p := by
  have hends : scriptEnds = scriptExtensions.map (· ++ ['"']) := rfl
  rw [hends, List.any_map, List.any_eq_true]
  simp only [Function.comp_apply, Text.occurs_iff_isInfix, EndsScript]
  constructor
  · rintro ⟨extension, hmem, hinside⟩
    obtain ⟨p, hp, hend⟩ :=
      (closed_infix_iff (not_mem_of_mem_scriptExtensions hmem) s).mp hinside
    exact ⟨p, hp, extension, hmem, hend⟩
  · rintro ⟨p, hp, extension, hmem, hend⟩
    exact ⟨extension, hmem,
      (closed_infix_iff (not_mem_of_mem_scriptExtensions hmem) s).mpr ⟨p, hp, hend⟩⟩

/-- Two characters in front keep a text that is as long as an extension from ending otherwise. -/
theorem endsScript_iff_cons_cons (c d : Char) (p : Text) :
    EndsScript p ↔ EndsScript (c :: d :: p) ∧ 3 ≤ p.length := by
  constructor
  · rintro ⟨extension, hmem, hend⟩
    have hlength := hend.length_le
    rw [length_of_mem_scriptExtensions hmem] at hlength
    exact ⟨⟨extension, hmem, hend.trans (List.suffix_append [c, d] p)⟩, hlength⟩
  · rintro ⟨⟨extension, hmem, hend⟩, hlength⟩
    refine ⟨extension, hmem, List.suffix_of_suffix_length_le hend (List.suffix_append [c, d] p) ?_⟩
    rwa [length_of_mem_scriptExtensions hmem]

theorem opensScriptPath_slash_iff (c : Char) (rest : Text) :
    opensScriptPath ('"' :: '/' :: c :: rest) = true ↔
      c ≠ '$' ∧ ∃ p ∈ closedPieces rest, EndsScript p := by
  rw [opensScriptPath, Bool.and_eq_true, any_scriptEnds_iff, decide_eq_true_iff]

theorem eq_slash_of_opensScriptPath (h : opensScriptPath ('"' :: s) = true) :
    ∃ c rest, s = '/' :: c :: rest := by
  unfold opensScriptPath at h
  split at h
  · next c rest hs => exact ⟨c, rest, (List.cons.inj hs).2⟩
  · cases h

theorem eq_slash_of_opensScript (h : OpensScript (closedPieces s)) :
    ∃ c rest, s = '/' :: c :: rest := by
  by_cases hs : '"' ∈ s
  · obtain ⟨p, rest, rfl, hp⟩ := List.eq_append_cons_of_mem hs
    rw [Text.closedPieces_append_cons hp] at h
    have hopens : OpensPath p := h.elim (·.opens) (·.1)
    obtain ⟨more, rfl⟩ := List.head?_eq_some_iff.mp hopens.1
    cases more with
    | nil => exact ⟨'"', rest, rfl⟩
    | cons c more => exact ⟨c, more ++ '"' :: rest, rfl⟩
  · rw [Text.closedPieces_of_not_mem hs] at h
    exact h.elim

/-- What stands behind a quotation mark opens the path of a script as its pieces say. -/
theorem opensScriptPath_cons_iff (s : Text) :
    opensScriptPath ('"' :: s) = true ↔ OpensScript (closedPieces s) := by
  by_cases hslash : ∃ c rest, s = '/' :: c :: rest
  · obtain ⟨c, rest, rfl⟩ := hslash
    rw [opensScriptPath_slash_iff]
    by_cases hc : c = '"'
    · have hpieces : closedPieces ('/' :: c :: rest) = ['/'] :: closedPieces rest :=
        hc ▸ Text.closedPieces_append_cons (show '"' ∉ ['/'] by decide) rest
      rw [hpieces]
      simp [hc, OpensScript, OpensPath, isScriptPath_iff]
    · by_cases hrest : '"' ∈ rest
      · obtain ⟨p, behind, rfl, hp⟩ := List.eq_append_cons_of_mem hrest
        have hfirst : '"' ∉ '/' :: c :: p := by simp [hp, Ne.symm hc]
        have hpieces : closedPieces ('/' :: c :: (p ++ '"' :: behind)) =
            ('/' :: c :: p) :: closedPieces behind := Text.closedPieces_append_cons hfirst behind
        have hopens : OpensPath ('/' :: c :: p) ↔ c ≠ '$' := by simp [OpensPath]
        have hpath : IsScriptPath ('/' :: c :: p) ↔ c ≠ '$' ∧ EndsScript p := by
          rw [isScriptPath_iff, endsScript_iff_cons_cons '/' c p, hopens]
          simp
        rw [hpieces, Text.closedPieces_append_cons hp]
        simp only [OpensScript, hpath, hopens, ← and_or_left, List.mem_cons, exists_eq_or_imp]
      · have hall : '"' ∉ '/' :: c :: rest := by simp [hrest, Ne.symm hc]
        rw [Text.closedPieces_of_not_mem hrest, Text.closedPieces_of_not_mem hall]
        simp [OpensScript]
  · exact iff_of_false (fun h => hslash (eq_slash_of_opensScriptPath h))
      (fun h => hslash (eq_slash_of_opensScript h))

/-- No path opens in front of the first quotation mark. -/
theorem hasScriptPath_append (hq : '"' ∉ q) (s : Text) :
    hasScriptPath (q ++ s) = hasScriptPath s := by
  induction q with
  | nil => rfl
  | cons c q ih =>
    have hc : opensScriptPath (c :: (q ++ s)) = false := by
      have hne : c ≠ '"' := fun h => hq (by simp [h])
      unfold opensScriptPath
      split
      · next h => exact absurd (List.cons.inj h).1 hne
      · rfl
    rw [List.cons_append, hasScriptPath, hc, Bool.false_or,
      ih fun h => hq (List.mem_cons_of_mem c h)]

/-- The rule finds a path in a line exactly when one opens in a literal of the line and a script
ends in the same or a later one. -/
theorem hasScriptPath_iff (line : Text) : hasScriptPath line = true ↔ SpansScript line := by
  induction line using Text.splitInduction '"' with
  | whole q hq =>
    have hnone := hasScriptPath_append hq []
    rw [List.append_nil] at hnone
    rw [hnone, SpansScript, Text.literals, Text.closedPieces_of_not_mem hq]
    simp [hasScriptPath, OpensScript]
  | part q rest hq ih =>
    rw [hasScriptPath_append hq, hasScriptPath, Bool.or_eq_true, ih, opensScriptPath_cons_iff,
      SpansScript, SpansScript, Text.literals_append_cons hq, Text.literals]
    cases closedPieces rest with
    | nil => simp
    | cons p ls =>
      simp only [List.tail_cons, List.suffix_cons_iff, or_and_right, exists_or, exists_eq_left]

end Phrase

/-- In a line with one literal at most the rule finds the absolute paths of scripts. -/
theorem spansScript_iff_of_length_le_one {line : Text} (h : (Text.literals line).length ≤ 1) :
    SpansScript line ↔ ∃ p ∈ Text.literals line, IsScriptPath p := by
  rw [SpansScript]
  match hls : Text.literals line with
  | [] => simp [OpensScript]
  | [p] => simp [List.suffix_cons_iff, OpensScript]
  | _ :: _ :: _ => simp [hls] at h

/-! ## What the check reports -/

/-- Whether an issue says that a line of a file holds the absolute path of a script. -/
structure Issue.NamesScript (i : Issue) (file : Text) (number : Nat) : Prop where
  severity : i.severity = .should
  message : i.message = "Hardcoded absolute path".toList
  file : i.file = some file
  line : i.line = some number

namespace StructureCheck

/-- The issue on a line of a file that holds the absolute path of a script. -/
def pathIssue (file line : Text) (number : Nat) : Issue where
  severity := .should
  message := "Hardcoded absolute path".toList
  file := some file
  line := some number
  source := some (Text.trim line)
  suggestion := some "Use $\x7bCLAUDE_PLUGIN_ROOT\x7d/path/to/script".toList

/-- What is found in a file, line by line in their order. -/
theorem scriptPaths_eq (file : Text) (number : Nat) (ls : List Text) :
    scriptPaths file number ls =
      ((ls.zipIdx number).filter fun place => Phrase.hasScriptPath place.1).map
        fun place => pathIssue file place.1 place.2 := by
  induction ls generalizing number with
  | nil => rfl
  | cons line rest ih =>
    rw [scriptPaths, ih, List.zipIdx_cons, List.filter_cons]
    cases Phrase.hasScriptPath line <;> rfl

theorem exists_namesScript_scriptPaths {file other text : Text} {number : Nat} :
    (∃ i ∈ scriptPaths file 1 (Text.lines text), i.NamesScript other number) ↔
      file = other ∧ ∃ line, Text.lineAt? text number = some line ∧ SpansScript line := by
  rw [scriptPaths_eq]
  constructor
  · rintro ⟨i, hi, hnames⟩
    obtain ⟨⟨line, place⟩, hplace, rfl⟩ := List.mem_map.mp hi
    obtain ⟨hmem, hspans⟩ := List.mem_filter.mp hplace
    obtain rfl : place = number := Option.some.inj hnames.line
    exact ⟨Option.some.inj hnames.file, line, Text.mem_zipIdx_lines_iff.mp hmem,
      (Phrase.hasScriptPath_iff line).mp hspans⟩
  · rintro ⟨rfl, line, hline, hspans⟩
    have hplace : (line, number) ∈ ((Text.lines text).zipIdx 1).filter
        fun place => Phrase.hasScriptPath place.1 :=
      List.mem_filter.mpr ⟨Text.mem_zipIdx_lines_iff.mpr hline,
        (Phrase.hasScriptPath_iff line).mpr hspans⟩
    exact ⟨pathIssue file line number, List.mem_map.mpr ⟨_, hplace, rfl⟩, rfl, rfl, rfl, rfl⟩

theorem exists_namesScript_scriptConfig {s : Subject} {file other : Text} {number : Nat} :
    (∃ i ∈ scriptConfig s file, i.NamesScript other number) ↔ file = other ∧
      ∃ text line, s.tree.readOptional (s.root.join file) = .ok (some text) ∧
        Text.lineAt? text number = some line ∧ SpansScript line := by
  unfold scriptConfig
  split
  · next text htext => simp [exists_namesScript_scriptPaths, htext]
  · next hnone => simp [hnone]
  · next fault hfault =>
    have hother : ¬ (Issue.cannotRead file
        (LintError.io fault.message.toList).message).NamesScript other number := by
      rintro ⟨-, hmessage, -, -⟩
      simp [Issue.cannotRead] at hmessage
    simp [hfault, hother]

/-- In a run only the files that may name scripts give rise to such issues. -/
theorem exists_namesScript_run {s : Subject} {file : Text} {number : Nat} :
    (∃ i ∈ (structureCheck.run s).issues, i.NamesScript file number) ↔
      s.manifest.isMissing = false ∧ ∃ config ∈ scriptConfigs,
        ∃ i ∈ scriptConfig s config.toList, i.NamesScript file number := by
  have hrecord : (∃ i ∈ (structureCheck.run s).issues, i.NamesScript file number) ↔
      ∃ i ∈ (inspect s).issues, i.NamesScript file number :=
    Check.exists_record _ _ _
      (fun _ => ⟨fun h => ⟨h.severity, h.message, h.file, h.line⟩,
        fun h => ⟨h.severity, h.message, h.file, h.line⟩⟩)
      fun i hi => by simp [hi.severity]
  rw [hrecord]
  constructor
  · rintro ⟨i, hi, hnames⟩
    have hpoints : i.PointsAtLine := .inr (.inr (.inr hnames.message))
    obtain ⟨hmanifest, config, hconfig, hscript⟩ := exists_scriptConfig_of_mem_inspect hi hpoints
    exact ⟨hmanifest, config, hconfig, i, hscript, hnames⟩
  · rintro ⟨hmanifest, config, hconfig, i, hi, hnames⟩
    refine ⟨i, ?_, hnames⟩
    have hscript : i ∈ scriptConfigs.flatMap fun file => scriptConfig s file.toList :=
      List.mem_flatMap.mpr ⟨config, hconfig, hi⟩
    simp [inspect, hmanifest, layout, hscript]

end StructureCheck

/-- The structure check reports an absolute script path at a line of a file exactly when the plugin
has a manifest, the file is one of those that may name scripts, and it can be read and has that
line, with an absolute path that opens in a literal of the line and a script that ends in the same
literal or a later one. A line with one literal at most is reported exactly when that literal is the
absolute path of a script. -/
theorem script_path_reported_iff (s : Subject) (file : Text) (number : Nat) :
    ((∃ i ∈ (structureCheck.run s).issues, i.NamesScript file number) ↔
      s.manifest.isMissing = false ∧
      (∃ config ∈ StructureCheck.scriptConfigs, config.toList = file) ∧
      ∃ text line, s.tree.readOptional (s.root.join file) = .ok (some text) ∧
        Text.lineAt? text number = some line ∧ SpansScript line) ∧
    ∀ text line, s.tree.readOptional (s.root.join file) = .ok (some text) →
      Text.lineAt? text number = some line → (Text.literals line).length ≤ 1 →
      ((∃ i ∈ (structureCheck.run s).issues, i.NamesScript file number) ↔
        s.manifest.isMissing = false ∧
        (∃ config ∈ StructureCheck.scriptConfigs, config.toList = file) ∧
        ∃ p ∈ Text.literals line, IsScriptPath p) := by
  have hreported : (∃ i ∈ (structureCheck.run s).issues, i.NamesScript file number) ↔
      s.manifest.isMissing = false ∧
      (∃ config ∈ StructureCheck.scriptConfigs, config.toList = file) ∧
      ∃ text line, s.tree.readOptional (s.root.join file) = .ok (some text) ∧
        Text.lineAt? text number = some line ∧ SpansScript line := by
    rw [StructureCheck.exists_namesScript_run]
    simp only [StructureCheck.exists_namesScript_scriptConfig]
    refine and_congr_right fun _ => ⟨?_, ?_⟩
    · rintro ⟨config, hconfig, rfl, hline⟩
      exact ⟨⟨config, hconfig, rfl⟩, hline⟩
    · rintro ⟨⟨config, hconfig, rfl⟩, hline⟩
      exact ⟨config, hconfig, rfl, hline⟩
  refine ⟨hreported, fun text line htext hline hone => ?_⟩
  rw [hreported, ← spansScript_iff_of_length_le_one hone]
  refine and_congr_right fun _ => and_congr_right fun _ =>
    ⟨?_, fun h => ⟨text, line, htext, hline, h⟩⟩
  rintro ⟨other, found, hother, hfound, hspans⟩
  obtain rfl : other = text := Option.some.inj (Except.ok.inj (hother.symm.trans htext))
  obtain rfl : found = line := Option.some.inj (hfound.symm.trans hline)
  exact hspans

/-- A settings file with the absolute path of a script and two texts that are none. -/
def argumentsText : Text := "\x7b\"a\": [\n\"/opt/run.sh\",\n\"/opt\", \"run.sh\"\n]\x7d\n".toList

/-- A plugin with that file. -/
def argumentsPlugin : Subject where
  tree :=
    { nodes := [(["p".toList], .directory),
        (["p".toList, ".mcp.json".toList], .file (.text argumentsText))]
      base := [] }
  root := ⟨"/p".toList⟩
  components := ⟨[], [], []⟩
  manifest := .loaded (.ofMembers [] "\x7b\x7d".toList)
  limits := .standard
  counter := .approximate
  verbose := false

theorem readOptional_argumentsPlugin : argumentsPlugin.tree.readOptional
    (argumentsPlugin.root.join ".mcp.json".toList) = .ok (some argumentsText) := by decide +kernel

/-- The line with the path of a script is reported for it. -/
theorem single_script_path_reported :
    Text.lineAt? argumentsText 2 = some "\"/opt/run.sh\",".toList ∧
    Text.literals "\"/opt/run.sh\",".toList = ["/opt/run.sh".toList] ∧
    ∃ i ∈ (structureCheck.run argumentsPlugin).issues, i.NamesScript ".mcp.json".toList 2 := by
  have hline : Text.lineAt? argumentsText 2 = some "\"/opt/run.sh\",".toList := by decide
  have hliterals : Text.literals "\"/opt/run.sh\",".toList = ["/opt/run.sh".toList] := by decide
  have hpath : IsScriptPath "/opt/run.sh".toList := ⟨by decide, by decide, by decide⟩
  refine ⟨hline, hliterals, ((script_path_reported_iff argumentsPlugin ".mcp.json".toList 2).2
    _ _ readOptional_argumentsPlugin hline (by rw [hliterals]; decide)).mpr
    ⟨rfl, ⟨".mcp.json", by decide, rfl⟩, ?_⟩⟩
  rw [hliterals]
  exact ⟨_, List.mem_singleton.mpr rfl, hpath⟩

/-- The line behind it is reported as well, although none of its literals starts as an absolute path
and ends as a script. -/
theorem separate_literals_reported :
    ¬ ∀ (s : Subject) (file : Text) (number : Nat),
      (∃ i ∈ (structureCheck.run s).issues, i.NamesScript file number) →
      ∀ text line, s.tree.readOptional (s.root.join file) = .ok (some text) →
        Text.lineAt? text number = some line →
        ∃ p ∈ Text.literals line, p.head? = some '/' ∧ EndsScript p := by
  intro h
  have hline : Text.lineAt? argumentsText 3 = some "\"/opt\", \"run.sh\"".toList := by decide
  have hissue : StructureCheck.pathIssue ".mcp.json".toList "\"/opt\", \"run.sh\"".toList 3 ∈
      StructureCheck.scriptConfig argumentsPlugin ".mcp.json".toList := by
    rw [StructureCheck.scriptConfig, readOptional_argumentsPlugin]
    decide
  have hreported : ∃ i ∈ (structureCheck.run argumentsPlugin).issues,
      i.NamesScript ".mcp.json".toList 3 :=
    StructureCheck.exists_namesScript_run.mpr
      ⟨rfl, ".mcp.json", by decide, _, hissue, rfl, rfl, rfl, rfl⟩
  obtain ⟨p, hp, hslash, hend⟩ :=
    h argumentsPlugin _ 3 hreported _ _ readOptional_argumentsPlugin hline
  revert p
  decide

end PluginLint
