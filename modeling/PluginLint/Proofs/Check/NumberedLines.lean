import PluginLint.Check.Frontmatter
import PluginLint.Check.Structure
import PluginLint.Check.Tools
import PluginLint.Proofs.Document.BodyLines
import PluginLint.Proofs.Document.ProseLines

/-!
# Issues with a line number

Each rule that names a line of a file and quotes from it goes through some lines of the file with a
number that counts along (`OnLine`), and the number it starts with is that of its first line in the
file: one for a header or a settings file, the line behind a header block for prose, and for a body
the line on which it starts. So what such a rule finds stands on a line of the file, at its number.
-/
namespace PluginLint

/-! ## Numbered lines -/

/-- Whether an issue stands on one of some lines of a file, the first of them having the number
`first`, and quotes a part of it. -/
def Issue.OnLine (i : Issue) (file : Text) (first : Nat) (ls : List Text) : Prop :=
  ∃ j line source, ls[j]? = some line ∧ i.file = some file ∧ i.line = some (first + j) ∧
    i.source = some source ∧ source <:+: line

namespace Issue.OnLine

variable {i : Issue} {file line source : Text} {first : Nat} {ls rest : List Text}

theorem head (hfile : i.file = some file) (hline : i.line = some first)
    (hsource : i.source = some source) (hpart : source <:+: line) :
    i.OnLine file first (line :: rest) :=
  ⟨0, line, source, rfl, hfile, hline, hsource, hpart⟩

theorem tail (h : i.OnLine file (first + 1) rest) : i.OnLine file first (line :: rest) := by
  obtain ⟨j, found, source, hfound, hfile, hline, hsource⟩ := h
  refine ⟨j + 1, found, source, by simpa using hfound, hfile, ?_, hsource⟩
  rw [hline, Nat.add_assoc, Nat.add_comm 1]

theorem of_take {k : Nat} (h : i.OnLine file first (ls.take k)) : i.OnLine file first ls := by
  obtain ⟨j, line, source, hline, hrest⟩ := h
  rw [List.getElem?_take, Option.ite_none_right_eq_some] at hline
  exact ⟨j, line, source, hline.2, hrest⟩

end Issue.OnLine

/-! ## The rules that point at lines -/

/-- Putting an issue at a line changes nothing else about it. -/
theorem Issue.exists_atLine_eq (i : Issue) (number : Nat) :
    ∃ line, i.atLine number = { i with line := line } := by
  unfold atLine
  split
  · exact ⟨i.line, rfl⟩
  · exact ⟨some number, rfl⟩

theorem Issue.atLine_of_pos (i : Issue) {line : Nat} (h : 0 < line) :
    i.atLine line = { i with line := some line } := by
  simp [atLine, Nat.ne_of_gt h]

section Rules

variable {file content : Text} {number : Nat} {ls : List Text} {i : Issue}

theorem FrontmatterCheck.onLine_of_mem_tabRule (h : i ∈ tabRule file number ls) :
    i.OnLine file number ls := by
  induction ls generalizing number with
  | nil => cases h
  | cons line rest ih =>
    unfold tabRule at h
    split at h
    · obtain rfl := List.mem_singleton.mp h
      exact .head rfl rfl rfl List.infix_rfl
    · exact .tail (ih h)

theorem FrontmatterCheck.onLine_of_mem_voiceRule (hnumber : 0 < number)
    (h : i ∈ voiceRule file number ls) : i.OnLine file number ls := by
  induction ls generalizing number with
  | nil => cases h
  | cons line rest ih =>
    rcases List.mem_append.mp h with hline | hrest
    · obtain ⟨-, hi⟩ := List.mem_ite_nil_right.mp hline
      obtain rfl := List.mem_singleton.mp hi
      rw [Issue.atLine_of_pos _ hnumber]
      exact .head rfl rfl rfl (Text.trim_isInfix line)
    · exact .tail (ih (Nat.succ_pos number) hrest)

theorem StructureCheck.onLine_of_mem_scriptPaths (h : i ∈ scriptPaths file number ls) :
    i.OnLine file number ls := by
  induction ls generalizing number with
  | nil => cases h
  | cons line rest ih =>
    rcases List.mem_append.mp h with hline | hrest
    · obtain ⟨-, hi⟩ := List.mem_ite_nil_right.mp hline
      obtain rfl := List.mem_singleton.mp hi
      exact .head rfl rfl rfl (Text.trim_isInfix line)
    · exact .tail (ih hrest)

/-- A prose line is one of the document's, at its number. -/
theorem Document.getElem?_of_mem_proseLines {skip : Nat} {p : Nat × Text}
    (h : p ∈ proseLines content skip) :
    ∃ j, (Text.lines content)[j]? = some p.2 ∧ p.1 = 1 + j := by
  rw [proseLines, proseFrom_eq_filter] at h
  obtain ⟨place, hplace, rfl⟩ := List.mem_map.mp h
  have hline := List.mem_zipIdx_iff_getElem?.mp (List.mem_of_mem_filter hplace)
  rw [List.getElem?_drop] at hline
  exact ⟨skip + place.2, hline, by simp only; omega⟩

theorem ToolsCheck.onLine_of_mem_placedIssues {skip : Nat} {p : Nat × Text}
    (hp : p ∈ Document.proseLines content skip) (h : i ∈ placedIssues file p.1 p.2) :
    i.OnLine file 1 (Text.lines content) := by
  obtain ⟨j, hline, hnumber⟩ := Document.getElem?_of_mem_proseLines hp
  obtain ⟨found, -, rfl⟩ := List.mem_map.mp h
  rw [Issue.atLine_of_pos _ (by omega), hnumber]
  exact ⟨j, p.2, Text.trim p.2, hline, rfl, rfl, rfl, Text.trim_isInfix p.2⟩

/-- A line of the body stands in the line of the document that is as far from the first as the
body's offset and the line's own place say. -/
theorem Document.exists_line_of_body {j : Nat} {b : Text}
    (hb : (Text.lines (parse content).body)[j]? = some b) :
    ∃ line, (Text.lines content)[(parse content).bodyOffset + j]? = some line ∧ b <:+: line := by
  cases h : sections? content with
  | none =>
    refine ⟨b, ?_, List.infix_rfl⟩
    rw [parse_of_no_sections h] at hb ⊢
    simpa [bare] using hb
  | some found =>
    obtain ⟨x, y, hline, -⟩ := line_after_header h hb
    exact ⟨x ++ b ++ y, hline, x, y, rfl⟩

theorem FrontmatterCheck.onLine_of_body
    (h : i.OnLine file ((Document.parse content).lineOfBody 1)
      (Text.lines (Document.parse content).body)) : i.OnLine file 1 (Text.lines content) := by
  obtain ⟨j, b, source, hb, hfile, hnumber, hsource, hpart⟩ := h
  obtain ⟨line, hline, hbody⟩ := Document.exists_line_of_body hb
  refine ⟨_, line, source, hline, hfile, ?_, hsource, hpart.trans hbody⟩
  rw [hnumber, Document.lineOfBody, Nat.add_comm _ 1, Nat.add_assoc]

end Rules

end PluginLint
