import PluginLint.Document.Basic
import PluginLint.Proofs.Text.Lines
import PluginLint.Proofs.Text.Trim

/-!
# The two sections of a document

A document with a header block is the delimiter, the block, the delimiter again and what comes
after, which is in turn blanks, the body and blanks (`append_of_sections`). The lines of the
document before the body are counted from this reading.
-/
namespace PluginLint.Document

/-- Behind an opening delimiter the sections are parted at the next one. -/
theorem sections?_of_opened (rest : Text) :
    sections? (delimiter ++ rest) = Text.cut? delimiter rest := by
  have hopen : delimiter.isPrefixOf (delimiter ++ rest) = true :=
    List.isPrefixOf_iff_prefix.mpr (List.prefix_append delimiter rest)
  rw [sections?, if_pos hopen, List.drop_left]

/-- With the opening delimiter alone on its line the next one is looked for in the lines below. -/
theorem sections?_opened {e : Text} (he : e = [] ∨ e = ['\r']) (rest : Text) :
    sections? (delimiter ++ (e ++ '\n' :: rest)) =
      (Text.cut? delimiter rest).map fun found => (e ++ '\n' :: found.1, found.2) := by
  have hno : Text.occurs delimiter e = false := by rcases he with rfl | rfl <;> rfl
  rw [sections?_of_opened, Text.cut?_append_cons (by decide) (by decide) hno]

theorem append_of_sections {content block after : Text}
    (h : sections? content = some (block, after)) :
    content = delimiter ++ block ++ delimiter ++ after := by
  unfold sections? at h
  split at h
  · next hp =>
    obtain ⟨rest, hrest⟩ := List.isPrefixOf_iff_prefix.mp hp
    have hcut := Text.append_of_cut? h
    rw [← hrest, List.drop_left] at hcut
    rw [← hrest, ← hcut]
    simp
  · cases h

theorem parse_of_sections {content block after : Text}
    (h : sections? content = some (block, after)) : parse content = ofSections block after := by
  simp [parse, h]

theorem parse_of_no_sections {content : Text} (h : sections? content = none) :
    parse content = bare content := by
  simp [parse, h]

/-- Line zero stands for no header block. -/
theorem headerEnd_eq_zero_iff (content : Text) :
    (parse content).headerEnd = 0 ↔ sections? content = none := by
  cases h : sections? content with
  | none => simp [parse_of_no_sections h, bare]
  | some found => simp [parse_of_sections h, ofSections]

/-- What stands in a document before the body of its second section. -/
def beforeBody (block after : Text) : Text :=
  delimiter ++ block ++ delimiter ++ Text.leadingBlanks after

/-- The document as its body between what comes before and the blanks behind. -/
theorem append_of_body {content block after : Text}
    (h : sections? content = some (block, after)) :
    content = beforeBody block after ++ (parse content).body ++ Text.trailingBlanks after := by
  rw [parse_of_sections h]
  calc content = delimiter ++ block ++ delimiter ++ after := append_of_sections h
    _ = delimiter ++ block ++ delimiter ++
          (Text.leadingBlanks after ++ Text.trim after ++ Text.trailingBlanks after) := by
        rw [Text.blanks_append_trim]
    _ = _ := by simp [beforeBody, ofSections]

/-- The offset of a body is the number of line feeds before it. -/
theorem bodyOffset_eq_newlines (block after : Text) :
    (ofSections block after).bodyOffset = Text.newlines (beforeBody block after) := by
  simp [ofSections, beforeBody, delimiter, Text.newlines]

end PluginLint.Document
