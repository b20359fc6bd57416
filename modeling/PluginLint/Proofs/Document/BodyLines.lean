import PluginLint.Proofs.Document.Sections

/-!
# Lines of the body in the document

Issues in a body are reported at lines of the whole document. The line that `lineOfBody` names is
always there and carries the line of the body: whole, when the line is neither the first nor the
last, and otherwise with what trimming took away before it or behind it
(`document_line_carries_body_line`). Text can stand before the first line of a body in one case
only, when that line is the one of the closing delimiter.
-/
namespace PluginLint.Document

/-- The first character of a body is no blank, so what `openPart` leaves before it either lies
within the leading blanks or the body starts on the line of the delimiter. -/
theorem openPart_beforeBody (block after : Text)
    (h : (ofSections block after).lineOfBody 1 ≠ (ofSections block after).headerEnd) :
    Text.isBlankLine (Text.openPart (beforeBody block after)) = true := by
  have hmem : '\n' ∈ Text.leadingBlanks after := by
    by_contra hno
    apply h
    simp [lineOfBody, ofSections, Text.newlines_of_open hno]
  rw [beforeBody, Text.openPart_append_of_mem _ hmem]
  exact Text.isBlankLine_of_subset (List.rtakeWhile_suffix _ _).subset
    (Text.isBlankLine_leadingBlanks after)

theorem ne_of_isBlank {c d : Char} (hd : Text.isBlank d = true) (h : Text.isBlank c = false) :
    c ≠ d := by
  rintro rfl
  simp [hd] at h

/-- Where the lines of a body stand that follows a header block. -/
theorem line_after_header {content block after : Text}
    (h : sections? content = some (block, after)) {i : Nat} {b : Text}
    (hb : (Text.lines (parse content).body)[i]? = some b) :
    ∃ x y, Text.lineAt? content ((parse content).lineOfBody (i + 1)) = some (x ++ b ++ y) ∧
      (i = 0 → x = Text.openPart (beforeBody block after)) ∧ (0 < i → x = []) ∧
      (i + 1 < (Text.lines (parse content).body).length → y = []) := by
  have hbody : (parse content).body = Text.trim after := by simp [parse_of_sections h, ofSections]
  have hstart : (parse content).body.head? ≠ some '\n' := fun hc =>
    ne_of_isBlank (by decide) (Text.isBlank_of_head?_trim (hbody ▸ hc)) rfl
  have hend : (parse content).body.getLast? ≠ some '\r' := fun hc =>
    ne_of_isBlank (by decide) (Text.isBlank_of_getLast?_trim (hbody ▸ hc)) rfl
  obtain ⟨x, y, hl, -, hx⟩ := Text.getElem?_lines_within (Text.trailingBlanks after)
    (Text.newline_not_mem_openPart (beforeBody block after)) (.inr hstart) hend hb
  refine ⟨x, y, ?_, hx⟩
  have hoffset : (parse content).bodyOffset = Text.newlines (beforeBody block after) := by
    rw [parse_of_sections h, bodyOffset_eq_newlines]
  have hline : (parse content).lineOfBody (i + 1) =
      Text.newlines (beforeBody block after) + i + 1 := by
    rw [lineOfBody, hoffset]
    rfl
  rw [hline, Text.lineAt?]
  nth_rewrite 1 [append_of_body h]
  rw [List.append_assoc, Text.getElem?_lines_append, ← List.append_assoc, hl]

/-- Every line `b` of a body, the `i`th counted from zero, stands in a line of the document: the
one that `lineOfBody` names is `x`, `b` and `y`. Nothing stands behind `b` when a line follows in
the body, nothing before it unless it is the first, and before the first only blanks, unless the
line is that of the closing delimiter. Without a header block the two lines are the same. -/
theorem document_line_carries_body_line (content : Text) (i : Nat) (b : Text)
    (hb : (Text.lines (parse content).body)[i]? = some b) :
    ∃ x y, Text.lineAt? content ((parse content).lineOfBody (i + 1)) = some (x ++ b ++ y) ∧
      (i + 1 < (Text.lines (parse content).body).length → y = []) ∧
      (0 < i → x = []) ∧
      (i = 0 → (parse content).lineOfBody 1 ≠ (parse content).headerEnd →
        Text.isBlankLine x = true) ∧
      ((parse content).headerEnd = 0 → x = [] ∧ y = []) := by
  cases h : sections? content with
  | none =>
    refine ⟨[], [], ?_, fun _ => rfl, fun _ => rfl, fun _ _ => rfl, fun _ => ⟨rfl, rfl⟩⟩
    rw [List.nil_append, List.append_nil, ← hb]
    simp [parse_of_no_sections h, bare, lineOfBody, Text.lineAt?]
  | some found =>
    obtain ⟨block, after⟩ := found
    obtain ⟨x, y, hl, h0, hx, hy⟩ := line_after_header h hb
    have hopen : (parse content).headerEnd ≠ 0 := fun hz => by
      simp [(headerEnd_eq_zero_iff content).mp hz] at h
    refine ⟨x, y, hl, hy, hx, fun hzero hline => ?_, fun hz => absurd hz hopen⟩
    rw [h0 hzero]
    rw [parse_of_sections h] at hline
    exact openPart_beforeBody block after hline

/-- A body that starts on the line of the delimiter, goes on behind a blank line and ends before
spaces. -/
def tailedDocument : Text := "---\na: 1\n---tail\r\n\r\n\tend \n".toList

theorem tailed_document_line_carries_last_body_line :
    (Text.lines (parse tailedDocument).body)[2]? = some "\tend".toList ∧
      ∃ x y, Text.lineAt? tailedDocument ((parse tailedDocument).lineOfBody 3) =
          some (x ++ "\tend".toList ++ y) ∧
        (3 < (Text.lines (parse tailedDocument).body).length → y = []) ∧
        (0 < 2 → x = []) ∧
        (2 = 0 → (parse tailedDocument).lineOfBody 1 ≠ (parse tailedDocument).headerEnd →
          Text.isBlankLine x = true) ∧
        ((parse tailedDocument).headerEnd = 0 → x = [] ∧ y = []) :=
  ⟨by decide, document_line_carries_body_line tailedDocument 2 "\tend".toList (by decide)⟩

end PluginLint.Document
