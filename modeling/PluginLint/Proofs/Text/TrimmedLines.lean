import PluginLint.Proofs.Text.Lines
import PluginLint.Proofs.Text.Trim

/-!
# Lines without the blanks around them

Where lines are read up to the blanks around them it makes no difference whether the text was
trimmed first, apart from empty lines before it and behind it (`exists_trimmedLines_eq`). There are
as many before it as line feeds among the leading blanks. So the lines of the trimmed text are those
of the text with blanks around them (`getElem?_lines_trim`), and only blank lines are lost
(`exists_getElem?_lines_trim`).
-/
namespace PluginLint.Text

/-- The lines of a text, each trimmed. -/
def trimmedLines (s : Text) : List Text := (lines s).map trim

/-- The return that belongs to a line's end is a blank. -/
theorem trim_withoutReturn (line : Text) : trim (withoutReturn line) = trim line := by
  unfold withoutReturn
  split
  · next h =>
    obtain ⟨front, rfl⟩ := List.getLast?_eq_some_iff.mp h
    rw [List.dropLast_concat, trim_append_blank (by decide)]
  · rfl

theorem newlines_leadingBlanks_of_open {s : Text} (hs : '\n' ∉ s) :
    newlines (leadingBlanks s) = 0 :=
  newlines_of_open fun h => hs ((List.takeWhile_prefix isBlank).subset h)

theorem trimmedLines_of_open {s : Text} (hs : '\n' ∉ s) (hne : s ≠ []) :
    trimmedLines s = [trim s] := by
  rw [trimmedLines, lines_of_open hs hne]
  rfl

theorem trimmedLines_line {q : Text} (hq : '\n' ∉ q) (rest : Text) :
    trimmedLines (q ++ '\n' :: rest) = trim q :: trimmedLines rest := by
  rw [trimmedLines, lines_line hq, List.map_cons, trim_withoutReturn]
  rfl

theorem trimmedLines_of_blank {s : Text} (hs : isBlankLine s = true) :
    trimmedLines s = List.replicate (lines s).length [] := by
  induction s using lineInduction with
  | unended q hq =>
    by_cases hne : q = []
    · simp [hne, trimmedLines, lines]
    · simp [trimmedLines_of_open hq hne, lines_of_open hq hne, trim_eq_nil_iff.mpr hs]
  | line q rest hq ih =>
    simp only [isBlankLine, List.all_append, List.all_cons, Bool.and_eq_true] at hs
    have hblank : trim q = [] := trim_eq_nil_iff.mpr hs.1
    rw [trimmedLines_line hq, lines_line hq, ih hs.2.2, hblank]
    rfl

/-- Blanks before a text are empty lines and leave the first line of the text as it is. -/
theorem trimmedLines_blank_append {u : Text} (hu : isBlankLine u = true) {v : Text} (hv : v ≠ []) :
    trimmedLines (u ++ v) = List.replicate (newlines u) [] ++ trimmedLines v := by
  induction u using lineInduction with
  | unended q hq =>
    rw [newlines_of_open hq]
    by_cases hmem : '\n' ∈ v
    · obtain ⟨w, rest, rfl, hw⟩ := List.eq_append_cons_of_mem hmem
      have hqw : '\n' ∉ q ++ w := by simp [hq, hw]
      rw [← List.append_assoc, trimmedLines_line hqw, trimmedLines_line hw, trim_blank_append hu]
      rfl
    · rw [trimmedLines_of_open (by simp [hq, hmem]) (by simp [hv]), trimmedLines_of_open hmem hv,
        trim_blank_append hu]
      rfl
  | line q rest hq ih =>
    simp only [isBlankLine, List.all_append, List.all_cons, Bool.and_eq_true] at hu
    rw [List.append_assoc, List.cons_append, trimmedLines_line hq, ih hu.2.2, newlines_line hq,
      trim_eq_nil_iff.mpr hu.1]
    rfl

/-- Blanks behind a text leave its lines as they are, with empty lines after them. -/
theorem trimmedLines_append_blank {w : Text} (hw : isBlankLine w = true) (s : Text) :
    ∃ m, trimmedLines (s ++ w) = trimmedLines s ++ List.replicate m [] := by
  induction s using lineInduction with
  | unended q hq =>
    by_cases hne : q = []
    · exact ⟨_, by rw [hne, List.nil_append, trimmedLines_of_blank hw]; rfl⟩
    · rw [trimmedLines_of_open hq hne]
      by_cases hmem : '\n' ∈ w
      · obtain ⟨u, rest, rfl, hu⟩ := List.eq_append_cons_of_mem hmem
        simp only [isBlankLine, List.all_append, List.all_cons, Bool.and_eq_true] at hw
        have hqu : '\n' ∉ q ++ u := by simp [hq, hu]
        refine ⟨(lines rest).length, ?_⟩
        rw [← List.append_assoc, trimmedLines_line hqu, trim_append_blank hw.1,
          trimmedLines_of_blank hw.2.2]
        rfl
      · refine ⟨0, ?_⟩
        rw [trimmedLines_of_open (by simp [hq, hmem]) (by simp [hne]), trim_append_blank hw]
        rfl
  | line q rest hq ih =>
    obtain ⟨m, hm⟩ := ih
    refine ⟨m, ?_⟩
    rw [List.append_assoc, List.cons_append, trimmedLines_line hq, trimmedLines_line hq, hm]
    rfl

theorem exists_trimmedLines_eq {s : Text} (hs : trim s ≠ []) :
    ∃ m, trimmedLines s =
      List.replicate (newlines (leadingBlanks s)) [] ++ trimmedLines (trim s) ++
        List.replicate m [] := by
  obtain ⟨m, hm⟩ := trimmedLines_append_blank (isBlankLine_trailingBlanks s) (trim s)
  refine ⟨m, ?_⟩
  calc trimmedLines s
      = trimmedLines (leadingBlanks s ++ (trim s ++ trailingBlanks s)) := by
        rw [← List.append_assoc, blanks_append_trim]
    _ = List.replicate (newlines (leadingBlanks s)) [] ++
          trimmedLines (trim s ++ trailingBlanks s) :=
        trimmedLines_blank_append (isBlankLine_leadingBlanks s) (by simp [hs])
    _ = _ := by rw [hm, List.append_assoc]

/-- A line of a trimmed text stands in the text with blanks around it, and with none before it
when another line comes first. -/
theorem getElem?_lines_trim {s l : Text} {j : Nat} (h : (lines (trim s))[j]? = some l) :
    ∃ x y, (lines s)[newlines (leadingBlanks s) + j]? = some (x ++ l ++ y) ∧
      isBlankLine x = true ∧ isBlankLine y = true ∧ (0 < j → x = []) := by
  have hstart : (trim s).head? ≠ some '\n' := fun hc =>
    absurd (isBlank_of_head?_trim hc) (by decide)
  have hend : (trim s).getLast? ≠ some '\r' := fun hc =>
    absurd (isBlank_of_getLast?_trim hc) (by decide)
  obtain ⟨x, y, hl, hy, h0, hx, -⟩ := getElem?_lines_within (trailingBlanks s)
    (newline_not_mem_openPart (leadingBlanks s)) (.inr hstart) hend h
  refine ⟨x, y, ?_, ?_, ?_, hx⟩
  · rw [List.append_assoc, ← getElem?_lines_append, ← List.append_assoc, blanks_append_trim] at hl
    exact hl
  · rcases Nat.eq_zero_or_pos j with hj | hj
    · rw [h0 hj]
      exact isBlankLine_of_subset (List.rtakeWhile_suffix _ _).subset (isBlankLine_leadingBlanks s)
    · rw [hx hj]
      rfl
  · exact isBlankLine_of_subset hy.subset (isBlankLine_trailingBlanks s)

/-- A line that is not blank is not lost when the text is trimmed. -/
theorem exists_getElem?_lines_trim {s line : Text} {i : Nat} (h : (lines s)[i]? = some line)
    (hline : isBlankLine line = false) :
    ∃ j x l y, i = newlines (leadingBlanks s) + j ∧ (lines (trim s))[j]? = some l ∧
      line = x ++ l ++ y ∧ isBlankLine x = true ∧ isBlankLine y = true := by
  have htrimmed : (trimmedLines s)[i]? = some (trim line) := by
    rw [trimmedLines, List.getElem?_map, h]
    rfl
  have hkept : trim line ≠ [] := by
    rw [Ne, trim_eq_nil_iff, hline]
    exact Bool.false_ne_true
  have hne : trim s ≠ [] := by
    intro hnil
    rw [trimmedLines_of_blank (trim_eq_nil_iff.mp hnil), List.getElem?_replicate] at htrimmed
    split at htrimmed
    · exact hkept (Option.some.inj htrimmed).symm
    · cases htrimmed
  obtain ⟨m, hm⟩ := exists_trimmedLines_eq hne
  have hlow : newlines (leadingBlanks s) ≤ i := by
    by_contra hlt
    rw [hm, List.append_assoc, List.getElem?_append_left (by simpa using hlt),
      List.getElem?_replicate, if_pos (Nat.lt_of_not_le hlt)] at htrimmed
    exact hkept (Option.some.inj htrimmed).symm
  obtain ⟨j, rfl⟩ := Nat.exists_eq_add_of_le hlow
  have hhigh : j < (lines (trim s)).length := by
    by_contra hge
    have hlength : (trimmedLines (trim s)).length ≤ j := by simpa [trimmedLines] using hge
    rw [hm, List.append_assoc, List.getElem?_append_right (by simp), List.length_replicate,
      Nat.add_sub_cancel_left, List.getElem?_append_right hlength, List.getElem?_replicate]
      at htrimmed
    split at htrimmed
    · exact hkept (Option.some.inj htrimmed).symm
    · cases htrimmed
  obtain ⟨x, y, hl, hx, hy, -⟩ := getElem?_lines_trim (List.getElem?_eq_getElem hhigh)
  rw [h, Option.some.injEq] at hl
  exact ⟨j, x, _, y, rfl, List.getElem?_eq_getElem hhigh, hl, hx, hy⟩

/-- The first line of a trimmed text is not blank. -/
theorem not_blank_of_trimmedLines_trim {s first : Text} {more : List Text}
    (h : trimmedLines (trim s) = first :: more) : isBlankLine first = false := by
  apply Bool.eq_false_iff.mpr
  intro hfirst
  by_cases hmem : '\n' ∈ trim s
  · obtain ⟨q, rest, hs, hq⟩ := List.eq_append_cons_of_mem hmem
    have hstart := leadingBlanks_trim s
    rw [hs] at h hstart
    rw [trimmedLines_line hq, List.cons.injEq] at h
    rw [← h.1, isBlankLine_trim] at hfirst
    rw [leadingBlanks_blank_append hfirst, List.append_eq_nil_iff] at hstart
    simp [leadingBlanks, isBlank] at hstart
  · have hne : trim s ≠ [] := by
      intro hnil
      rw [hnil] at h
      cases h
    rw [trimmedLines_of_open hmem hne, List.cons.injEq] at h
    rw [← h.1, isBlankLine_trim, isBlankLine_trim] at hfirst
    exact hne (trim_eq_nil_iff.mpr hfirst)

end PluginLint.Text
