import Mathlib.Data.List.Nodup
import PluginLint.Proofs.Document.HeaderBlocks
import PluginLint.Proofs.Document.Sections
import PluginLint.Proofs.Text.TrimmedLines

/-!
# The lines of header fields

A key that is set keeps the place where it was set first, so the places of the fields are some of
those at which key lines give a value, in their order (`places_setAll_sublist`). Key lines are
numbered one after the other, and what a line is counted by is its number in the document
(`lineAt?_of_header_line`). So every field stands on a line of the header that has its key.
-/
namespace PluginLint

namespace Header

/-! ## Places -/

/-- The keys of some fields, each with its line. -/
def places (fields : List (Text × Field)) : List (Text × Nat) :=
  fields.map fun field => (field.1, field.2.line)

theorem places_append (first second : List (Text × Field)) :
    places (first ++ second) = places first ++ places second := List.map_append

/-- Setting a key moves no field. -/
theorem places_setField (key value : Text) (line : Nat) (fields : List (Text × Field)) :
    places (setField key value line fields) =
      if key ∈ fields.map Prod.fst then places fields else places fields ++ [(key, line)] := by
  induction fields with
  | nil => rfl
  | cons entry rest ih =>
    obtain ⟨k, f⟩ := entry
    by_cases hk : k = key
    · simp [setField, hk, places]
    · have hk' : key ≠ k := Ne.symm hk
      rw [setField, if_neg hk, places, List.map_cons, ← places, ih]
      simp only [List.map_cons, List.mem_cons, hk', false_or]
      split <;> rfl

/-- Fields stand where they are set first, so their places come in the order of the settings. -/
theorem places_setAll_sublist (given : List (Text × Field)) :
    (places (empty.setAll given).fields).Sublist (places given) := by
  induction given using List.reverseRecOn with
  | nil => exact List.Sublist.refl []
  | append_singleton given g ih =>
    rw [setAll_concat, set, places_setField, places_append]
    split
    · exact ih.trans (List.sublist_append_left _ _)
    · exact ih.append (List.Sublist.refl _)

/-- A key that is set again gets no second field. -/
theorem keys_setAll_nodup (given : List (Text × Field)) : (empty.setAll given).keys.Nodup := by
  induction given using List.reverseRecOn with
  | nil => exact List.nodup_nil
  | append_singleton given g ih =>
    rw [setAll_concat, keys_set]
    split
    · exact ih
    · next hnew =>
      rw [← List.concat_eq_append]
      exact ih.concat hnew

/-! ## Key lines -/

/-- What a key line gives stands above what the lines below it give. -/
theorem givenFields_pairwise (number : Nat) (ahead : List Text) :
    (givenFields number ahead).Pairwise fun g later => g.2.line < later.2.line := by
  induction ahead generalizing number with
  | nil => exact List.Pairwise.nil
  | cons line below ih =>
    rw [givenFields]
    refine List.pairwise_append.mpr ⟨?_, ih (number + 1), ?_⟩
    · cases given? number line below with
      | none => exact List.Pairwise.nil
      | some g => exact List.pairwise_singleton _ g
    · intro g hg later hlater
      obtain ⟨-, -, -, hnumber⟩ := given?_eq_some_iff.mp (Option.mem_toList.mp hg)
      obtain ⟨i, -, -, -, -, -, hbelow⟩ := mem_givenFields_iff.mp hlater
      omega

/-- The fields of a header stand on lines that grow from each to the next. -/
theorem lines_read_pairwise (first : Nat) (text : Text) :
    ((read first text).fields.map fun field => field.2.line).Pairwise (· < ·) := by
  have hgiven := givenFields_pairwise first (Text.lines text)
  have hplaces : (places (givenFields first (Text.lines text))).Pairwise
      fun p later => p.2 < later.2 := List.pairwise_map.mpr hgiven
  have hkept := hplaces.sublist (places_setAll_sublist _)
  rw [← read_eq_setAll, places, List.pairwise_map] at hkept
  exact List.pairwise_map.mpr hkept

/-- Every field stands on a key line for its key. -/
theorem exists_keyLine_of_mem_read {first : Nat} {text key : Text} {field : Field}
    (h : (key, field) ∈ (read first text).fields) :
    ∃ i line rest, (Text.lines text)[i]? = some line ∧ line = key ++ ':' :: rest ∧
      field.line = first + i := by
  have hplace : (key, field.line) ∈ places (read first text).fields :=
    List.mem_map.mpr ⟨(key, field), h, rfl⟩
  rw [read_eq_setAll] at hplace
  obtain ⟨g, hg, hsame⟩ := List.mem_map.mp ((places_setAll_sublist _).subset hplace)
  obtain ⟨rfl, hnumber⟩ := Prod.mk.inj hsame
  obtain ⟨i, line, rest, hline, hkey, -, hcount⟩ := mem_givenFields_iff.mp hg
  obtain ⟨-, -, hform⟩ := keyLine?_eq_some_iff.mp hkey
  exact ⟨i, line, rest, hline, hform, hnumber.symm.trans hcount⟩

end Header

namespace Document

/-- Whether a line of a document, no further down than the closing delimiter, has a key with a colon
behind it. -/
def IsFieldLine (content key : Text) (number : Nat) : Prop :=
  1 ≤ number ∧ number ≤ (parse content).headerEnd ∧
    ∃ line, Text.lineAt? content number = some line ∧ key ++ [':'] <:+: line

/-- The lines of a header are counted by their numbers in the document. -/
theorem lineAt?_of_header_line {content block after : Text}
    (h : sections? content = some (block, after)) {i : Nat} {line : Text}
    (hline : (Text.lines (Text.trim block))[i]? = some line) :
    ∃ x y, Text.lineAt? content (1 + Text.newlines (Text.leadingBlanks block) + i) =
      some (x ++ line ++ y) := by
  have hstart : (Text.trim block).head? ≠ some '\n' := fun hc =>
    absurd (Text.isBlank_of_head?_trim hc) (by decide)
  have hend : (Text.trim block).getLast? ≠ some '\r' := fun hc =>
    absurd (Text.isBlank_of_getLast?_trim hc) (by decide)
  have hwhole : content = delimiter ++ Text.leadingBlanks block ++
      (Text.trim block ++ (Text.trailingBlanks block ++ delimiter ++ after)) := by
    calc content = delimiter ++ block ++ delimiter ++ after := append_of_sections h
      _ = delimiter ++ (Text.leadingBlanks block ++ Text.trim block ++ Text.trailingBlanks block) ++
            delimiter ++ after := by rw [Text.blanks_append_trim]
      _ = _ := by simp only [List.append_assoc]
  have hcount : 1 + Text.newlines (Text.leadingBlanks block) + i =
      Text.newlines (delimiter ++ Text.leadingBlanks block) + i + 1 := by
    have hnone : Text.newlines delimiter = 0 := by decide
    rw [Text.newlines_append, hnone]
    omega
  obtain ⟨x, y, hl, -⟩ := Text.getElem?_lines_within
    (Text.trailingBlanks block ++ delimiter ++ after)
    (Text.newline_not_mem_openPart (delimiter ++ Text.leadingBlanks block)) (.inr hstart) hend hline
  refine ⟨x, y, ?_⟩
  rw [hcount, Text.lineAt?]
  nth_rewrite 1 [hwhole]
  rw [Text.getElem?_lines_append, ← List.append_assoc, hl]

/-- A line of the header block stands no further down than the closing delimiter. -/
theorem header_line_le {block line : Text} {i : Nat}
    (hline : (Text.lines (Text.trim block))[i]? = some line) :
    1 + Text.newlines (Text.leadingBlanks block) + i ≤ Text.newlines block + 1 := by
  have hplace : i < (Text.lines (Text.trim block)).length := (List.getElem?_eq_some_iff.mp hline).1
  have hlines := Text.length_lines_le (Text.trim block)
  have hblock : Text.newlines block = Text.newlines (Text.leadingBlanks block) +
      Text.newlines (Text.trim block) + Text.newlines (Text.trailingBlanks block) := by
    rw [← Text.newlines_append, ← Text.newlines_append, Text.blanks_append_trim]
  omega

/-- Every field of a header stands on a line with its key. -/
theorem isFieldLine_of_mem {content key : Text} {field : Field}
    (h : (key, field) ∈ (parse content).header.fields) : IsFieldLine content key field.line := by
  cases hsections : sections? content with
  | none =>
    rw [parse_of_no_sections hsections] at h
    cases h
  | some found =>
    obtain ⟨block, after⟩ := found
    have hparse := parse_of_sections hsections
    rw [hparse] at h
    obtain ⟨i, line, rest, hline, hform, hnumber⟩ := Header.exists_keyLine_of_mem_read h
    obtain ⟨x, y, hat⟩ := lineAt?_of_header_line hsections hline
    rw [← hnumber] at hat
    have hhigh := header_line_le hline
    rw [← hnumber] at hhigh
    refine ⟨(Text.range_of_lineAt? hat).1, ?_, x ++ line ++ y, hat, x, rest ++ y, ?_⟩
    · rw [hparse]
      exact hhigh
    · rw [hform]
      simp

theorem isFieldLine_of_field? {content key : Text} {field : Field}
    (h : (parse content).header.field? key = some field) : IsFieldLine content key field.line := by
  obtain ⟨front, back, hfields, -⟩ := List.lookup_eq_some_iff.mp h
  apply isFieldLine_of_mem
  rw [hfields]
  simp

/-- No two fields of a header have the same key. -/
theorem keys_nodup (content : Text) : (parse content).header.keys.Nodup := by
  cases h : sections? content with
  | none =>
    rw [parse_of_no_sections h]
    exact List.nodup_nil
  | some found =>
    rw [parse_of_sections h, ofSections, Header.read_eq_setAll]
    exact Header.keys_setAll_nodup _

/-- Each field of a header stands further down than the one before it. -/
theorem lines_pairwise (content : Text) :
    ((parse content).header.fields.map fun field => field.2.line).Pairwise (· < ·) := by
  cases h : sections? content with
  | none =>
    rw [parse_of_no_sections h]
    exact List.Pairwise.nil
  | some found =>
    rw [parse_of_sections h]
    exact Header.lines_read_pairwise _ _

end Document
end PluginLint
