import PluginLint.Check.Frontmatter
import PluginLint.Proofs.Document.HeaderBlocks
import PluginLint.Proofs.Document.Sections

/-!
# Values gathered from folds

A fold runs over indented and blank lines, and its value is joined from the indented ones. A line of
blanks can be indented as well, and then it counts as an empty part: the value gets a separator too
many, and a fold over nothing else gets a blank value where its key should have none. So the value of
a fold is the one that is written in it (`writtenValue?`) exactly when none of its lines is blank and
indented at once (`folded_values_written_iff`).
-/
namespace PluginLint

namespace Header

/-! ## Parts and their join -/

/-- Parts joined by single spaces, if there are any. -/
def joined? (parts : List Text) : Option Text :=
  if parts = [] then none else some (List.intercalate [' '] parts)

/-- The characters of some parts and one more for each. -/
def weight (parts : List Text) : Nat := parts.foldr (fun part total => part.length + 1 + total) 0

theorem weight_cons (part : Text) (rest : List Text) :
    weight (part :: rest) = part.length + 1 + weight rest := rfl

/-- A join is as long as its parts and the separators between them. -/
theorem length_intercalate {parts : List Text} (h : parts ≠ []) :
    (List.intercalate [' '] parts).length + 1 = weight parts := by
  induction parts with
  | nil => exact absurd rfl h
  | cons part rest ih =>
    cases rest with
    | nil => simp [weight]
    | cons next more =>
      have hrest := ih (by simp)
      rw [List.intercalate_cons_cons, weight_cons, ← hrest]
      simp only [List.length_append, List.length_singleton]
      omega

/-- Each empty part that is left out takes a separator with it. -/
theorem weight_filter_add_count (parts : List Text) :
    weight (parts.filter (· ≠ [])) + parts.count [] = weight parts := by
  induction parts with
  | nil => rfl
  | cons part rest ih =>
    rw [weight_cons, ← ih, List.count_cons, List.filter_cons]
    by_cases hpart : part = []
    · simp [hpart]
      omega
    · simp [hpart, weight_cons]
      omega

/-- A join stays the same without its empty parts when it has none. -/
theorem joined?_filter_iff (parts : List Text) :
    joined? parts = joined? (parts.filter (· ≠ [])) ↔ ∀ part ∈ parts, part ≠ [] := by
  constructor
  · rintro hsame part hpart rfl
    have hne : parts ≠ [] := List.ne_nil_of_mem hpart
    have hempty : 0 < parts.count [] := List.count_pos_iff.mpr hpart
    unfold joined? at hsame
    rw [if_neg hne] at hsame
    split at hsame
    · cases hsame
    · next hkept =>
      have hlength := length_intercalate hne
      rw [Option.some.inj hsame, length_intercalate hkept, ← weight_filter_add_count parts]
        at hlength
      omega
  · intro hall
    rw [List.filter_eq_self.mpr fun part hpart => decide_eq_true (hall part hpart)]

/-- A join starts with its first part. -/
theorem prefix_intercalate (part : Text) (rest : List Text) :
    part <+: List.intercalate [' '] (part :: rest) := by
  cases rest with
  | nil => rw [List.intercalate_singleton]
  | cons next more =>
    rw [List.intercalate_cons_cons, List.append_assoc]
    exact List.prefix_append _ _

/-! ## What is written in a fold -/

/-- The lines that a fold runs over, given the lines below its key. -/
def foldLines (below : List Text) : List Text := below.takeWhile continuesFold

/-- The texts on the indented lines of a fold, lines of blanks left out. -/
def writtenParts (below : List Text) : List Text :=
  ((foldLines below).filter fun line => isIndented line && !Text.isBlankLine line).map Text.trim

/-- The value that is written in a fold. -/
def writtenValue? (below : List Text) : Option Text := joined? (writtenParts below)

theorem blockValue?_of_opensFold {rest : Text} (h : opensFold (inlineValue rest) = true)
    (below : List Text) : blockValue? rest below = joined? (foldParts below) := by
  rw [blockValue?, if_pos h, joined?]

theorem foldParts_eq (below : List Text) :
    foldParts below = ((foldLines below).filter isIndented).map Text.trim := rfl

/-- An empty part comes from a line of blanks. -/
theorem writtenParts_eq_filter (below : List Text) :
    writtenParts below = (foldParts below).filter (· ≠ []) := by
  rw [writtenParts, foldParts_eq, List.filter_map, List.filter_filter]
  refine congrArg (List.map Text.trim) (List.filter_congr fun line _ => ?_)
  by_cases hblank : Text.isBlankLine line = true
  · simp [hblank, Text.trim_eq_nil_iff]
  · simp [hblank, Text.trim_eq_nil_iff]

/-- Whether a line of a fold is blank and indented at once. -/
def HasIndentedBlank (below : List Text) : Prop :=
  ∃ line ∈ foldLines below, isIndented line = true ∧ Text.isBlankLine line = true

theorem blockValue?_eq_written_iff {rest : Text} (h : opensFold (inlineValue rest) = true)
    (below : List Text) : blockValue? rest below = writtenValue? below ↔ ¬ HasIndentedBlank below := by
  rw [blockValue?_of_opensFold h, writtenValue?, writtenParts_eq_filter, joined?_filter_iff,
    foldParts_eq, List.forall_mem_map]
  simp only [HasIndentedBlank, ne_eq, Text.trim_eq_nil_iff, List.mem_filter, not_exists, not_and,
    and_imp]

/-- What is written in a fold comes without blanks around it and is never empty. -/
theorem trim_of_mem_writtenParts {below : List Text} {part : Text} (h : part ∈ writtenParts below) :
    part ≠ [] ∧ Text.trim part = part := by
  obtain ⟨line, hline, rfl⟩ := List.mem_map.mp h
  have hwritten := (List.mem_filter.mp hline).2
  rw [Bool.and_eq_true, Bool.not_eq_true'] at hwritten
  refine ⟨?_, Text.trim_eq_self_iff.mpr
    ⟨fun c hc => Text.isBlank_of_head?_trim hc, fun c hc => Text.isBlank_of_getLast?_trim hc⟩⟩
  rw [Ne, Text.trim_eq_nil_iff, hwritten.2]
  exact Bool.false_ne_true

theorem not_blank_of_writtenValue? {below : List Text} {value : Text}
    (h : writtenValue? below = some value) : Text.isBlankLine value = false := by
  unfold writtenValue? joined? at h
  split at h
  · cases h
  · next hne =>
    obtain rfl := Option.some.inj h
    obtain ⟨part, rest, hparts⟩ := List.exists_cons_of_ne_nil hne
    have hmem : part ∈ writtenParts below := by
      rw [hparts]
      exact List.mem_cons_self
    obtain ⟨hpart, htrim⟩ := trim_of_mem_writtenParts hmem
    rw [Bool.eq_false_iff, hparts]
    intro hblank
    have hall := List.all_eq_true.mp hblank
    have hblankPart : Text.isBlankLine part = true :=
      List.all_eq_true.mpr fun c hc => hall c ((prefix_intercalate part rest).mem hc)
    exact hpart (htrim ▸ Text.trim_eq_nil_iff.mpr hblankPart)

/-- Of a fold over blank lines alone nothing is written. -/
theorem writtenValue?_of_blank {below : List Text}
    (h : ∀ line ∈ foldLines below, Text.isBlankLine line = true) : writtenValue? below = none := by
  have hnone : writtenParts below = [] := by
    rw [writtenParts, List.map_eq_nil_iff, List.filter_eq_nil_iff]
    intro line hline
    simp [h line hline]
  rw [writtenValue?, hnone]
  rfl

end Header

namespace Document

open Header

/-- The lines between the delimiters, blank ones around them left out. -/
def headerLines (content : Text) : List Text :=
  match sections? content with
  | some (block, _) => Text.lines (Text.trim block)
  | none => []

/-- A key line of a document's header: its place among the lines, its key, what follows the colon
and the lines below it. -/
def IsKeyLine (content : Text) (place : Nat) (key rest : Text) (below : List Text) : Prop :=
  ∃ line, (headerLines content).drop place = line :: below ∧ keyLine? line = some (key, rest)

/-- A header has the fields that its lines give. -/
theorem exists_header_eq_setAll (content : Text) :
    ∃ first, (parse content).header = empty.setAll (givenFields first (headerLines content)) := by
  cases h : sections? content with
  | none => exact ⟨0, by simp [parse_of_no_sections h, bare, headerLines, h, givenFields, setAll]⟩
  | some found =>
    obtain ⟨block, after⟩ := found
    refine ⟨1 + Text.newlines (Text.leadingBlanks block), ?_⟩
    rw [parse_of_sections h, headerLines, h]
    exact read_eq_setAll _ _

variable {content key rest value : Text} {place : Nat} {below : List Text}

theorem isKeyLine_iff : IsKeyLine content place key rest below ↔
    ∃ line, (headerLines content)[place]? = some line ∧ keyLine? line = some (key, rest) ∧
      (headerLines content).drop (place + 1) = below := by
  unfold IsKeyLine
  constructor
  · rintro ⟨line, hdrop, hkey⟩
    refine ⟨line, ?_, hkey, ?_⟩
    · rw [← List.head?_drop, hdrop, List.head?_cons]
    · rw [← List.tail_drop, hdrop, List.tail_cons]
  · rintro ⟨line, hline, hkey, rfl⟩
    obtain ⟨hlt, rfl⟩ := List.getElem?_eq_some_iff.mp hline
    exact ⟨_, List.drop_eq_getElem_cons hlt, hkey⟩

/-- A key has no value when none of its lines gives one. -/
theorem value?_eq_none_iff : (parse content).header.value? key = none ↔
    ∀ place rest below, IsKeyLine content place key rest below → blockValue? rest below = none := by
  obtain ⟨first, hheader⟩ := exists_header_eq_setAll content
  rw [value?, Option.map_eq_none_iff, hheader, field?_setAll_eq_none_iff]
  constructor
  · intro hnone place rest below hline
    obtain ⟨line, hat, hkey, rfl⟩ := isKeyLine_iff.mp hline
    by_contra hvalue
    obtain ⟨value, hvalue⟩ := Option.ne_none_iff_exists'.mp hvalue
    exact hnone (key, ⟨value, first + place⟩)
      (mem_givenFields_iff.mpr ⟨place, line, rest, hat, hkey, hvalue, rfl⟩) rfl
  · rintro hnone ⟨key', field⟩ hg rfl
    obtain ⟨place, line, rest, hline, hkey, hvalue, -⟩ := mem_givenFields_iff.mp hg
    have hempty := hnone place rest _ (isKeyLine_iff.mpr ⟨line, hline, hkey, rfl⟩)
    rw [hvalue] at hempty
    cases hempty

/-- The value of a key is that of the last of its lines that gives one. -/
theorem value?_of_last (hline : IsKeyLine content place key rest below)
    (hvalue : blockValue? rest below = some value)
    (hlast : ∀ later rest' below', place < later → IsKeyLine content later key rest' below' →
      blockValue? rest' below' = none) : (parse content).header.value? key = some value := by
  obtain ⟨first, hheader⟩ := exists_header_eq_setAll content
  obtain ⟨line, hat, hkey, rfl⟩ := isKeyLine_iff.mp hline
  obtain ⟨before, hfields, -⟩ := exists_givenFields_eq first hat hkey hvalue
  obtain ⟨field, hfield, -, hkept⟩ := exists_field?_setAll before
    (givenFields (first + place + 1) ((headerLines content).drop (place + 1))) key
    ⟨value, first + place⟩
  have hnone : ∀ g ∈ givenFields (first + place + 1) ((headerLines content).drop (place + 1)),
      g.1 ≠ key := by
    rintro ⟨key', later⟩ hg rfl
    obtain ⟨i, line', rest', hline', hkey', hvalue', -⟩ := mem_givenFields_iff.mp hg
    rw [List.getElem?_drop] at hline'
    rw [List.drop_drop] at hvalue'
    have hempty := hlast (place + 1 + i) rest' _ (by omega)
      (isKeyLine_iff.mpr ⟨line', hline', hkey', rfl⟩)
    rw [Nat.add_assoc, hvalue'] at hempty
    cases hempty
  rw [value?, hheader, hfields, hfield, Option.map_some, hkept hnone]

/-- The value of a key is that of the last of its lines that gives one, and a key has none when no
line gives one. A key line without a value of its own gives what is written in the fold below it
exactly when no line of the fold is blank and indented at once, and over blank lines alone it gives
no value exactly when none of them is indented. What is written in a fold is the join of trimmed
texts that are not empty, so it is not blank. -/
theorem folded_values_written_iff (content : Text) :
    (∀ key, (parse content).header.value? key = none ↔ ∀ place rest below,
      IsKeyLine content place key rest below → blockValue? rest below = none) ∧
    (∀ place key rest below value, IsKeyLine content place key rest below →
      blockValue? rest below = some value →
      (∀ later rest' below', place < later → IsKeyLine content later key rest' below' →
        blockValue? rest' below' = none) →
      (parse content).header.value? key = some value) ∧
    ∀ place key rest below, IsKeyLine content place key rest below →
      opensFold (inlineValue rest) = true →
      (blockValue? rest below = writtenValue? below ↔ ¬ HasIndentedBlank below) ∧
      ((∀ line ∈ foldLines below, Text.isBlankLine line = true) →
        (blockValue? rest below = none ↔ ∀ line ∈ foldLines below, isIndented line = false)) ∧
      (∀ part ∈ writtenParts below, part ≠ [] ∧ Text.trim part = part) ∧
      ∀ value, writtenValue? below = some value → Text.isBlankLine value = false := by
  refine ⟨fun _ => value?_eq_none_iff, fun _ _ _ _ _ => value?_of_last, ?_⟩
  intro place key rest below _ hopen
  have hwritten := blockValue?_eq_written_iff hopen below
  refine ⟨hwritten, fun hblank => ?_, fun _ => trim_of_mem_writtenParts,
    fun _ => not_blank_of_writtenValue?⟩
  rw [writtenValue?_of_blank hblank] at hwritten
  rw [hwritten, HasIndentedBlank, not_exists]
  refine forall_congr' fun line => ?_
  rw [not_and]
  refine forall_congr' fun hline => ?_
  simp [hblank line hline]

/-- A fold with a tab for an indentation and an empty line in it. -/
def foldedDocument : Text := "---\ndescription: >\n\tone\n\n  two\n---\n".toList

theorem foldedDocument_value_written :
    IsKeyLine foldedDocument 0 "description".toList " >".toList
      ["\tone".toList, [], "  two".toList] ∧
    opensFold (inlineValue " >".toList) = true ∧
    ¬ HasIndentedBlank ["\tone".toList, [], "  two".toList] ∧
    (parse foldedDocument).header.value? "description".toList = some "one two".toList := by
  have hline : IsKeyLine foldedDocument 0 "description".toList " >".toList
      ["\tone".toList, [], "  two".toList] := ⟨"description: >".toList, by decide, by decide⟩
  have hopen : opensFold (inlineValue " >".toList) = true := by decide
  have hno : ¬ HasIndentedBlank ["\tone".toList, [], "  two".toList] := by
    unfold HasIndentedBlank
    decide
  obtain ⟨-, hvalue, hfold⟩ := folded_values_written_iff foldedDocument
  obtain ⟨hwritten, -⟩ := hfold _ _ _ _ hline hopen
  refine ⟨hline, hopen, hno, hvalue _ _ _ _ _ hline ((hwritten.mpr hno).trans (by decide)) ?_⟩
  intro later rest below hlater hkey
  obtain ⟨line, hat, hkey, -⟩ := isKeyLine_iff.mp hkey
  have hnone : ∀ line ∈ (headerLines foldedDocument).drop 1, keyLine? line = none := by decide
  have hmem : line ∈ (headerLines foldedDocument).drop 1 := by
    refine List.mem_of_getElem? (i := later - 1) ?_
    rw [List.getElem?_drop, Nat.add_sub_cancel' hlater, hat]
  rw [hnone line hmem] at hkey
  cases hkey

/-- A name with a line of blanks below it. -/
def blankNamedDocument : Text := "---\nname:\n  \ndescription: d\n---\n".toList

/-- The name gets a blank value, so the rule on missing names does not speak. -/
theorem indented_blank_gives_blank_name :
    IsKeyLine blankNamedDocument 0 "name".toList [] ["  ".toList, "description: d".toList] ∧
    foldLines ["  ".toList, "description: d".toList] = ["  ".toList] ∧
    writtenValue? ["  ".toList, "description: d".toList] = none ∧
    (parse blankNamedDocument).header.value? "name".toList = some [] ∧
    ∀ file, ∀ i ∈ FrontmatterCheck.documentRules .skill file blankNamedDocument,
      i.severity ≠ .must := by
  have hparse : parse blankNamedDocument =
      ⟨⟨[("name".toList, ⟨[], 2⟩), ("description".toList, ⟨['d'], 4⟩)]⟩, [], 5, 5⟩ := by decide
  have hrules : ∀ file, FrontmatterCheck.documentRules .skill file blankNamedDocument =
      [FrontmatterCheck.present file "name" ⟨[], 2⟩,
        FrontmatterCheck.valueIssue file "description" ⟨['d'], 4⟩ .should "Description too short"
          "Add more detail about when this skill should be used"] := by
    intro file
    simp only [FrontmatterCheck.documentRules, hparse]
    rfl
  refine ⟨⟨"name:".toList, by decide, by decide⟩, by decide, by decide, by decide, ?_⟩
  intro file i hi
  rw [hrules, List.mem_cons, List.mem_singleton] at hi
  rcases hi with rfl | rfl <;> exact Severity.noConfusion

end Document

end PluginLint
