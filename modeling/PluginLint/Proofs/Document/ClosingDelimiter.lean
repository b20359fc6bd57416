import PluginLint.Proofs.Document.HeaderBlocks
import PluginLint.Proofs.Document.Sections
import PluginLint.Proofs.Text.TrimmedLines

/-!
# Where a header ends

A header that opens with a line of its own ends at the next place of the delimiter, which is on the
first later line that holds it (`laterLine?_occurs`). The lines up to there are read: every key line
with a value of its own gives its key a field (`readsKeyLines_parse`). The delimiter need not stand
alone on its line, so dashes in a value end the header as well (`dashed_value_closes_header`).
-/
namespace PluginLint

namespace Header

/-! ## Key lines with blanks around them -/

/-- A key line stays one with the same key when its blanks are taken away, and there are none before
it. -/
theorem keyLine?_within_blanks {x l y key rest : Text} (hx : Text.isBlankLine x = true)
    (hy : Text.isBlankLine y = true) (h : keyLine? (x ++ l ++ y) = some (key, rest)) :
    ∃ rest', keyLine? l = some (key, rest') ∧ inlineValue rest' = inlineValue rest := by
  obtain ⟨hne, hall, hline⟩ := keyLine?_eq_some_iff.mp h
  have hcolon : ∀ t : Text, Text.isBlankLine (t ++ ':' :: rest) ≠ true := by
    intro t hblank
    have hc := List.all_eq_true.mp hblank ':' (by simp)
    exact absurd hc (by decide)
  obtain rfl : x = [] := by
    cases x with
    | nil => rfl
    | cons c more =>
      obtain ⟨d, key, rfl⟩ := List.exists_cons_of_ne_nil hne
      obtain rfl : c = d := (List.cons.inj hline).1
      have hblank := List.all_eq_true.mp hx c (by simp)
      rw [isBlank_of_isKeyChar (hall c (by simp))] at hblank
      cases hblank
  rw [List.nil_append] at hline
  rcases List.append_eq_append_iff.mp hline with ⟨t, rfl, rfl⟩ | ⟨t, hl, ht⟩
  · exact absurd hy (hcolon t)
  · cases t with
    | nil =>
      rw [List.nil_append] at ht
      exact absurd (ht ▸ hy) (hcolon [])
    | cons c rest' =>
      obtain ⟨rfl, hrest⟩ := List.cons.inj ht
      refine ⟨rest', keyLine?_eq_some_iff.mpr ⟨hne, hall, hl⟩, ?_⟩
      calc inlineValue rest' = unquote (Text.trim (rest' ++ y)) := by
            rw [inlineValue, Text.trim_append_blank hy]
        _ = inlineValue rest := by rw [hrest]; rfl

/-- Whether every key line of a text, with a value of its own, is read into a header. The field of
its key stands on that line or on one before it and has its value, unless a later line of the text
has the same key. -/
def ReadsKeyLines (h : Header) (text : Text) : Prop :=
  ∀ m line key rest, Text.lineAt? text m = some line → keyLine? line = some (key, rest) →
    opensFold (inlineValue rest) = false →
    ∃ field, h.field? key = some field ∧ field.line ≤ m ∧
      ((∀ later line' rest', m < later → Text.lineAt? text later = some line' →
        keyLine? line' ≠ some (key, rest')) → field.value = inlineValue rest)

/-- Reading loses no key line of a block when the blanks around the block are dropped first. -/
theorem readsKeyLines_read_trim (block : Text) :
    (read (1 + Text.newlines (Text.leadingBlanks block)) (Text.trim block)).ReadsKeyLines
      block := by
  intro m line key rest hline hkey hvalue
  obtain ⟨i, rfl⟩ : ∃ i, m = i + 1 := by
    cases m with
    | zero => cases hline
    | succ i => exact ⟨i, rfl⟩
  have hnonblank : Text.isBlankLine line = false := by
    have hends := continuesFold_of_keyLine hkey
    rw [continuesFold, Bool.or_eq_false_iff] at hends
    exact hends.2
  obtain ⟨j, x, l, y, rfl, hl, rfl, hx, hy⟩ := Text.exists_getElem?_lines_trim hline hnonblank
  obtain ⟨rest', hkey', hsame⟩ := keyLine?_within_blanks hx hy hkey
  obtain ⟨field, hfield, hplace, hlast⟩ :=
    field?_of_keyLine (1 + Text.newlines (Text.leadingBlanks block)) hl hkey' (hsame ▸ hvalue)
  refine ⟨field, hfield, by omega, fun hlater => ?_⟩
  rw [← hsame]
  apply hlast
  intro k later restLater hjk hlaterLine hlaterKey
  obtain ⟨x', y', hline', -, -, hstart⟩ := Text.getElem?_lines_trim hlaterLine
  rw [hstart (by omega), List.nil_append] at hline'
  obtain ⟨hne, hall, rfl⟩ := keyLine?_eq_some_iff.mp hlaterKey
  refine hlater (Text.newlines (Text.leadingBlanks block) + k + 1) _ (restLater ++ y') (by omega)
    hline' ?_
  exact keyLine?_eq_some_iff.mpr ⟨hne, hall, by simp⟩

end Header

namespace Document

/-! ## The first line -/

/-- The number of the first line after the opening one for which `p` holds. -/
def laterLine? (p : Text → Bool) (content : Text) : Option Nat :=
  ((Text.lines content).tail.findIdx? p).map (· + 2)

/-- The delimiter stands alone on the first line of a document that is nothing else or goes on
behind the end of that line. -/
theorem opening_line_cases {content : Text} (h : (Text.lines content).head? = some delimiter) :
    content = delimiter ∨
      ∃ e rest, (e = [] ∨ e = ['\r']) ∧ content = delimiter ++ (e ++ '\n' :: rest) := by
  induction content using Text.lineInduction with
  | unended q hq =>
    left
    by_cases hne : q = []
    · rw [hne] at h
      cases h
    · rw [Text.lines_of_open hq hne] at h
      exact Option.some.inj h
  | line q rest hq _ =>
    right
    rw [Text.lines_line hq, List.head?_cons, Option.some.injEq, Text.withoutReturn] at h
    split at h
    · next hreturn =>
      obtain ⟨front, rfl⟩ := List.getLast?_eq_some_iff.mp hreturn
      rw [List.dropLast_concat] at h
      exact ⟨['\r'], rest, .inr rfl, by simp [h]⟩
    · exact ⟨[], rest, .inl rfl, by simp [h]⟩

variable {e rest : Text}

theorem newline_not_mem_end (he : e = [] ∨ e = ['\r']) : '\n' ∉ e := by
  rcases he with rfl | rfl <;> decide

theorem lines_opened (he : e = [] ∨ e = ['\r']) :
    Text.lines (delimiter ++ (e ++ '\n' :: rest)) = delimiter :: Text.lines rest := by
  have hopen : '\n' ∉ delimiter ++ e := by rcases he with rfl | rfl <;> decide
  rw [← List.append_assoc, Text.lines_line hopen]
  rcases he with rfl | rfl <;> rfl

/-- The first later line that holds the delimiter is the one that closes the header. -/
theorem laterLine?_occurs {content : Text}
    (h : (Text.lines content).head? = some delimiter) :
    laterLine? (Text.occurs delimiter) content =
      (sections? content).map fun found => Text.newlines found.1 + 1 := by
  rcases opening_line_cases h with rfl | ⟨e, rest, he, rfl⟩
  · decide
  · rw [laterLine?, lines_opened he, List.tail_cons, sections?_opened he,
      Text.findIdx?_occurs_lines (by decide) (by decide) (by decide), Option.map_map,
      Option.map_map]
    simp [Function.comp_def, Text.newlines_line (newline_not_mem_end he)]

/-! ## The lines that are read -/

/-- With the opening delimiter before it a block has the same lines but the first, which is no key
line. -/
theorem readsKeyLines_opened (he : e = [] ∨ e = ['\r']) {h : Header}
    (hreads : h.ReadsKeyLines (e ++ '\n' :: rest)) :
    h.ReadsKeyLines (delimiter ++ (e ++ '\n' :: rest)) := by
  have hsame : ∀ i, Text.lineAt? (delimiter ++ (e ++ '\n' :: rest)) (i + 2) =
      Text.lineAt? (e ++ '\n' :: rest) (i + 2) := by
    intro i
    rw [Text.lineAt?, Text.lineAt?, lines_opened he, Text.lines_line (newline_not_mem_end he)]
    rfl
  intro m line key value hline hkey hvalue
  rcases m with _ | _ | i
  · cases hline
  · rw [Text.lineAt?, lines_opened he] at hline
    obtain rfl : delimiter = line := Option.some.inj hline
    have hnone : Header.keyLine? delimiter = none := by decide
    rw [hnone] at hkey
    cases hkey
  · rw [hsame] at hline
    obtain ⟨field, hfield, hplace, hlast⟩ := hreads (i + 2) line key value hline hkey hvalue
    refine ⟨field, hfield, hplace, fun hlater => hlast fun later line' rest' hlt hline' => ?_⟩
    obtain ⟨k, rfl⟩ : ∃ k, later = k + 2 := ⟨later - 2, by omega⟩
    rw [← hsame] at hline'
    exact hlater (k + 2) line' rest' hlt hline'

theorem readsKeyLines_parse {content block after : Text}
    (h : (Text.lines content).head? = some delimiter)
    (hsections : sections? content = some (block, after)) :
    (parse content).header.ReadsKeyLines (delimiter ++ block) := by
  have hread := Header.readsKeyLines_read_trim block
  rw [parse_of_sections hsections]
  rcases opening_line_cases h with rfl | ⟨e, rest, he, rfl⟩
  · cases hsections
  · rw [sections?_opened he] at hsections
    obtain ⟨⟨front, back⟩, -, hparts⟩ := Option.map_eq_some_iff.mp hsections
    obtain ⟨rfl, rfl⟩ := Prod.mk.inj hparts
    exact readsKeyLines_opened he hread

/-! ## The end of a header -/

/-- A document with its header closed on line `n`, between `block` and `after`. -/
structure ClosesAt (content : Text) (n : Nat) (block after : Text) : Prop where
  content_eq : content = delimiter ++ block ++ delimiter ++ after
  /-- no other place of the delimiter comes before -/
  first : ∀ x y, content = delimiter ++ x ++ delimiter ++ y → block.length ≤ x.length
  headerEnd : (parse content).headerEnd = n
  body : (parse content).body = Text.trim after
  /-- the lines above line `n` are whole -/
  above : ∀ m < n, Text.lineAt? (delimiter ++ block) m = Text.lineAt? content m
  keyLines : (parse content).header.ReadsKeyLines (delimiter ++ block)

theorem closesAt_of_sections {content block after : Text}
    (h : (Text.lines content).head? = some delimiter)
    (hsections : sections? content = some (block, after)) :
    ClosesAt content (Text.newlines block + 1) block after where
  content_eq := append_of_sections hsections
  first := by
    intro x y hxy
    rw [hxy, List.append_assoc, List.append_assoc, sections?_of_opened] at hsections
    exact Text.length_le_of_cut? hsections (List.append_assoc x delimiter y).symm
  headerEnd := by
    rw [parse_of_sections hsections]
    rfl
  body := by
    rw [parse_of_sections hsections]
    rfl
  above := by
    intro m hm
    cases m with
    | zero => rfl
    | succ i =>
      have hi : i < Text.newlines (delimiter ++ block) := by
        rw [Text.newlines_append]
        omega
      rw [Text.lineAt?, Text.lineAt?, append_of_sections hsections, List.append_assoc _ delimiter,
        Text.getElem?_lines_of_lt hi]
  keyLines := readsKeyLines_parse h hsections

/-- A document with the delimiter alone on its first line has its header closed by the next place
of the delimiter, on the first later line that holds it, and is all body when no later line does. -/
theorem header_closes_at_next_delimiter (content : Text)
    (h : (Text.lines content).head? = some delimiter) :
    (laterLine? (Text.occurs delimiter) content = none → parse content = bare content) ∧
      ∀ n, laterLine? (Text.occurs delimiter) content = some n →
        ∃ block after, ClosesAt content n block after := by
  rw [laterLine?_occurs h]
  constructor
  · intro hnone
    exact parse_of_no_sections (Option.map_eq_none_iff.mp hnone)
  · intro n hn
    obtain ⟨⟨block, after⟩, hsections, rfl⟩ := Option.map_eq_some_iff.mp hn
    exact ⟨block, after, closesAt_of_sections h hsections⟩

/-- A document with dashes in a value, above a line of its own for the delimiter. -/
def dashedDocument : Text :=
  "---\nname: a\ndescription: use --- here\nmodel: haiku\n---\nbody\n".toList

theorem dashed_value_closed_on_its_line :
    (Text.lines dashedDocument).head? = some delimiter ∧
      laterLine? (Text.occurs delimiter) dashedDocument = some 3 ∧
      ∃ block after, ClosesAt dashedDocument 3 block after := by
  have hfirst : (Text.lines dashedDocument).head? = some delimiter := by decide
  have hline : laterLine? (Text.occurs delimiter) dashedDocument = some 3 := by decide
  exact ⟨hfirst, hline, (header_closes_at_next_delimiter dashedDocument hfirst).2 3 hline⟩

/-- Whether a line is the delimiter and nothing else but blanks behind it. -/
def isClosingLine (line : Text) : Bool := Text.trimEnd line == delimiter

/-- Dashes in a value end the header on line 3, although the delimiter has line 5 to itself, and the
key on line 4 is not read. -/
theorem dashed_value_closes_header :
    (Text.lines dashedDocument).head? = some delimiter ∧
      laterLine? isClosingLine dashedDocument = some 5 ∧
      (parse dashedDocument).headerEnd = 3 ∧
      Text.lineAt? dashedDocument 4 = some "model: haiku".toList ∧
      (parse dashedDocument).header.field? "model".toList = none ∧
      ¬ ∀ content n, (Text.lines content).head? = some delimiter →
        laterLine? isClosingLine content = some n → (parse content).headerEnd = n := by
  have hfirst : (Text.lines dashedDocument).head? = some delimiter := by decide
  have hline : laterLine? isClosingLine dashedDocument = some 5 := by decide
  have hend : (parse dashedDocument).headerEnd = 3 := by decide
  refine ⟨hfirst, hline, hend, by decide, by decide, fun hall => ?_⟩
  have hfive := hall dashedDocument 5 hfirst hline
  omega

end Document
end PluginLint
