import PluginLint.Document.Prose
import PluginLint.Proofs.Document.Sections
import PluginLint.Proofs.Text.TrimmedLines

/-!
# Prose lines and the body

There are two readings of what the prose of a document is. `proseLines` takes the document without
the lines of its header block and carries the fence state along; `bodyProse` takes the body that
`parse` cut out and says of each of its lines, by itself, whether it is prose and which line of the
document it stands on.

The two agree up to the blanks around a line, with one exception: a body that starts on the line of
the closing delimiter has its first line taken away with the header block. So the readings are the
same exactly when the body starts further down or holds no line but blanks and fences.
-/
namespace PluginLint.Document

/-- Whether a fenced block is open before the `i`th of some lines, `fenced` telling whether one is
open before them all. -/
def insideFence (fenced : Bool) (lines : List Text) (i : Nat) : Bool :=
  fenced ^^ (lines.take i).countP isFence % 2 == 1

/-- Whether a line is prose that is the `i`th of some lines. -/
def isProse (fenced : Bool) (lines : List Text) (line : Text) (i : Nat) : Bool :=
  !Text.isBlankLine line && !isFence line && !insideFence fenced lines i

/-- The prose among the lines of the body behind the first `skip`, each at its line of the document
and without the blanks around it. -/
def bodyProse (d : Document) (skip : Nat) : List (Nat × Text) :=
  let lines := (Text.lines d.body).drop skip
  (lines.zipIdx.filter fun p => isProse false lines p.1 p.2).map fun p =>
    (d.lineOfBody (skip + p.2 + 1), Text.trim p.1)

/-- How many lines of the body stand on the line of the closing delimiter. -/
def sharedLines (d : Document) : Nat := if d.lineOfBody 1 = d.headerEnd then 1 else 0

/-- Prose lines without the blanks around them. -/
def trimmed (prose : List (Nat × Text)) : List (Nat × Text) :=
  prose.map fun p => (p.1, Text.trim p.2)

/-! ## The scan -/

theorem isFence_trim (line : Text) : isFence (Text.trim line) = isFence line := by
  have hmark : ∀ c ∈ fence, Text.isBlank c = false := by
    intro c hc
    obtain rfl : c = '\x60' := by simpa [fence] using hc
    decide
  have hstart : Text.trimStart line = Text.trim line ++ Text.trailingBlanks line :=
    List.rdropWhile_append_rtakeWhile.symm
  rw [Bool.eq_iff_iff, isFence, isFence, Text.trimStart_trim, hstart, List.isPrefixOf_iff_prefix,
    List.isPrefixOf_iff_prefix,
    Text.prefix_append_blank_iff hmark (Text.isBlankLine_trailingBlanks line)]

theorem trimmed_proseFrom (fenced : Bool) (number : Nat) (lines : List Text) :
    trimmed (proseFrom fenced number lines) = proseFrom fenced number (lines.map Text.trim) := by
  induction lines generalizing fenced number with
  | nil => rfl
  | cons line rest ih =>
    simp only [List.map_cons, proseFrom, isFence_trim, Text.isBlankLine_trim, ← ih]
    split
    · rfl
    · split <;> rfl

/-- Empty lines are counted and nothing else. -/
theorem proseFrom_empty_append (fenced : Bool) (number k : Nat) (lines : List Text) :
    proseFrom fenced number (List.replicate k [] ++ lines) =
      proseFrom fenced (number + k) lines := by
  induction k generalizing number with
  | zero => rfl
  | succ k ih =>
    have hempty : isFence [] = false ∧ Text.isBlankLine [] = true := by decide
    rw [List.replicate_succ, List.cons_append, proseFrom, hempty.1, hempty.2, Bool.or_true, ih]
    simp only [Bool.false_eq_true, if_false, if_true]
    congr 1
    omega

theorem proseFrom_append_empty (fenced : Bool) (number k : Nat) (lines : List Text) :
    proseFrom fenced number (lines ++ List.replicate k []) = proseFrom fenced number lines := by
  induction lines generalizing fenced number with
  | nil =>
    have h := proseFrom_empty_append fenced number k []
    simpa [proseFrom] using h
  | cons line rest ih => simp only [List.cons_append, proseFrom, ih]

theorem insideFence_succ (fenced : Bool) (line : Text) (rest : List Text) (i : Nat) :
    insideFence fenced (line :: rest) (i + 1) = insideFence (fenced ^^ isFence line) rest i := by
  simp only [insideFence, List.take_succ_cons, List.countP_cons]
  cases isFence line with
  | false => simp
  | true =>
    rcases Nat.mod_two_eq_zero_or_one ((rest.take i).countP isFence) with h | h <;>
      simp [Nat.add_mod, h]

/-- The scan judges each line by itself and numbers it by its place. -/
theorem proseFrom_eq_filter (fenced : Bool) (number : Nat) (lines : List Text) :
    proseFrom fenced number lines =
      (lines.zipIdx.filter fun p => isProse fenced lines p.1 p.2).map
        fun p => (number + p.2, p.1) := by
  induction lines generalizing fenced number with
  | nil => rfl
  | cons line rest ih =>
    have hplaces : (line :: rest).zipIdx =
        (line, 0) :: rest.zipIdx.map fun p => (p.1, p.2 + 1) := by
      rw [List.zipIdx_cons, List.zipIdx_succ]
    have hrest : ((rest.zipIdx.map fun p => (p.1, p.2 + 1)).filter
        fun p => isProse fenced (line :: rest) p.1 p.2).map (fun p => (number + p.2, p.1)) =
        proseFrom (fenced ^^ isFence line) (number + 1) rest := by
      rw [ih, List.filter_map, List.map_map]
      simp only [Function.comp_def, isProse, insideFence_succ, Nat.add_assoc, Nat.add_comm 1]
    have hfirst : isProse fenced (line :: rest) line 0 =
        (!Text.isBlankLine line && !isFence line && !fenced) := by
      simp [isProse, insideFence]
    rw [hplaces, List.filter_cons, hfirst, proseFrom]
    cases hf : isFence line with
    | true => simpa [hf] using hrest.symm
    | false =>
      rw [hf, Bool.xor_false] at hrest
      rw [← hrest]
      cases Text.isBlankLine line <;> cases fenced <;> simp

theorem bodyProse_eq_proseFrom (d : Document) (skip : Nat) :
    d.bodyProse skip =
      proseFrom false (d.lineOfBody (skip + 1)) ((Text.trimmedLines d.body).drop skip) := by
  rw [Text.trimmedLines, ← List.map_drop, ← trimmed_proseFrom, proseFrom_eq_filter, trimmed,
    List.map_map, bodyProse]
  simp only [Function.comp_def, lineOfBody, Nat.add_assoc, Nat.add_comm 1]

/-! ## The two readings -/

/-- Trimming a text takes away as many numbers as there are line feeds among its leading blanks. -/
theorem proseFrom_trim (fenced : Bool) (number : Nat) (s : Text) :
    proseFrom fenced number (Text.trimmedLines s) =
      proseFrom fenced (number + Text.newlines (Text.leadingBlanks s))
        (Text.trimmedLines (Text.trim s)) := by
  by_cases hs : Text.trim s = []
  · have hblank := Text.trimmedLines_of_blank (Text.trim_eq_nil_iff.mp hs)
    have hnone := proseFrom_append_empty fenced number (Text.lines s).length []
    rw [hblank, hs, ← List.nil_append (List.replicate _ _), hnone]
    rfl
  · obtain ⟨m, hm⟩ := Text.exists_trimmedLines_eq hs
    rw [hm, proseFrom_append_empty, proseFrom_empty_append]

theorem headerEnd_eq_newlines (block after : Text) :
    (ofSections block after).headerEnd = Text.newlines (delimiter ++ block ++ delimiter) + 1 := by
  simp [ofSections, delimiter, Text.newlines]

theorem lineOfBody_one (block after : Text) :
    (ofSections block after).lineOfBody 1 =
      (ofSections block after).headerEnd + Text.newlines (Text.leadingBlanks after) := by
  simp only [lineOfBody, ofSections]
  omega

theorem sharedLines_of_sections {content block after : Text}
    (h : sections? content = some (block, after)) :
    (parse content).sharedLines =
      if Text.newlines (Text.leadingBlanks after) = 0 then 1 else 0 := by
  rw [parse_of_sections h, sharedLines, lineOfBody_one]
  simp

/-- Behind a header block the scan reads what comes after the first line feed behind the closing
delimiter. -/
theorem trimmed_proseLines_of_line {content block q rest : Text}
    (h : sections? content = some (block, q ++ '\n' :: rest)) (hq : '\n' ∉ q) :
    trimmed (proseLines content (parse content).headerEnd) =
      proseFrom false ((parse content).headerEnd + 1) (Text.trimmedLines rest) := by
  have hend : (parse content).headerEnd =
      Text.newlines (delimiter ++ block ++ delimiter ++ q) + 1 := by
    rw [parse_of_sections h, headerEnd_eq_newlines, Text.newlines_append _ q,
      Text.newlines_of_open hq, Nat.add_zero]
  have hcontent : content = delimiter ++ block ++ delimiter ++ q ++ '\n' :: rest := by
    rw [append_of_sections h, List.append_assoc _ q]
  have hlines : (Text.lines content).drop (parse content).headerEnd = Text.lines rest := by
    rw [hend]
    nth_rewrite 1 [hcontent]
    exact Text.drop_lines_line _ rest
  rw [proseLines, hlines, trimmed_proseFrom]
  rfl

theorem bodyProse_of_sections {content block after : Text}
    (h : sections? content = some (block, after)) (skip : Nat) :
    (parse content).bodyProse skip =
      proseFrom false
        ((parse content).headerEnd + Text.newlines (Text.leadingBlanks after) + skip)
        ((Text.trimmedLines (Text.trim after)).drop skip) := by
  have hline : (parse content).lineOfBody (skip + 1) = (parse content).lineOfBody 1 + skip := by
    simp only [lineOfBody]
    omega
  rw [bodyProse_eq_proseFrom, hline, parse_of_sections h, lineOfBody_one]
  rfl

/-- Nothing but blanks stands behind the delimiter on its line: the body is what a later line
begins, and all of it is read. -/
theorem bodyProse_of_blank_line {content block q rest : Text}
    (h : sections? content = some (block, q ++ '\n' :: rest)) (hq : '\n' ∉ q)
    (hblank : Text.isBlankLine q = true) :
    (parse content).bodyProse (parse content).sharedLines =
      proseFrom false ((parse content).headerEnd + 1) (Text.trimmedLines rest) := by
  have hfront : Text.isBlankLine (q ++ ['\n']) = true := by
    rw [Text.isBlankLine, List.all_append]
    exact Bool.and_eq_true_iff.mpr ⟨hblank, by decide⟩
  have hfeeds : Text.newlines (q ++ ['\n']) = 1 := by
    rw [Text.newlines_append, Text.newlines_of_open hq]
    rfl
  rw [List.append_cons] at h
  have hcount : Text.newlines (Text.leadingBlanks (q ++ ['\n'] ++ rest)) =
      1 + Text.newlines (Text.leadingBlanks rest) := by
    rw [Text.leadingBlanks_blank_append hfront, Text.newlines_append, hfeeds]
  have hshared : (parse content).sharedLines = 0 := by
    rw [sharedLines_of_sections h, hcount, if_neg (by omega)]
  rw [hshared, bodyProse_of_sections h, hcount, Text.trim_blank_append hfront, proseFrom_trim,
    Nat.add_zero, Nat.add_assoc]
  rfl

/-- The body starts behind the delimiter on its line: the rest of that line is the first of the
body, and reading goes on behind it. -/
theorem bodyProse_of_started_line {content block q rest : Text}
    (h : sections? content = some (block, q ++ '\n' :: rest)) (hq : '\n' ∉ q)
    (hblank : Text.isBlankLine q = false) :
    (parse content).bodyProse (parse content).sharedLines =
      proseFrom false ((parse content).headerEnd + 1) (Text.trimmedLines rest) := by
  have hcount : Text.newlines (Text.leadingBlanks (q ++ '\n' :: rest)) = 0 := by
    rw [Text.leadingBlanks_append_of_not_blank hblank, Text.newlines_leadingBlanks_of_open hq]
  have hshared : (parse content).sharedLines = 1 := by
    rw [sharedLines_of_sections h, hcount, if_pos rfl]
  have hbody : Text.trim (q ++ '\n' :: rest) ≠ [] := by
    rw [Ne, Text.trim_eq_nil_iff, Text.isBlankLine, List.all_append]
    simp [← Text.isBlankLine.eq_1, hblank]
  obtain ⟨m, hm⟩ := Text.exists_trimmedLines_eq hbody
  rw [hcount, Text.trimmedLines_line hq, List.replicate_zero, List.nil_append] at hm
  rw [hshared, bodyProse_of_sections h, hcount]
  cases hlines : Text.trimmedLines (Text.trim (q ++ '\n' :: rest)) with
  | nil =>
    rw [hlines, List.nil_append] at hm
    have hempty : Text.trim q = [] := List.eq_of_mem_replicate (hm ▸ List.mem_cons_self)
    rw [Text.trim_eq_nil_iff, hblank] at hempty
    cases hempty
  | cons first more =>
    rw [hlines, List.cons_append, List.cons.injEq] at hm
    rw [hm.2, proseFrom_append_empty]
    rfl

/-- No line feed comes after the closing delimiter: the only line the body can have is the one of
the delimiter, and neither reading has any prose. -/
theorem proseLines_of_unended {content block after : Text}
    (h : sections? content = some (block, after)) (hmem : '\n' ∉ after) :
    proseLines content (parse content).headerEnd = [] := by
  have hend : (parse content).headerEnd = Text.newlines content + 1 := by
    rw [parse_of_sections h, headerEnd_eq_newlines]
    nth_rewrite 1 [append_of_sections h]
    rw [Text.newlines_append _ after, Text.newlines_of_open hmem, Nat.add_zero]
  have hlines := Text.length_lines_le content
  rw [proseLines, List.drop_eq_nil_of_le (by omega)]
  rfl

theorem bodyProse_of_unended {content block after : Text}
    (h : sections? content = some (block, after)) (hmem : '\n' ∉ after) :
    (parse content).bodyProse (parse content).sharedLines = [] := by
  have hbody : '\n' ∉ Text.trim after := by
    intro hin
    apply hmem
    rw [← Text.blanks_append_trim after]
    simp [hin]
  have hshared : (parse content).sharedLines = 1 := by
    rw [sharedLines_of_sections h, Text.newlines_leadingBlanks_of_open hmem, if_pos rfl]
  have hlines := Text.length_lines_le (Text.trim after)
  rw [Text.newlines_of_open hbody] at hlines
  rw [hshared, bodyProse_of_sections h, Text.trimmedLines, ← List.map_drop,
    List.drop_eq_nil_of_le hlines]
  rfl

/-- The scan reads the body without the line it shares with the header block. -/
theorem trimmed_proseLines (content : Text) :
    trimmed (proseLines content (parse content).headerEnd) =
      (parse content).bodyProse (parse content).sharedLines := by
  cases h : sections? content with
  | none =>
    rw [bodyProse_eq_proseFrom, parse_of_no_sections h, proseLines, trimmed_proseFrom]
    rfl
  | some found =>
    obtain ⟨block, after⟩ := found
    by_cases hmem : '\n' ∈ after
    · obtain ⟨q, rest, rfl, hq⟩ := List.eq_append_cons_of_mem hmem
      rw [trimmed_proseLines_of_line h hq]
      cases hblank : Text.isBlankLine q with
      | true => rw [bodyProse_of_blank_line h hq hblank]
      | false => rw [bodyProse_of_started_line h hq hblank]
    · rw [proseLines_of_unended h hmem, bodyProse_of_unended h hmem]
      rfl

/-! ## Where they part -/

theorem le_of_mem_proseFrom {fenced : Bool} {number : Nat} {lines : List Text} {p : Nat × Text}
    (h : p ∈ proseFrom fenced number lines) : number ≤ p.1 := by
  rw [proseFrom_eq_filter] at h
  obtain ⟨place, -, rfl⟩ := List.mem_map.mp h
  exact Nat.le_add_right number place.2

/-- Prose on a line is missed by every scan that starts below it. -/
theorem proseFrom_ne_cons (fenced : Bool) (number : Nat) (lines : List Text) (line : Text)
    (more : List (Nat × Text)) : proseFrom fenced (number + 1) lines ≠ (number, line) :: more := by
  intro h
  have hle := le_of_mem_proseFrom (h ▸ List.mem_cons_self : (number, line) ∈ _)
  exact absurd hle (Nat.not_succ_le_self number)

/-- An open block makes no difference only where there is nothing but blanks and fences. -/
theorem proseFrom_fenced_iff (number : Nat) (lines : List Text) :
    proseFrom true number lines = proseFrom false number lines ↔
      ∀ line ∈ lines, Text.isBlankLine line = true ∨ isFence line = true := by
  induction lines generalizing number with
  | nil => simp [proseFrom]
  | cons line rest ih =>
    rw [List.forall_mem_cons, ← ih (number + 1), proseFrom, proseFrom]
    cases hf : isFence line with
    | true =>
      simp only [if_true, Bool.not_true, Bool.not_false, or_true, true_and]
      exact eq_comm
    | false =>
      cases hb : Text.isBlankLine line with
      | true => simp
      | false => simpa using proseFrom_ne_cons true number rest line _

/-- Nor does the first of some lines make a difference elsewhere, unless it is blank. -/
theorem proseFrom_tail_iff (number : Nat) {first : Text} (more : List Text)
    (hfirst : Text.isBlankLine first = false) :
    proseFrom false (number + 1) more = proseFrom false number (first :: more) ↔
      ∀ line ∈ first :: more, Text.isBlankLine line = true ∨ isFence line = true := by
  rw [List.forall_mem_cons, proseFrom, hfirst]
  cases hf : isFence first with
  | true =>
    simp only [if_true, Bool.not_false, or_true, true_and]
    exact eq_comm.trans (proseFrom_fenced_iff (number + 1) more)
  | false => simp

theorem bodyProse_one_iff {content : Text}
    (hline : (parse content).lineOfBody 1 = (parse content).headerEnd) :
    (parse content).bodyProse 1 = (parse content).bodyProse 0 ↔
      ∀ line ∈ Text.lines (parse content).body,
        Text.isBlankLine line = true ∨ isFence line = true := by
  have hlines : (∀ line ∈ Text.trimmedLines (parse content).body,
        Text.isBlankLine line = true ∨ isFence line = true) ↔
      ∀ line ∈ Text.lines (parse content).body,
        Text.isBlankLine line = true ∨ isFence line = true := by
    simp [Text.trimmedLines, Text.isBlankLine_trim, isFence_trim]
  rw [← hlines, bodyProse_eq_proseFrom, bodyProse_eq_proseFrom, List.drop_zero]
  cases h : sections? content with
  | none => simp [parse_of_no_sections h, bare, lineOfBody] at hline
  | some found =>
    obtain ⟨block, after⟩ := found
    have hbody : (parse content).body = Text.trim after := by simp [parse_of_sections h, ofSections]
    rw [hbody]
    cases hfirst : Text.trimmedLines (Text.trim after) with
    | nil => simp [proseFrom]
    | cons first more =>
      exact proseFrom_tail_iff _ more (Text.not_blank_of_trimmedLines_trim hfirst)

/-- What the scan reads, against the prose of the body. It is always that of the body without the
line shared with the header block, so it is that of the whole body exactly when no line is shared
or nothing in the body would be read anyway; and no line down to the closing delimiter is read. -/
theorem scanned_prose_is_body_prose_iff (content : Text) :
    trimmed (proseLines content (parse content).headerEnd) =
        (parse content).bodyProse (parse content).sharedLines ∧
      (trimmed (proseLines content (parse content).headerEnd) = (parse content).bodyProse 0 ↔
        (parse content).lineOfBody 1 ≠ (parse content).headerEnd ∨
          ∀ line ∈ Text.lines (parse content).body,
            Text.isBlankLine line = true ∨ isFence line = true) ∧
      ∀ p ∈ proseLines content (parse content).headerEnd, (parse content).headerEnd < p.1 := by
  refine ⟨trimmed_proseLines content, ?_, fun p hp => le_of_mem_proseFrom hp⟩
  rw [trimmed_proseLines]
  by_cases hline : (parse content).lineOfBody 1 = (parse content).headerEnd
  · have hshared : (parse content).sharedLines = 1 := by simp [sharedLines, hline]
    rw [hshared, bodyProse_one_iff hline]
    simp [hline]
  · have hshared : (parse content).sharedLines = 0 := by simp [sharedLines, hline]
    rw [hshared]
    simp [hline]

/-- A document whose body starts behind the closing delimiter, on its line. -/
def startedDocument : Text := "---\nname: a\n---Use the Bash tool now\n".toList

/-- The one line of its body is prose and is not read. -/
theorem started_document_prose_unread :
    trimmed (proseLines startedDocument (parse startedDocument).headerEnd) = [] ∧
      (parse startedDocument).bodyProse 0 = [(3, "Use the Bash tool now".toList)] ∧
      ¬ ∀ content, trimmed (proseLines content (parse content).headerEnd) =
        (parse content).bodyProse 0 := by
  have hscan : trimmed (proseLines startedDocument (parse startedDocument).headerEnd) = [] := by
    decide
  have hbody : (parse startedDocument).bodyProse 0 = [(3, "Use the Bash tool now".toList)] := by
    decide
  refine ⟨hscan, hbody, fun h => ?_⟩
  have := h startedDocument
  rw [hscan, hbody] at this
  cases this

end PluginLint.Document
