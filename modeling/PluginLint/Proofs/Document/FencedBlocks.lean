import Mathlib.Algebra.Group.Nat.Even
import PluginLint.Proofs.Document.ProseLines

/-!
# Fenced blocks

A scan for prose carries one bit along, whether a fenced block is open. Scanning lines in a row is
scanning the first and going on with the bit that they leave (`proseFrom_append`), so the bit before
a line is the parity of the fences that the scan has met (`mem_proseFrom_iff`). What stands in a
block is passed over (`proseFrom_inside`): of its lines the scan keeps their number alone
(`proseFrom_block`).

A block that is never closed reaches to the end of the document, and a fence may say more behind its
three backticks.
-/
namespace PluginLint.Document

/-! ## Scans in a row -/

theorem proseFrom_append (fenced : Bool) (number : Nat) (first second : List Text) :
    proseFrom fenced number (first ++ second) =
      proseFrom fenced number first ++
        proseFrom (insideFence fenced first first.length) (number + first.length) second := by
  induction first generalizing fenced number with
  | nil => simp [proseFrom, insideFence]
  | cons line rest ih =>
    have hinside : insideFence fenced (line :: rest) (line :: rest).length =
        insideFence (fenced ^^ isFence line) rest rest.length :=
      insideFence_succ fenced line rest rest.length
    have hnumber : number + (line :: rest).length = number + 1 + rest.length := by
      rw [List.length_cons]
      omega
    rw [hinside, hnumber, List.cons_append, proseFrom, proseFrom, ih, ih]
    cases isFence line with
    | true => simp
    | false =>
      cases hkept : fenced || Text.isBlankLine line <;> simp

/-- Between two fences nothing is read. -/
theorem proseFrom_inside (number : Nat) {inner : List Text}
    (h : ∀ line ∈ inner, isFence line = false) : proseFrom true number inner = [] := by
  induction inner generalizing number with
  | nil => rfl
  | cons line rest ih =>
    obtain ⟨hline, hrest⟩ := List.forall_mem_cons.mp h
    rw [proseFrom, hline]
    exact ih (number + 1) hrest

theorem insideFence_of_no_fence (fenced : Bool) {inner : List Text}
    (h : ∀ line ∈ inner, isFence line = false) (i : Nat) : insideFence fenced inner i = fenced := by
  have hnone : (inner.take i).countP isFence = 0 := by
    rw [List.countP_eq_zero]
    intro line hline
    rw [h line (List.mem_of_mem_take hline)]
    exact Bool.false_ne_true
  simp [insideFence, hnone]

theorem insideFence_false_iff {lines : List Text} {i : Nat} :
    insideFence false lines i = false ↔ Even ((lines.take i).countP isFence) := by
  rw [insideFence, Bool.false_xor, beq_eq_false_iff_ne, Nat.even_iff]
  omega

/-! ## What is read -/

theorem mem_proseFrom_iff {number n : Nat} {lines : List Text} {line : Text} :
    (n, line) ∈ proseFrom false number lines ↔ ∃ i, n = number + i ∧ lines[i]? = some line ∧
      Text.isBlankLine line = false ∧ isFence line = false ∧
      Even ((lines.take i).countP isFence) := by
  have hprose (line : Text) (i : Nat) : isProse false lines line i = true ↔
      Text.isBlankLine line = false ∧ isFence line = false ∧
        Even ((lines.take i).countP isFence) := by
    rw [isProse, Bool.and_eq_true, Bool.and_eq_true, Bool.not_eq_true', Bool.not_eq_true',
      Bool.not_eq_true', insideFence_false_iff, and_assoc]
  rw [proseFrom_eq_filter, List.mem_map]
  constructor
  · rintro ⟨⟨found, i⟩, hfound, heq⟩
    obtain ⟨rfl, rfl⟩ := Prod.mk.inj heq
    obtain ⟨hplace, hkept⟩ := List.mem_filter.mp hfound
    exact ⟨i, rfl, List.mem_zipIdx_iff_getElem?.mp hplace, (hprose found i).mp hkept⟩
  · rintro ⟨i, rfl, hline, hkept⟩
    exact ⟨(line, i), List.mem_filter.mpr
      ⟨List.mem_zipIdx_iff_getElem?.mpr hline, (hprose line i).mpr hkept⟩, rfl⟩

/-- The numbers increase along a scan. -/
theorem proseFrom_pairwise (fenced : Bool) (number : Nat) (lines : List Text) :
    (proseFrom fenced number lines).Pairwise fun p q => p.1 < q.1 := by
  induction lines generalizing fenced number with
  | nil => exact List.Pairwise.nil
  | cons line rest ih =>
    unfold proseFrom
    split
    · exact ih _ _
    · split
      · exact ih _ _
      · refine List.pairwise_cons.mpr ⟨fun p hp => ?_, ih _ _⟩
        exact le_of_mem_proseFrom hp

/-- How many fences stand behind the first `skip` lines of a document and before the line `n`. -/
def fencesBefore (content : Text) (skip n : Nat) : Nat :=
  (((Text.lines content).take (n - 1)).drop skip).countP isFence

theorem mem_proseLines_iff {content line : Text} {skip n : Nat} :
    (n, line) ∈ proseLines content skip ↔ skip < n ∧ Text.lineAt? content n = some line ∧
      Text.isBlankLine line = false ∧ isFence line = false ∧
      Even (fencesBefore content skip n) := by
  have hline (i : Nat) : ((Text.lines content).drop skip)[i]? =
      Text.lineAt? content (skip + 1 + i) := by
    rw [List.getElem?_drop, Nat.add_right_comm, Text.lineAt?]
  have hfences (i : Nat) : (((Text.lines content).drop skip).take i).countP isFence =
      fencesBefore content skip (skip + 1 + i) := by
    rw [fencesBefore, List.take_drop, Nat.add_right_comm, Nat.add_sub_cancel]
  rw [proseLines, mem_proseFrom_iff]
  simp only [hline, hfences]
  constructor
  · rintro ⟨i, rfl, hkept⟩
    exact ⟨by omega, hkept⟩
  · rintro ⟨hskip, hkept⟩
    obtain ⟨i, rfl⟩ : ∃ i, n = skip + 1 + i := ⟨n - (skip + 1), by omega⟩
    exact ⟨i, rfl, hkept⟩

theorem isFence_eq_false_iff {line : Text} :
    isFence line = false ↔ ¬ fence <+: Text.trimStart line := by
  rw [isFence, ← List.isPrefixOf_iff_prefix, Bool.not_eq_true]

theorem isBlankLine_eq_false_iff {line : Text} :
    Text.isBlankLine line = false ↔ Text.trim line ≠ [] := by
  rw [Ne, Text.trim_eq_nil_iff, Bool.not_eq_true]

/-! ## Blocks -/

/-- A fenced block of a document as a scan behind its first `skip` lines meets it: the lines `front`
before it leave no block open, and no line inside is a fence. -/
structure IsBlock (skip : Nat) (front : List Text) (opening : Text) (inner : List Text)
    (closing : Text) : Prop where
  behind : skip ≤ front.length
  outside : Even ((front.drop skip).countP isFence)
  opens : isFence opening = true
  inside : ∀ line ∈ inner, isFence line = false
  closes : isFence closing = true

/-- Of the lines inside a block a scan keeps their number alone. -/
theorem proseFrom_block {skip number : Nat} {front inner back : List Text} {opening closing : Text}
    (h : IsBlock skip front opening inner closing) :
    proseFrom false number ((front ++ opening :: (inner ++ closing :: back)).drop skip) =
      proseFrom false number (front.drop skip) ++
        proseFrom false (number + (front.drop skip).length + inner.length + 2) back := by
  have hopen : insideFence false (front.drop skip) (front.drop skip).length = false := by
    rw [insideFence_false_iff, List.take_length]
    exact h.outside
  have hinner : insideFence true inner inner.length = true :=
    insideFence_of_no_fence true h.inside inner.length
  rw [List.drop_append_of_le_length h.behind, proseFrom_append, hopen, proseFrom, h.opens,
    if_pos rfl, Bool.not_false, proseFrom_append, proseFrom_inside _ h.inside, hinner, proseFrom,
    h.closes, if_pos rfl, List.nil_append, Bool.not_true]
  congr 2
  omega

/-- The prose of a document behind its first `skip` lines. The numbers increase, a line is there
when it is neither blank nor a fence and an even number of fences behind those lines stands before
it, and other lines in a fenced block, as many and without a fence, make no difference. -/
theorem prose_lines_by_parity_of_fences (content : Text) (skip : Nat) :
    (proseLines content skip).Pairwise (fun p q => p.1 < q.1) ∧
      (∀ n line, (n, line) ∈ proseLines content skip ↔
        skip < n ∧ Text.lineAt? content n = some line ∧ Text.trim line ≠ [] ∧
          ¬ fence <+: Text.trimStart line ∧ Even (fencesBefore content skip n)) ∧
      ∀ content' front opening inner inner' closing back,
        IsBlock skip front opening inner closing → IsBlock skip front opening inner' closing →
        inner'.length = inner.length →
        Text.lines content = front ++ opening :: (inner ++ closing :: back) →
        Text.lines content' = front ++ opening :: (inner' ++ closing :: back) →
          proseLines content' skip = proseLines content skip := by
  refine ⟨proseFrom_pairwise false (skip + 1) _, fun n line => ?_, ?_⟩
  · rw [mem_proseLines_iff, isBlankLine_eq_false_iff, isFence_eq_false_iff]
  · intro content' front opening inner inner' closing back hblock hblock' hlength hlines hlines'
    rw [proseLines, proseLines, hlines, hlines', proseFrom_block hblock, proseFrom_block hblock',
      hlength]

/-- Two documents that differ inside a block alone. In one of them the block names a tool. -/
def listingDocument : Text := "---\n---\nList:\n  ```sh\nls\n```\nRun it\n```\n".toList

def namingDocument : Text :=
  "---\n---\nList:\n  ```sh\nUse the Bash tool\n```\nRun it\n```\n".toList

theorem block_of_documents_passed_over :
    let front := ["---".toList, "---".toList, "List:".toList]
    IsBlock 2 front "  ```sh".toList ["ls".toList] "```".toList ∧
      IsBlock 2 front "  ```sh".toList ["Use the Bash tool".toList] "```".toList ∧
      proseLines namingDocument 2 = proseLines listingDocument 2 ∧
      proseLines listingDocument 2 = [(3, "List:".toList), (7, "Run it".toList)] := by
  intro front
  have hblock : IsBlock 2 front "  ```sh".toList ["ls".toList] "```".toList :=
    ⟨by decide, by decide, by decide, by decide, by decide⟩
  have hblock' : IsBlock 2 front "  ```sh".toList ["Use the Bash tool".toList] "```".toList :=
    ⟨by decide, by decide, by decide, by decide, by decide⟩
  have hblocks := (prose_lines_by_parity_of_fences listingDocument 2).2.2
  exact ⟨hblock, hblock', hblocks namingDocument front _ _ _ _
    ["Run it".toList, "```".toList] hblock hblock' rfl (by decide) (by decide), by decide⟩

end PluginLint.Document
