import Mathlib.Data.List.TakeWhile
import PluginLint.Proofs.Document.HeaderFields

/-!
# Header blocks without a machine

Reading a header goes line by line with a fold that may be open. The same fields can be told without
that state: every key line gives its key a value, which stands on the line itself or is the longest
run of indented and blank lines below it (`blockValue?`), and the header lists what is given
(`read_eq_blocks`). The invariant that ties the two is `run_close`: what a reading comes to is what
its open fold comes to on the lines ahead, followed by what the key lines among them give.
-/
namespace PluginLint.Header

/-! ## Key lines -/

theorem isKeyChar_of_colon : isKeyChar ':' = false := by decide

/-- Above ASCII the ranges of word characters lie between the blanks. -/
theorem wordRanges_avoid_blanks : (Text.wordRanges.all fun r =>
    [(0x85, 0xA0), (0x1680, 0x1680), (0x2000, 0x200A), (0x2028, 0x202F), (0x205F, 0x205F),
      (0x3000, 0x3000)].all fun b => Nat.blt r.2 b.1 || Nat.blt b.2 r.1) = true := by
  decide +kernel

theorem isWord_of_isBlank {c : Char} (h : Text.isBlank c = true) : Text.isWord c = false := by
  simp only [Text.isBlank, Bool.or_eq_true, Bool.and_eq_true, decide_eq_true_eq, beq_iff_eq] at h
  unfold Text.isWord
  split
  · have hpoints : ∀ n ∈ [9, 10, 11, 12, 13, 32],
        ((Char.ofNat n).isAlphanum || Char.ofNat n == '_') = false := by decide
    rw [← Char.ofNat_toNat c]
    apply hpoints
    simp only [List.mem_cons, List.not_mem_nil, or_false]
    omega
  · apply Bool.eq_false_iff.mpr
    intro hword
    obtain ⟨r, hr, hlow, hhigh⟩ := Text.inRanges_iff.mp hword
    have havoid := List.all_eq_true.mp wordRanges_avoid_blanks r hr
    simp only [List.all_cons, List.all_nil, Bool.and_true, Bool.and_eq_true, Bool.or_eq_true,
      Nat.blt_eq] at havoid
    omega

/-- No blank stands in a key. -/
theorem isBlank_of_isKeyChar {c : Char} (h : isKeyChar c = true) : Text.isBlank c = false := by
  apply Bool.eq_false_iff.mpr
  intro hblank
  have hhyphen : c ≠ '-' := by
    rintro rfl
    exact absurd hblank (by decide)
  simp [isKeyChar, isWord_of_isBlank hblank, hhyphen] at h

/-- A key line is a key, a colon and anything. -/
theorem keyLine?_eq_some_iff {line key rest : Text} :
    keyLine? line = some (key, rest) ↔
      key ≠ [] ∧ (∀ c ∈ key, isKeyChar c = true) ∧ line = key ++ ':' :: rest := by
  constructor
  · intro h
    unfold keyLine? at h
    split at h
    · next c more after htake hdrop =>
      obtain ⟨rfl, rfl⟩ := Prod.mk.inj (Option.some.inj h)
      refine ⟨by simp, ?_, ?_⟩
      · rw [← htake]
        exact fun c hc => List.mem_takeWhile_imp hc
      · rw [← htake, ← hdrop, List.takeWhile_append_dropWhile]
    · cases h
  · rintro ⟨hne, hall, rfl⟩
    obtain ⟨c, more, rfl⟩ := List.exists_cons_of_ne_nil hne
    have htake : ((c :: more) ++ ':' :: rest).takeWhile isKeyChar = c :: more := by
      rw [List.takeWhile_append_of_pos hall,
        List.takeWhile_cons_of_neg (by simp [isKeyChar_of_colon]), List.append_nil]
    have hdrop : ((c :: more) ++ ':' :: rest).dropWhile isKeyChar = ':' :: rest := by
      rw [List.dropWhile_append_of_pos hall,
        List.dropWhile_cons_of_neg (by simp [isKeyChar_of_colon])]
    unfold keyLine?
    rw [htake, hdrop]
    rfl

/-- Whether a line can lie in a fold. -/
def continuesFold (line : Text) : Bool := isIndented line || Text.isBlankLine line

/-- No fold swallows a key line. -/
theorem continuesFold_of_keyLine {line key rest : Text} (h : keyLine? line = some (key, rest)) :
    continuesFold line = false := by
  obtain ⟨hne, hall, rfl⟩ := keyLine?_eq_some_iff.mp h
  obtain ⟨c, more, rfl⟩ := List.exists_cons_of_ne_nil hne
  have hc : isKeyChar c = true := hall c (by simp)
  have hspace : ' ' ≠ c := by
    rintro rfl
    exact absurd hc (by decide)
  have htab : '\t' ≠ c := by
    rintro rfl
    exact absurd hc (by decide)
  have hcolon : Text.isBlank ':' = false := by decide
  simp [continuesFold, isIndented, Text.isBlankLine, List.isPrefixOf, hspace, htab, hcolon]

/-! ## The fields that key lines give -/

/-- The parts of a fold that opens above some lines. -/
def foldParts (below : List Text) : List Text :=
  ((below.takeWhile continuesFold).filter isIndented).map Text.trim

/-- The value of a key line, given what follows its colon and the lines below it. -/
def blockValue? (rest : Text) (below : List Text) : Option Text :=
  if opensFold (inlineValue rest) then
    if foldParts below = [] then none else some (List.intercalate [' '] (foldParts below))
  else some (inlineValue rest)

/-- The field that a line gives. -/
def given? (number : Nat) (line : Text) (below : List Text) : Option (Text × Field) := do
  let (key, rest) ← keyLine? line
  let value ← blockValue? rest below
  return (key, ⟨value, number⟩)

/-- The fields that numbered lines give, one for every key line with a value. -/
def givenFields (number : Nat) : List Text → List (Text × Field)
  | [] => []
  | line :: below => (given? number line below).toList ++ givenFields (number + 1) below

/-! ## What a reading comes to -/

/-- What a reading holds once its open fold has run on over the lines ahead. -/
def Reading.settled (r : Reading) (ahead : List Text) : Header :=
  match r.fold with
  | none => r.header
  | some fold => Reading.close ⟨r.header, some { fold with parts := fold.parts ++ foldParts ahead }⟩

theorem Reading.settled_nil (r : Reading) : r.settled [] = r.close := by
  obtain ⟨header, fold⟩ := r
  cases fold <;> simp [settled, foldParts, close]

/-- A fold ends at a line that cannot lie in it. -/
theorem Reading.settled_of_ends (r : Reading) {line : Text} (below : List Text)
    (h : continuesFold line = false) : r.settled (line :: below) = r.close := by
  obtain ⟨header, fold⟩ := r
  cases fold <;> simp [settled, foldParts, h, close]

/-- A key line is read as such, whether a fold is open or not. -/
theorem step_of_keyLine (r : Reading) (number : Nat) {line key rest : Text}
    (h : keyLine? line = some (key, rest)) : r.step number line = seek r.close number line := by
  have hends := continuesFold_of_keyLine h
  simp only [continuesFold, Bool.or_eq_false_iff] at hends
  obtain ⟨header, fold⟩ := r
  cases fold with
  | none => rfl
  | some fold => simp [Reading.step, hends.1, hends.2]

/-- What a key line comes to is its value on the lines below. -/
theorem settled_seek (header : Header) (number : Nat) {line key rest : Text} (below : List Text)
    (h : keyLine? line = some (key, rest)) :
    (seek header number line).settled below =
      header.setAll (given? number line below).toList := by
  simp only [seek, given?, h, blockValue?]
  by_cases hopen : opensFold (inlineValue rest)
  · by_cases hparts : foldParts below = []
    · simp [hopen, hparts, Reading.settled, Reading.close, setAll]
    · simp [hopen, hparts, Reading.settled, Reading.close, setAll]
  · simp [hopen, Reading.settled, setAll]

/-- A line that is no key line changes nothing but how far the open fold has run. -/
theorem settled_step_of_no_key (r : Reading) (number : Nat) {line : Text} (below : List Text)
    (h : keyLine? line = none) : (r.step number line).settled below = r.settled (line :: below) := by
  obtain ⟨header, fold⟩ := r
  cases fold with
  | none => simp [Reading.step, seek, h, Reading.settled]
  | some fold =>
    by_cases hin : isIndented line
    · simp [Reading.step, hin, Reading.settled, foldParts, continuesFold]
    · by_cases hblank : Text.isBlankLine line
      · simp [Reading.step, hin, hblank, Reading.settled, foldParts, continuesFold]
      · have hends : continuesFold line = false := by simp [continuesFold, hin, hblank]
        rw [Reading.settled_of_ends _ below hends]
        simp [Reading.step, hin, hblank, seek, h, Reading.settled]

theorem settled_step (r : Reading) (number : Nat) (line : Text) (below : List Text) :
    (r.step number line).settled below =
      (r.settled (line :: below)).setAll (given? number line below).toList := by
  cases h : keyLine? line with
  | none =>
    rw [settled_step_of_no_key r number below h]
    simp [given?, h, setAll]
  | some found =>
    obtain ⟨key, rest⟩ := found
    rw [step_of_keyLine r number h, settled_seek r.close number below h,
      r.settled_of_ends below (continuesFold_of_keyLine h)]

/-- The invariant of a reading. -/
theorem run_close (r : Reading) (number : Nat) (ahead : List Text) :
    (r.run number ahead).close = (r.settled ahead).setAll (givenFields number ahead) := by
  induction ahead generalizing r number with
  | nil => rw [Reading.settled_nil]; rfl
  | cons line below ih =>
    rw [Reading.run, ih, settled_step, givenFields, setAll_append]

theorem read_eq_setAll (first : Nat) (text : Text) :
    read first text = empty.setAll (givenFields first (Text.lines text)) :=
  run_close ⟨empty, none⟩ first (Text.lines text)

/-! ## One key line -/

theorem given?_eq_some_iff {number : Nat} {line : Text} {below : List Text} {g : Text × Field} :
    given? number line below = some g ↔ ∃ rest, keyLine? line = some (g.1, rest) ∧
      blockValue? rest below = some g.2.value ∧ g.2.line = number := by
  simp only [given?, Option.bind_eq_bind, Option.bind_eq_some_iff]
  constructor
  · rintro ⟨⟨key, rest⟩, hkey, value, hvalue, hg⟩
    obtain rfl := Option.some.inj hg
    exact ⟨rest, hkey, hvalue, rfl⟩
  · rintro ⟨rest, hkey, hvalue, rfl⟩
    exact ⟨(g.1, rest), hkey, g.2.value, hvalue, rfl⟩

/-- A field is given by a key line with its value, whose number it keeps. -/
theorem mem_givenFields_iff {number : Nat} {ahead : List Text} {g : Text × Field} :
    g ∈ givenFields number ahead ↔
      ∃ i line rest, ahead[i]? = some line ∧ keyLine? line = some (g.1, rest) ∧
        blockValue? rest (ahead.drop (i + 1)) = some g.2.value ∧ g.2.line = number + i := by
  induction ahead generalizing number with
  | nil => simp [givenFields]
  | cons line below ih =>
    rw [givenFields, List.mem_append, Option.mem_toList, given?_eq_some_iff, ih]
    constructor
    · rintro (⟨rest, hkey, hvalue, hnumber⟩ | ⟨i, line', rest, hline, hkey, hvalue, hnumber⟩)
      · exact ⟨0, line, rest, rfl, hkey, hvalue, hnumber⟩
      · exact ⟨i + 1, line', rest, hline, hkey, hvalue, by omega⟩
    · rintro ⟨i, line', rest, hline, hkey, hvalue, hnumber⟩
      cases i with
      | zero =>
        obtain rfl := Option.some.inj hline
        exact .inl ⟨rest, hkey, hvalue, hnumber⟩
      | succ i => exact .inr ⟨i, line', rest, hline, hkey, hvalue, by omega⟩

/-- Before the field of a key line with a value come those that smaller lines give, behind it those
that larger lines give. -/
theorem exists_givenFields_eq (number : Nat) {ahead : List Text} {j : Nat}
    {line key rest value : Text} (hline : ahead[j]? = some line)
    (hkey : keyLine? line = some (key, rest))
    (hvalue : blockValue? rest (ahead.drop (j + 1)) = some value) :
    ∃ before, givenFields number ahead = before ++
        (key, ⟨value, number + j⟩) :: givenFields (number + j + 1) (ahead.drop (j + 1)) ∧
      ∀ g ∈ before, g.2.line < number + j := by
  induction j generalizing number ahead with
  | zero =>
    obtain ⟨below, rfl⟩ : ∃ below, ahead = line :: below := by
      cases ahead with
      | nil => cases hline
      | cons first below => exact ⟨below, by simpa using hline⟩
    refine ⟨[], ?_, by simp⟩
    rw [List.drop_succ_cons, List.drop_zero] at hvalue
    simp [givenFields, given?, hkey, hvalue]
  | succ j ih =>
    cases ahead with
    | nil => cases hline
    | cons first below =>
      have hnumber : number + 1 + j = number + (j + 1) := by omega
      obtain ⟨before, hfields, hbefore⟩ := ih (number + 1) (by simpa using hline) hvalue
      rw [hnumber] at hfields hbefore
      refine ⟨(given? number first below).toList ++ before, ?_, ?_⟩
      · rw [givenFields, hfields, List.append_assoc]
        rfl
      · intro g hg
        rcases List.mem_append.mp hg with hfirst | hlater
        · obtain ⟨-, -, -, hfirst⟩ := given?_eq_some_iff.mp (Option.mem_toList.mp hfirst)
          omega
        · exact hbefore g hlater

/-- A key line with a value of its own is read: its key has a field, whose line is that one or one
before it, and its value stays unless a later line has the same key. -/
theorem field?_of_keyLine (first : Nat) {text : Text} {j : Nat} {line key rest : Text}
    (hline : (Text.lines text)[j]? = some line) (hkey : keyLine? line = some (key, rest))
    (hvalue : opensFold (inlineValue rest) = false) :
    ∃ field, (read first text).field? key = some field ∧ field.line ≤ first + j ∧
      ((∀ i line' rest', j < i → (Text.lines text)[i]? = some line' →
        keyLine? line' ≠ some (key, rest')) → field.value = inlineValue rest) := by
  have hblock : blockValue? rest ((Text.lines text).drop (j + 1)) = some (inlineValue rest) := by
    simp [blockValue?, hvalue]
  obtain ⟨before, hfields, hbefore⟩ := exists_givenFields_eq first hline hkey hblock
  rw [read_eq_setAll, hfields]
  obtain ⟨field, hfield, hplace, hlast⟩ := exists_field?_setAll before
    (givenFields (first + j + 1) ((Text.lines text).drop (j + 1))) key
    ⟨inlineValue rest, first + j⟩
  refine ⟨field, hfield, ?_, fun hlater => hlast fun g hg hsame => ?_⟩
  · rcases hplace with hhere | ⟨g, hg, hearlier⟩
    · exact hhere.le
    · rw [← hearlier]
      exact (hbefore g hg).le
  · obtain ⟨i, line', rest', hline', hkey', -⟩ := mem_givenFields_iff.mp hg
    rw [List.getElem?_drop] at hline'
    rw [hsame] at hkey'
    exact hlater (j + 1 + i) line' rest' (by omega) hline' hkey'

/-- A header is what its key lines give. A line is a key line when it is a key, a colon and
anything, and it is read as one even inside a fold. Of a key that is given several times the first
place and line count and the last value. -/
theorem read_eq_blocks :
    (∀ line key rest, keyLine? line = some (key, rest) ↔
      key ≠ [] ∧ (∀ c ∈ key, isKeyChar c = true) ∧ line = key ++ ':' :: rest) ∧
    (∀ (r : Reading) number line key rest, keyLine? line = some (key, rest) →
      r.step number line = seek r.close number line) ∧
    ∀ first text, let given := givenFields first (Text.lines text)
      (read first text).keys = (given.map Prod.fst).eraseDups ∧
      ∀ key, (read first text).field? key = do
        let earliest ← given.lookup key
        let latest ← given.reverse.lookup key
        return ⟨latest.value, earliest.line⟩ := by
  refine ⟨fun _ _ _ => keyLine?_eq_some_iff, fun r number _ _ _ h => step_of_keyLine r number h, ?_⟩
  intro first text given
  rw [read_eq_setAll]
  exact ⟨keys_setAll given, field?_setAll given⟩

end PluginLint.Header
