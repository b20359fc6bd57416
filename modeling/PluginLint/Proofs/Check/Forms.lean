import Mathlib.Data.List.Basic
import PluginLint.Check.Naming
import PluginLint.Check.Phrase

/-!
# Forms by their parts

What it takes to be a name in kebab case, the name of an agent, a command path or a line that
addresses the reader, said by the parts that such a text is put together from. The tests that run
look at a text character by character, and each agrees with its form.
-/
namespace PluginLint

/-! ## Names in kebab case -/

/-- Small letters, digits and hyphens, with no hyphen at either end and no two of them in a row. -/
structure IsKebab (name : Text) : Prop where
  ne_nil : name ≠ []
  chars : ∀ c ∈ name, isKebabChar c = true ∨ c = '-'
  start : name.head? ≠ some '-'
  finish : name.getLast? ≠ some '-'
  apart : ¬ "--".toList <:+: name

theorem two_hyphens_infix_cons {c : Char} {rest : Text} :
    "--".toList <:+: c :: rest ↔ (c = '-' ∧ rest.head? = some '-') ∨ "--".toList <:+: rest := by
  have hmark : "--".toList = ['-', '-'] := rfl
  rw [List.infix_cons_iff, hmark]
  refine or_congr_left ?_
  cases rest with
  | nil => simp
  | cons d rest => simp [List.cons_prefix_cons, eq_comm]

/-- From some place of a name on: a hyphen may stand there, or the name may end there, only when a
run of letters and digits comes up to it. -/
theorem isKebabFrom_iff {inRun : Bool} {name : Text} : isKebabFrom inRun name = true ↔
    (name = [] ∨ name.head? = some '-' → inRun = true) ∧
      (∀ c ∈ name, isKebabChar c = true ∨ c = '-') ∧ name.getLast? ≠ some '-' ∧
      ¬ "--".toList <:+: name := by
  induction name generalizing inRun with
  | nil => simp [isKebabFrom]
  | cons c rest ih =>
    rw [isKebabFrom, two_hyphens_infix_cons, List.forall_mem_cons]
    by_cases hhyphen : c = '-'
    · subst hhyphen
      have hchar : isKebabChar '-' = false := by decide
      have hlast : ('-' :: rest).getLast? ≠ some '-' ↔ rest ≠ [] ∧ rest.getLast? ≠ some '-' := by
        cases rest <;> simp
      rw [hchar, hlast]
      simp only [Bool.false_eq_true, if_false, beq_self_eq_true, Bool.true_and, Bool.and_eq_true,
        ih]
      simp
      tauto
    · have hlast : (c :: rest).getLast? ≠ some '-' ↔ rest.getLast? ≠ some '-' := by
        cases rest <;> simp [hhyphen]
      rw [hlast]
      by_cases hc : isKebabChar c = true
      · simp [hc, hhyphen, ih]
      · simp [hc, hhyphen]

theorem isKebab_iff {name : Text} : isKebab name = true ↔ IsKebab name := by
  rw [isKebab, isKebabFrom_iff]
  constructor
  · rintro ⟨hstart, hchars, hfinish, hapart⟩
    exact ⟨fun h => Bool.noConfusion (hstart (.inl h)), hchars,
      fun h => Bool.noConfusion (hstart (.inr h)), hfinish, hapart⟩
  · rintro ⟨hne, hchars, hstart, hfinish, hapart⟩
    exact ⟨fun h => (h.elim hne hstart).elim, hchars, hfinish, hapart⟩

instance (name : Text) : Decidable (IsKebab name) := decidable_of_iff _ isKebab_iff

/-! ## Names of agents -/

/-- Three to fifty small letters, digits and hyphens, with no hyphen at either end. -/
def IsAgentName (name : Text) : Prop :=
  ∃ (first last : Char) (middle : Text), name = first :: (middle ++ [last]) ∧
    isKebabChar first = true ∧ isKebabChar last = true ∧
    (∀ c ∈ middle, isKebabChar c = true ∨ c = '-') ∧ 1 ≤ middle.length ∧ middle.length ≤ 48

theorem isAgentName_iff {name : Text} : isAgentName name = true ↔ IsAgentName name := by
  simp only [isAgentName, Bool.and_eq_true, decide_eq_true_eq, List.all_eq_true, Bool.or_eq_true,
    beq_iff_eq]
  constructor
  · rintro ⟨⟨⟨⟨hlow, hhigh⟩, hall⟩, hfirst⟩, hlast⟩
    cases name with
    | nil => simp at hlow
    | cons first rest =>
      have hrest : rest ≠ [] := by
        rintro rfl
        simp at hlow
      obtain ⟨middle, last, rfl⟩ := rest.eq_nil_or_concat'.resolve_left hrest
      have hend : (first :: (middle ++ [last])).getLast? = some last := by
        rw [← List.cons_append, List.getLast?_concat]
      rw [hend] at hlast
      simp only [List.length_cons, List.length_append, List.length_nil] at hlow hhigh
      exact ⟨first, last, middle, rfl, hfirst, hlast,
        fun c hc => hall c (List.mem_cons_of_mem _ (List.mem_append_left _ hc)), by omega, by omega⟩
  · rintro ⟨first, last, middle, rfl, hfirst, hlast, hmiddle, hlow, hhigh⟩
    have hend : (first :: (middle ++ [last])).getLast? = some last := by
      rw [← List.cons_append, List.getLast?_concat]
    rw [hend]
    simp only [List.length_cons, List.length_append, List.length_nil]
    refine ⟨⟨⟨⟨by omega, by omega⟩, fun c hc => ?_⟩, hfirst⟩, hlast⟩
    simp only [List.mem_cons, List.mem_append, List.not_mem_nil, or_false] at hc
    rcases hc with rfl | hc | rfl
    · exact .inl hfirst
    · exact hmiddle c hc
    · exact .inl hlast

instance (name : Text) : Decidable (IsAgentName name) := decidable_of_iff _ isAgentName_iff

/-- An end that is a letter, a digit or a hyphen is none of the first two when it is a hyphen. -/
theorem any_isKebabChar_iff {c : Option Char} (hsome : c ≠ none)
    (hchar : ∀ d ∈ c, isKebabChar d = true ∨ d = '-') :
    c.any isKebabChar = true ↔ c ≠ some '-' := by
  cases c with
  | none => exact absurd rfl hsome
  | some d =>
    have hhyphen : isKebabChar '-' = false := by decide
    rcases hchar d rfl with hd | rfl
    · have hne : d ≠ '-' := by
        rintro rfl
        rw [hhyphen] at hd
        cases hd
      simp [hd, hne]
    · simp [hhyphen]

theorem isAgentName_iff_ends {name : Text} : IsAgentName name ↔
    3 ≤ name.length ∧ name.length ≤ 50 ∧ (∀ c ∈ name, isKebabChar c = true ∨ c = '-') ∧
      name.head? ≠ some '-' ∧ name.getLast? ≠ some '-' := by
  simp only [← isAgentName_iff, isAgentName, Bool.and_eq_true, decide_eq_true_eq,
    List.all_eq_true, Bool.or_eq_true, beq_iff_eq, and_assoc]
  refine and_congr_right fun hlow => and_congr_right fun _ => and_congr_right fun hchars => ?_
  have hne : name ≠ [] := by
    rintro rfl
    simp at hlow
  exact and_congr
    (any_isKebabChar_iff (by simpa using hne) fun d hd => hchars d (List.mem_of_mem_head? hd))
    (any_isKebabChar_iff (by simpa using hne) fun d hd => hchars d (List.mem_of_getLast? hd))

/-- Of the names that an agent may have those in kebab case are the ones in which no two hyphens
come in a row. -/
theorem isAgentName_and_apart_iff {name : Text} :
    (IsAgentName name ∧ ¬ "--".toList <:+: name) ↔
      3 ≤ name.length ∧ name.length ≤ 50 ∧ isKebab name = true := by
  rw [isAgentName_iff_ends, isKebab_iff]
  constructor
  · rintro ⟨⟨hlow, hhigh, hchars, hstart, hfinish⟩, hapart⟩
    have hne : name ≠ [] := by
      rintro rfl
      simp at hlow
    exact ⟨hlow, hhigh, hne, hchars, hstart, hfinish, hapart⟩
  · rintro ⟨hlow, hhigh, h⟩
    exact ⟨⟨hlow, hhigh, h.chars, h.start, h.finish⟩, h.apart⟩

/-! ## Command paths -/

/-- A dot and a slash, anything on one line, and a slash. -/
def IsCommandPath (path : Text) : Prop :=
  ∃ inner : Text, path = "./".toList ++ inner ++ ['/'] ∧ '\n' ∉ inner

theorem isCommandPath_iff {path : Text} : isCommandPath path = true ↔ IsCommandPath path := by
  constructor
  · intro h
    unfold isCommandPath at h
    split at h
    · next rest =>
      rw [Bool.and_eq_true, beq_iff_eq, decide_eq_true_eq] at h
      obtain ⟨inner, rfl⟩ := List.getLast?_eq_some_iff.mp h.1
      exact ⟨inner, rfl, fun hc => h.2 (List.mem_append_left _ hc)⟩
    · cases h
  · rintro ⟨inner, rfl, hinner⟩
    have hpath : "./".toList ++ inner ++ ['/'] = '.' :: '/' :: (inner ++ ['/']) := rfl
    rw [hpath, isCommandPath, Bool.and_eq_true, beq_iff_eq, decide_eq_true_eq,
      List.getLast?_concat, List.mem_append]
    simp [hinner]

instance (path : Text) : Decidable (IsCommandPath path) := decidable_of_iff _ isCommandPath_iff

/-! ## Lines that address the reader -/

namespace Phrase

/-- A text with a character that belongs to no word at its end, or with none at all. -/
def EndsWord (before : Text) : Prop := ∀ c ∈ before.getLast?, Text.isWord c = false

/-- A text with a character that belongs to no word at its start, or with none at all. -/
def StartsNoWord (after : Text) : Prop := ∀ c ∈ after.head?, Text.isWord c = false

/-- A phrase stands in a line when the line can be cut in front of it where no word runs on. -/
theorem standsFrom_iff {phrase : Text → Bool} (hempty : phrase [] = false) {inWord : Bool}
    {line : Text} : standsFrom phrase inWord line = true ↔
      ∃ before rest, line = before ++ rest ∧ phrase rest = true ∧
        (before = [] → inWord = false) ∧ EndsWord before := by
  induction line generalizing inWord with
  | nil =>
    simp only [standsFrom, Bool.false_eq_true, false_iff]
    rintro ⟨before, rest, hline, hphrase, -⟩
    obtain ⟨rfl, rfl⟩ := List.append_eq_nil_iff.mp hline.symm
    rw [hempty] at hphrase
    cases hphrase
  | cons c line ih =>
    rw [standsFrom, Bool.or_eq_true, Bool.and_eq_true, Bool.not_eq_true', ih]
    constructor
    · rintro (⟨hstart, hphrase⟩ | ⟨before, rest, rfl, hphrase, hstart, hends⟩)
      · exact ⟨[], c :: line, rfl, hphrase, fun _ => hstart, by simp [EndsWord]⟩
      · refine ⟨c :: before, rest, rfl, hphrase, by simp, ?_⟩
        cases before with
        | nil => simpa [EndsWord] using hstart
        | cons d before => simpa [EndsWord, List.getLast?_cons_cons] using hends
    · rintro ⟨before, rest, hline, hphrase, hstart, hends⟩
      cases before with
      | nil =>
        obtain rfl : c :: line = rest := hline
        exact .inl ⟨hstart rfl, hphrase⟩
      | cons d before =>
        obtain ⟨rfl, rfl⟩ := List.cons_eq_cons.mp hline
        refine .inr ⟨before, rest, rfl, hphrase, ?_, ?_⟩
        · rintro rfl
          simpa [EndsWord] using hends
        · cases before with
          | nil => simp [EndsWord]
          | cons e before => simpa [EndsWord, List.getLast?_cons_cons] using hends

theorem atWordEnd_iff {after : Text} : atWordEnd after = true ↔ StartsNoWord after := by
  cases after with
  | nil => simp [atWordEnd, StartsNoWord]
  | cons c after => simp [atWordEnd, StartsNoWord]

theorem secondPerson_iff {s : Text} : secondPerson s = true ↔
    ∃ order ∈ orders, ∃ after, s = "You ".toList ++ order ++ after ∧ StartsNoWord after := by
  simp only [secondPerson, List.any_eq_true, Bool.and_eq_true, List.isPrefixOf_iff_prefix,
    atWordEnd_iff]
  refine exists_congr fun order => and_congr_right fun _ => ?_
  constructor
  · rintro ⟨⟨after, rfl⟩, hafter⟩
    rw [List.drop_left] at hafter
    exact ⟨after, rfl, hafter⟩
  · rintro ⟨after, rfl, hafter⟩
    rw [List.drop_left]
    exact ⟨List.prefix_append _ _, hafter⟩

/-- A line that tells the reader in the second person what to do, the words set off on both sides. -/
def AddressesReader (line : Text) : Prop :=
  ∃ before order after, order ∈ ["should".toList, "must".toList, "can".toList, "need to".toList] ∧
    line = before ++ ("You ".toList ++ order ++ after) ∧ EndsWord before ∧ StartsNoWord after

theorem stands_secondPerson_iff {line : Text} :
    stands secondPerson line = true ↔ AddressesReader line := by
  rw [stands, standsFrom_iff rfl]
  constructor
  · rintro ⟨before, rest, rfl, hphrase, -, hends⟩
    obtain ⟨order, horder, after, rfl, hafter⟩ := secondPerson_iff.mp hphrase
    exact ⟨before, order, after, horder, rfl, hends, hafter⟩
  · rintro ⟨before, order, after, horder, rfl, hends, hafter⟩
    exact ⟨before, _, rfl, secondPerson_iff.mpr ⟨order, horder, after, rfl, hafter⟩, fun _ => rfl,
      hends⟩

instance (line : Text) : Decidable (AddressesReader line) :=
  decidable_of_iff _ stands_secondPerson_iff

end Phrase
end PluginLint
