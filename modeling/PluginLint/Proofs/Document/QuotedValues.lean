import PluginLint.Proofs.Document.FoldedValues

/-!
# Values in quotes

A value in quotes is what stands between them, whatever that is and whatever lines come above and
below, with one exception. Whether a fold opens is asked when the quotes are gone, so a quoted `|` or
`>` opens one as a bare indicator does (`opensFold_inlineValue_iff`), and its key gets what is
gathered from the lines below (`quoted_value_kept_iff`).
-/
namespace PluginLint

namespace Header

/-! ## Quotes -/

/-- What a value can be put between. -/
def quotes : List Char := ['"', '\'']

theorem isWrapped_iff {mark : Char} {value : Text} :
    isWrapped mark value = true ↔ ∃ inner, value = mark :: (inner ++ [mark]) := by
  simp only [isWrapped, Bool.and_eq_true, decide_eq_true_eq, beq_iff_eq]
  constructor
  · intro ⟨⟨hlong, hfirst⟩, hlast⟩
    cases value with
    | nil => cases hfirst
    | cons first rest =>
      obtain rfl : first = mark := Option.some.inj hfirst
      have hrest : rest ≠ [] := by
        intro hnil
        simp [hnil] at hlong
      rw [List.getLast?_cons_of_ne_nil hrest] at hlast
      obtain ⟨inner, rfl⟩ := List.getLast?_eq_some_iff.mp hlast
      exact ⟨inner, rfl⟩
  · intro ⟨inner, hvalue⟩
    have hlast : (mark :: (inner ++ [mark])).getLast? = some mark := by
      rw [← List.cons_append, List.getLast?_concat]
    rw [hvalue, hlast]
    simp

/-- One layer of quotes is taken away, and what it holds may look like anything. -/
theorem unquote_wrapped {mark : Char} (hmark : mark ∈ quotes) (inner : Text) :
    unquote (mark :: (inner ++ [mark])) = inner := by
  have hwrapped : isWrapped mark (mark :: (inner ++ [mark])) = true := isWrapped_iff.mpr ⟨inner, rfl⟩
  have hany : (isWrapped '"' (mark :: (inner ++ [mark])) ||
      isWrapped '\'' (mark :: (inner ++ [mark]))) = true := by
    rcases List.mem_pair.mp hmark with rfl | rfl <;> simp [hwrapped]
  rw [unquote, if_pos hany, List.tail_cons, List.dropLast_concat]

theorem unquote_of_no_wrapping {value : Text}
    (h : ∀ mark ∈ quotes, ∀ inner, value ≠ mark :: (inner ++ [mark])) : unquote value = value := by
  have hnone {mark : Char} (hmark : mark ∈ quotes) : isWrapped mark value = false := by
    rw [← Bool.not_eq_true, isWrapped_iff]
    intro ⟨inner, hvalue⟩
    exact h mark hmark inner hvalue
  rw [unquote, hnone (by decide), hnone (by decide)]
  rfl

/-- The values that open a fold when they stand bare. -/
def IsFoldMark (value : Text) : Prop := value = [] ∨ value = ['|'] ∨ value = ['>']

theorem opensFold_iff {value : Text} : opensFold value = true ↔ IsFoldMark value :=
  decide_eq_true_iff

theorem IsFoldMark.unquote_eq {value : Text} (h : IsFoldMark value) : unquote value = value := by
  rcases h with rfl | rfl | rfl <;> decide

/-- A key line opens a fold when what follows its colon is nothing or an indicator, be it bare or in
quotes. -/
theorem opensFold_inlineValue_iff {rest : Text} : opensFold (inlineValue rest) = true ↔
    ∃ value, IsFoldMark value ∧
      (Text.trim rest = value ∨ ∃ mark ∈ quotes, Text.trim rest = mark :: (value ++ [mark])) := by
  rw [opensFold_iff, inlineValue]
  constructor
  · intro hopens
    by_cases hwrapped : ∃ mark ∈ quotes, ∃ inner, Text.trim rest = mark :: (inner ++ [mark])
    · obtain ⟨mark, hmark, inner, hinner⟩ := hwrapped
      rw [hinner, unquote_wrapped hmark] at hopens
      exact ⟨inner, hopens, .inr ⟨mark, hmark, hinner⟩⟩
    · simp only [not_exists, not_and] at hwrapped
      rw [unquote_of_no_wrapping hwrapped] at hopens
      exact ⟨_, hopens, .inl rfl⟩
  · intro ⟨value, hvalue, hrest⟩
    rcases hrest with hbare | ⟨mark, hmark, hquoted⟩
    · rw [hbare, hvalue.unquote_eq]
      exact hvalue
    · rw [hquoted, unquote_wrapped hmark]
      exact hvalue

/-! ## Key lines -/

/-- A key line with a value in quotes. -/
def quotedLine (key : Text) (mark : Char) (value : Text) : Text :=
  key ++ ':' :: ' ' :: mark :: (value ++ [mark])

theorem trim_quoted {mark : Char} (hmark : mark ∈ quotes) (value : Text) :
    Text.trim (' ' :: mark :: (value ++ [mark])) = mark :: (value ++ [mark]) := by
  have hblank : Text.isBlank mark = false := by
    rcases List.mem_pair.mp hmark with rfl | rfl <;> decide
  calc Text.trim (' ' :: mark :: (value ++ [mark]))
      = Text.trim (mark :: (value ++ [mark])) := Text.trim_blank_append (q := [' ']) (by decide) _
    _ = mark :: (value ++ [mark]) := by
        rw [Text.trim_eq_self_iff, ← List.cons_append, List.getLast?_concat]
        refine ⟨fun c hc => ?_, fun c hc => ?_⟩
        · rw [← Option.some.inj hc, hblank]
        · rw [← Option.some.inj hc, hblank]

theorem inlineValue_quoted {mark : Char} (hmark : mark ∈ quotes) (value : Text) :
    inlineValue (' ' :: mark :: (value ++ [mark])) = value := by
  rw [inlineValue, trim_quoted hmark, unquote_wrapped hmark]

/-- What a key line with a value in quotes gives: the value, or what is gathered from the lines below
when the value is an indicator. -/
theorem blockValue?_quoted {mark : Char} (hmark : mark ∈ quotes) {value : Text} (hvalue : value ≠ [])
    (below : List Text) : blockValue? (' ' :: mark :: (value ++ [mark])) below =
      if value = ['|'] ∨ value = ['>'] then joined? (foldParts below) else some value := by
  have hopens : opensFold (inlineValue (' ' :: mark :: (value ++ [mark]))) = true ↔
      value = ['|'] ∨ value = ['>'] := by
    rw [inlineValue_quoted hmark, opensFold_iff, IsFoldMark]
    simp [hvalue]
  split
  · next hindicator => exact blockValue?_of_opensFold (hopens.mpr hindicator) below
  · next hplain => rw [blockValue?, if_neg (mt hopens.mp hplain), inlineValue_quoted hmark]

end Header

namespace Document

open Header

/-- A key with one line has the value that this line gives. -/
theorem value?_of_only {content key rest : Text} {place : Nat} {below : List Text}
    (hline : IsKeyLine content place key rest below)
    (honly : ∀ other rest' below', IsKeyLine content other key rest' below' → other = place) :
    (parse content).header.value? key = blockValue? rest below := by
  cases hvalue : blockValue? rest below with
  | some value =>
    refine value?_of_last hline hvalue fun later rest' below' hlater hother => ?_
    exact absurd (honly later rest' below' hother) (Nat.ne_of_gt hlater)
  | none =>
    rw [value?_eq_none_iff]
    intro other rest' below' hother
    obtain rfl := honly other rest' below' hother
    obtain ⟨line, hdrop, hkey⟩ := hline
    obtain ⟨line', hdrop', hkey'⟩ := hother
    obtain ⟨rfl, rfl⟩ := List.cons.inj (hdrop.symm.trans hdrop')
    rw [hkey, Option.some.injEq, Prod.mk.injEq] at hkey'
    rw [← hkey'.2, hvalue]

/-- A key whose only line in a header has a value in quotes gets that value, whatever stands around
the line, or what is gathered from the lines below if the value is an indicator. So the value is
kept exactly when it is no indicator or the fold below it happens to hold the same. Folds are opened
by nothing and by the indicators, bare or in quotes. -/
theorem quoted_value_kept_iff (content key value : Text) (mark : Char) (place : Nat)
    (hkey : key ≠ [] ∧ ∀ c ∈ key, isKeyChar c = true) (hmark : mark ∈ ['"', '\''])
    (hvalue : value ≠ [])
    (hline : (headerLines content)[place]? = some (quotedLine key mark value))
    (honly : ∀ other line rest, (headerLines content)[other]? = some line →
      keyLine? line = some (key, rest) → other = place) :
    ((parse content).header.value? key =
      if value = ['|'] ∨ value = ['>'] then
        joined? (foldParts ((headerLines content).drop (place + 1)))
      else some value) ∧
    ((parse content).header.value? key = some value ↔ (value ≠ ['|'] ∧ value ≠ ['>']) ∨
      joined? (foldParts ((headerLines content).drop (place + 1))) = some value) ∧
    ∀ rest, opensFold (inlineValue rest) = true ↔ ∃ value, IsFoldMark value ∧
      (Text.trim rest = value ∨ ∃ mark ∈ quotes, Text.trim rest = mark :: (value ++ [mark])) := by
  have hform : keyLine? (quotedLine key mark value) =
      some (key, ' ' :: mark :: (value ++ [mark])) := keyLine?_eq_some_iff.mpr ⟨hkey.1, hkey.2, rfl⟩
  have hgiven : (parse content).header.value? key =
      if value = ['|'] ∨ value = ['>'] then
        joined? (foldParts ((headerLines content).drop (place + 1)))
      else some value := by
    rw [value?_of_only (isKeyLine_iff.mpr ⟨_, hline, hform, rfl⟩), blockValue?_quoted hmark hvalue]
    intro other rest' below' hother
    obtain ⟨line, hat, hother, -⟩ := isKeyLine_iff.mp hother
    exact honly other line rest' hat hother
  refine ⟨hgiven, ?_, fun _ => opensFold_inlineValue_iff⟩
  rw [hgiven]
  split
  · next hindicator =>
    constructor
    · exact .inr
    · intro hkept
      rcases hkept with ⟨hbar, hangle⟩ | hfold
      · exact absurd hindicator (not_or.mpr ⟨hbar, hangle⟩)
      · exact hfold
  · next hplain => exact iff_of_true rfl (.inl (not_or.mp hplain))

/-- A quoted indicator within another layer of quotes, between lines of folds. -/
def wrappedDocument : Text := "---\nfirst: >\n  a\nname: '\"|\"'\n  b\n---\n".toList

theorem wrappedDocument_value_kept :
    (headerLines wrappedDocument)[2]? = some (quotedLine "name".toList '\'' "\"|\"".toList) ∧
    (parse wrappedDocument).header.value? "name".toList = some "\"|\"".toList := by
  have hline : (headerLines wrappedDocument)[2]? =
      some (quotedLine "name".toList '\'' "\"|\"".toList) := by decide
  have hothers : ∀ other < 4, ((headerLines wrappedDocument)[other]?.bind keyLine?).map Prod.fst =
      some "name".toList → other = 2 := by decide
  have hlength : (headerLines wrappedDocument).length = 4 := by decide
  have honly : ∀ other line rest, (headerLines wrappedDocument)[other]? = some line →
      keyLine? line = some ("name".toList, rest) → other = 2 := by
    intro other line rest hat hkey
    refine hothers other (hlength ▸ (List.getElem?_eq_some_iff.mp hat).1) ?_
    rw [hat, Option.bind_some, hkey]
    rfl
  obtain ⟨-, hkept, -⟩ := quoted_value_kept_iff wrappedDocument "name".toList "\"|\"".toList '\'' 2
    ⟨by decide, List.all_eq_true.mp (by decide)⟩ (by decide) (by decide) hline honly
  exact ⟨hline, hkept.mpr (.inl (by decide))⟩

/-- A name that is a bar in quotes. -/
def barNamedDocument : Text := "---\nname: \"|\"\n---\n".toList

/-- The bar opens a fold although it stands in quotes, so the name is lost. -/
theorem quoted_bar_opens_fold :
    headerLines barNamedDocument = [quotedLine "name".toList '"' ['|']] ∧
    (parse barNamedDocument).header.value? "name".toList = none ∧
    ¬ ∀ (content key value : Text) (mark : Char) (place : Nat),
      (key ≠ [] ∧ ∀ c ∈ key, isKeyChar c = true) → mark ∈ ['"', '\''] → value ≠ [] →
      (headerLines content)[place]? = some (quotedLine key mark value) →
      (∀ other line rest, (headerLines content)[other]? = some line →
        keyLine? line = some (key, rest) → other = place) →
      (parse content).header.value? key = some value := by
  have hlines : headerLines barNamedDocument = [quotedLine "name".toList '"' ['|']] := by decide
  have hlost : (parse barNamedDocument).header.value? "name".toList = none := by decide
  refine ⟨hlines, hlost, fun hall => ?_⟩
  have hkept := hall barNamedDocument "name".toList ['|'] '"' 0
    ⟨by decide, List.all_eq_true.mp (by decide)⟩ (by decide) (by decide) (by rw [hlines]; rfl)
    fun other line rest hat _ => by
      rw [hlines] at hat
      have hplace := (List.getElem?_eq_some_iff.mp hat).1
      rw [List.length_singleton] at hplace
      omega
  rw [hlost] at hkept
  cases hkept

end Document

end PluginLint
