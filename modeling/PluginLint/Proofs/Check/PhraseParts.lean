import Mathlib.Computability.Language
import Mathlib.Data.List.Forall2
import Mathlib.Data.List.TakeWhile
import PluginLint.Check.Phrase
import PluginLint.Proofs.Text.LetterCase

/-!
# Phrases by their parts

A phrase is a language: words in any case, blanks, an article or a backtick that may be left out,
one after the other. The steps that look for a phrase never go back, so each takes one part off a
text and has to take the right one (`Reads`): all blanks of a gap, and an article or a backtick
wherever it stands. They do because of what comes next in a phrase. Steps in a row then read the
product of their languages (`Reads.bind`), and a reference to a tool is read as it is meant
(`toolCall_reads`).
-/
namespace PluginLint.Phrase

open Text (IsCase isBlank isWord)

/-! ## Languages -/

/-- A word in any case. -/
def word (letters : Text) : Language Char := {part | List.Forall₂ IsCase letters part}

/-- One of some words in any case. -/
def oneWord (words : List String) : Language Char := {part | ∃ w ∈ words, part ∈ word w.toList}

/-- What is between two words: one blank or more. -/
def blanks : Language Char := {part | part ≠ [] ∧ ∀ c ∈ part, isBlank c = true}

def backtick : Language Char := {['\x60']}

/-- A part that may be left out. -/
def perhaps (part : Language Char) : Language Char := 1 + part

/-- A verb, a tool with or without an article and backticks, and the word `tool`. -/
def toolReference (verbs tools : List String) : Language Char :=
  oneWord verbs * blanks * perhaps (word "the".toList * blanks) *
    perhaps backtick * oneWord tools * perhaps backtick * blanks * word "tool".toList

/-! ## Words -/

/-- Whether a word is written in small ASCII letters. -/
def IsSmall (letters : Text) : Prop := ∀ c ∈ letters, c.isLower = true

instance (letters : Text) : Decidable (IsSmall letters) :=
  List.decidableBAll (fun c : Char => c.isLower = true) letters

/-- Words in small letters of which none is empty or the beginning of another. -/
structure PrefixFree (words : List String) : Prop where
  small : ∀ w ∈ words, IsSmall w.toList
  nonempty : ∀ w ∈ words, w.toList ≠ []
  apart : ∀ v ∈ words, ∀ w ∈ words, v.toList <+: w.toList → v = w

variable {letters part rest s : Text} {c : Char}

theorem mem_word_iff (hsmall : IsSmall letters) :
    part ∈ word letters ↔ part.map Text.foldAscii = letters := by
  change List.Forall₂ IsCase letters part ↔ _
  induction letters generalizing part with
  | nil => simp
  | cons letter letters ih =>
    obtain ⟨hletter, hrest⟩ := List.forall_mem_cons.mp hsmall
    cases part with
    | nil => simp
    | cons c part => simp [ih hrest, Text.foldAscii_eq_iff hletter]

theorem isCase_of_mem_word (h : part ∈ word letters) (hc : c ∈ part) :
    ∃ letter ∈ letters, IsCase letter c := by
  change List.Forall₂ IsCase letters part at h
  induction h with
  | nil => cases hc
  | cons hhead htail ih =>
    rcases List.mem_cons.mp hc with rfl | hc
    · exact ⟨_, List.mem_cons_self, hhead⟩
    · obtain ⟨letter, hletter, hcase⟩ := ih hc
      exact ⟨letter, List.mem_cons_of_mem _ hletter, hcase⟩

theorem isWord_of_mem_word (hsmall : IsSmall letters) (h : part ∈ word letters)
    (hc : c ∈ part) : isWord c = true := by
  obtain ⟨letter, hletter, hcase⟩ := isCase_of_mem_word h hc
  exact Text.isWord_of_isCase (hsmall letter hletter) hcase

theorem ne_nil_of_mem_word (hletters : letters ≠ []) (h : part ∈ word letters) : part ≠ [] := by
  rw [← List.length_pos_iff] at hletters ⊢
  rwa [← List.Forall₂.length_eq h]

/-- The words at the start of one text are beginnings of one another. -/
theorem prefix_or_prefix_of_mem_word {other otherLetters otherRest : Text}
    (hsmall : IsSmall letters) (hother : IsSmall otherLetters)
    (h : part ∈ word letters) (h' : other ∈ word otherLetters)
    (hs : part ++ rest = other ++ otherRest) :
    letters <+: otherLetters ∨ otherLetters <+: letters := by
  have hfold := congrArg (List.map Text.foldAscii) hs
  rw [List.map_append, List.map_append, (mem_word_iff hsmall).mp h,
    (mem_word_iff hother).mp h'] at hfold
  exact List.prefix_or_prefix_of_prefix ⟨_, rfl⟩ ⟨_, hfold.symm⟩

/-- Of words that are set apart only one stands at the start of a text. -/
theorem PrefixFree.eq_of_mem_word {words : List String} (hwords : PrefixFree words) {v w : String}
    (hv : v ∈ words) (hw : w ∈ words) {other otherRest : Text} (h : part ∈ word v.toList)
    (h' : other ∈ word w.toList) (hs : part ++ rest = other ++ otherRest) : v = w := by
  have hle := prefix_or_prefix_of_mem_word (hwords.small v hv) (hwords.small w hw) h h' hs
  cases hle with
  | inl hle => exact hwords.apart v hv w hw hle
  | inr hle => exact (hwords.apart w hw v hv hle).symm

/-! ## Steps -/

/-- A step takes a part that belongs to a language off a text, and in front of the texts that may
come next it takes every such part. -/
structure Reads (step : Text → Option Text) (language : Language Char) (next : Text → Prop) :
    Prop where
  sound : ∀ {s rest}, step s = some rest → ∃ part ∈ language, s = part ++ rest
  complete : ∀ {part rest}, part ∈ language → next rest → step (part ++ rest) = some rest

/-- A text with no blank at its start. -/
def StartsNoBlank (s : Text) : Prop := ∀ c ∈ s.head?, isBlank c = false

/-- A step that reads a language whatever comes next takes off just the parts that belong to it. -/
theorem Reads.iff {step : Text → Option Text} {language : Language Char}
    (h : Reads step language fun _ => True) :
    step s = some rest ↔ ∃ part ∈ language, s = part ++ rest := by
  constructor
  · exact h.sound
  · intro ⟨part, hpart, hs⟩
    rw [hs]
    exact h.complete hpart trivial

/-- Whether every text that starts with a part of a language is of some kind. -/
def Opens (language : Language Char) (kind : Text → Prop) : Prop :=
  ∀ part ∈ language, ∀ rest, kind (part ++ rest)

section Opens

variable {l m : Language Char} {kind : Text → Prop}

theorem opens_trivial (l : Language Char) : Opens l fun _ => True := fun _ _ _ => trivial

theorem Opens.mul (h : Opens l kind) (m : Language Char) : Opens (l * m) kind := by
  intro part hpart rest
  obtain ⟨a, ha, b, -, rfl⟩ := Language.mem_mul.mp hpart
  rw [List.append_assoc]
  exact h a ha (b ++ rest)

theorem Opens.perhaps_mul (h : Opens l kind) (h' : Opens m kind) : Opens (perhaps l * m) kind := by
  intro part hpart rest
  obtain ⟨a, ha, b, hb, rfl⟩ := Language.mem_mul.mp hpart
  rcases ha with hnothing | ha
  · obtain rfl : a = [] := hnothing
    exact h' b hb rest
  · rw [List.append_assoc]
    exact h a ha (b ++ rest)

theorem opens_oneWord {words : List String} (h : ∀ w ∈ words, Opens (word w.toList) kind) :
    Opens (oneWord words) kind := by
  intro part ⟨w, hw, hpart⟩
  exact h w hw part hpart

end Opens

/-- Two steps in a row read the product of their languages, when the parts of the second may come
next after the first. -/
theorem Reads.bind {first second : Text → Option Text} {l m : Language Char}
    {next next' : Text → Prop} (h : Reads first l next) (h' : Reads second m next')
    (hnext : Opens m next) : Reads (fun s => (first s).bind second) (l * m) next' where
  sound {s rest} hstep := by
    obtain ⟨between, hfirst, hsecond⟩ := Option.bind_eq_some_iff.mp hstep
    obtain ⟨a, ha, rfl⟩ := h.sound hfirst
    obtain ⟨b, hb, rfl⟩ := h'.sound hsecond
    exact ⟨a ++ b, Language.append_mem_mul ha hb, (List.append_assoc a b rest).symm⟩
  complete {part rest} hpart hrest := by
    obtain ⟨a, ha, b, hb, rfl⟩ := Language.mem_mul.mp hpart
    rw [List.append_assoc, h.complete ha (hnext b hb rest)]
    exact h'.complete hb hrest

/-- A step that may be left out reads a part or nothing, when the part does not stand at the start
of what may come next. -/
theorem Reads.perhaps {step : Text → Option Text} {language : Language Char} {next : Text → Prop}
    (h : Reads step language next) :
    Reads (fun s => some ((step s).getD s)) (perhaps language)
      fun rest => next rest ∧ step rest = none where
  sound {s rest} hstep := by
    cases hread : step s with
    | none =>
      rw [hread] at hstep
      exact ⟨[], .inl rfl, Option.some.inj hstep⟩
    | some found =>
      rw [hread] at hstep
      obtain rfl : found = rest := Option.some.inj hstep
      obtain ⟨part, hpart, hs⟩ := h.sound hread
      exact ⟨part, .inr hpart, hs⟩
  complete {part rest} hpart hrest := by
    rcases hpart with hnothing | hpart
    · obtain rfl : part = [] := hnothing
      rw [List.nil_append, hrest.2]
      rfl
    · rw [h.complete hpart hrest.1]
      rfl

/-! ## The steps of a phrase -/

theorem literal_eq_some_iff : literal letters s = some rest ↔
    ∃ part, part.map Text.foldAscii = letters ∧ s = part ++ rest := by
  induction letters generalizing s with
  | nil => simp [literal, eq_comm]
  | cons letter letters ih =>
    cases s with
    | nil =>
      refine iff_of_false nofun ?_
      intro ⟨part, hpart, hs⟩
      rw [(List.append_eq_nil_iff.mp hs.symm).1] at hpart
      cases hpart
    | cons c s =>
      rw [literal, Option.ite_none_right_eq_some, ih]
      constructor
      · intro ⟨hc, part, hpart, hs⟩
        exact ⟨c :: part, by rw [List.map_cons, hc, hpart], by rw [hs]; rfl⟩
      · intro ⟨part, hpart, hs⟩
        obtain ⟨d, more, rfl, hd, hmore⟩ := List.map_eq_cons_iff.mp hpart
        obtain ⟨rfl, hrest⟩ := List.cons.inj hs
        exact ⟨hd, more, hmore, hrest⟩

theorem literal_reads (hsmall : IsSmall letters) :
    Reads (literal letters) (word letters) fun _ => True where
  sound {s rest} hstep := by
    obtain ⟨part, hpart, hs⟩ := literal_eq_some_iff.mp hstep
    exact ⟨part, (mem_word_iff hsmall).mpr hpart, hs⟩
  complete {part rest} hpart _ :=
    literal_eq_some_iff.mpr ⟨part, (mem_word_iff hsmall).mp hpart, rfl⟩

/-- Of words that stand apart the one that is there is found, wherever it is in the list. -/
theorem oneOf_reads {words : List String} (hwords : PrefixFree words) :
    Reads (oneOf words) (oneWord words) fun _ => True where
  sound {s rest} hstep := by
    obtain ⟨w, hw, hliteral⟩ := List.exists_of_findSome?_eq_some hstep
    obtain ⟨part, hpart, hs⟩ := (literal_reads (hwords.small w hw)).sound hliteral
    exact ⟨part, ⟨w, hw, hpart⟩, hs⟩
  complete {part rest} hpart _ := by
    obtain ⟨w, hw, hpart⟩ := hpart
    have hsmall := hwords.small w hw
    have hliteral : literal w.toList (part ++ rest) = some rest :=
      (literal_reads hsmall).complete hpart trivial
    have hfound : (oneOf words (part ++ rest)).isSome = true :=
      List.findSome?_isSome_iff.mpr ⟨w, hw, by rw [hliteral]; rfl⟩
    obtain ⟨found, hfound⟩ := Option.isSome_iff_exists.mp hfound
    obtain ⟨v, hv, hother⟩ := List.exists_of_findSome?_eq_some hfound
    obtain ⟨other, hmem, hs⟩ := (literal_reads (hwords.small v hv)).sound hother
    have hsame : v = w := hwords.eq_of_mem_word hv hw hmem hpart hs.symm
    rw [hsame, hliteral] at hother
    rw [hfound, hother]

theorem gap_reads : Reads gap blanks StartsNoBlank where
  sound {s rest} hstep := by
    cases s with
    | nil => cases hstep
    | cons c s =>
      obtain ⟨hc, hrest⟩ := Option.ite_none_right_eq_some.mp hstep
      refine ⟨c :: s.takeWhile isBlank, ⟨List.cons_ne_nil _ _, fun d hd => ?_⟩, ?_⟩
      · rcases List.mem_cons.mp hd with rfl | hd
        · exact hc
        · exact List.mem_takeWhile_imp hd
      · rw [← Option.some.inj hrest, List.cons_append, Text.trimStart,
          List.takeWhile_append_dropWhile]
  complete {part rest} hpart hrest := by
    obtain ⟨hne, hblank⟩ := hpart
    cases part with
    | nil => exact absurd rfl hne
    | cons c part =>
      obtain ⟨hc, hpart⟩ := List.forall_mem_cons.mp hblank
      have htrim : Text.trimStart (part ++ rest) = rest := by
        rw [Text.trimStart, List.dropWhile_append_of_pos hpart]
        cases rest with
        | nil => rfl
        | cons d rest => rw [List.dropWhile_cons_of_neg (by simp [hrest d rfl])]
      rw [List.cons_append, gap, if_pos hc, htrim]

/-- The step behind `skipTick`. -/
def tick : Text → Option Text
  | '\x60' :: rest => some rest
  | _ => none

theorem skipTick_eq (s : Text) : skipTick s = (tick s).getD s := by
  by_cases h : ∃ rest, s = '\x60' :: rest
  · obtain ⟨rest, rfl⟩ := h
    rfl
  · have hskip : skipTick s = s := by
      unfold skipTick
      split
      · exact absurd ⟨_, rfl⟩ h
      · rfl
    have hnone : tick s = none := by
      unfold tick
      split
      · exact absurd ⟨_, rfl⟩ h
      · rfl
    rw [hskip, hnone]
    rfl

theorem tick_reads : Reads tick backtick fun _ => True where
  sound {s rest} hstep := by
    unfold tick at hstep
    split at hstep
    · exact ⟨_, rfl, by rw [Option.some.inj hstep]; rfl⟩
    · cases hstep
  complete {part rest} hpart _ := by
    obtain rfl : part = ['\x60'] := hpart
    rfl

/-- The step behind `skipArticle`. -/
def article (s : Text) : Option Text := (literal "the".toList s).bind gap

theorem article_reads : Reads article (word "the".toList * blanks) StartsNoBlank :=
  (literal_reads (by decide)).bind gap_reads (opens_trivial _)

/-! ## What comes next -/

/-- A word starts with a letter. -/
theorem exists_letter_of_mem_word (hsmall : IsSmall letters) (hne : letters ≠ [])
    (h : part ∈ word letters) :
    ∃ letter c more, letter.isLower = true ∧ IsCase letter c ∧ part = c :: more := by
  cases part with
  | nil => exact absurd rfl (ne_nil_of_mem_word hne h)
  | cons c more =>
    obtain ⟨letter, hletter, hcase⟩ := isCase_of_mem_word h List.mem_cons_self
    exact ⟨letter, c, more, hsmall letter hletter, hcase, rfl⟩

theorem opens_word_startsNoBlank (hsmall : IsSmall letters) (hne : letters ≠ []) :
    Opens (word letters) StartsNoBlank := by
  intro part hpart rest
  obtain ⟨letter, c, more, hletter, hcase, rfl⟩ := exists_letter_of_mem_word hsmall hne hpart
  intro d hd
  obtain rfl : c = d := Option.some.inj hd
  exact Text.isBlank_of_isCase hletter hcase

theorem tick_eq_none_of_ne {c : Char} (hc : c ≠ '\x60') (rest : Text) : tick (c :: rest) = none := by
  unfold tick
  split
  · next hs => exact absurd (List.cons.inj hs).1 hc
  · rfl

theorem opens_word_tick (hsmall : IsSmall letters) (hne : letters ≠ []) :
    Opens (word letters) (tick · = none) := by
  intro part hpart rest
  obtain ⟨letter, c, more, hletter, hcase, rfl⟩ := exists_letter_of_mem_word hsmall hne hpart
  apply tick_eq_none_of_ne
  rintro rfl
  exact absurd (Text.isWord_of_isCase hletter hcase) (by decide)

theorem opens_blanks_tick : Opens blanks (tick · = none) := by
  intro part ⟨hne, hblank⟩ rest
  cases part with
  | nil => exact absurd rfl hne
  | cons c part =>
    apply tick_eq_none_of_ne
    rintro rfl
    exact absurd (hblank _ List.mem_cons_self) (by decide)

/-- A word does not stand where one does that is set apart from it. -/
theorem opens_oneWord_literal {w : String} {words : List String} (hwords : PrefixFree (w :: words))
    (hw : w ∉ words) : Opens (oneWord words) (literal w.toList · = none) := by
  intro part ⟨v, hv, hpart⟩ rest
  rw [Option.eq_none_iff_forall_ne_some]
  intro found hfound
  obtain ⟨other, hother, hs⟩ :=
    (literal_reads (hwords.small w List.mem_cons_self)).sound hfound
  have hsame : v = w := hwords.eq_of_mem_word (List.mem_cons_of_mem w hv) List.mem_cons_self
    hpart hother hs
  exact hw (hsame ▸ hv)

/-! ## References to tools -/

theorem toolCall_eq (verbs tools : List String) : toolCall verbs tools = fun s =>
    (((oneOf verbs s).bind gap).bind fun s =>
      (some ((article s).getD s)).bind fun s => (some ((tick s).getD s)).bind fun s =>
        (oneOf tools s).bind fun s => (some ((tick s).getD s)).bind fun s =>
          (gap s).bind (literal "tool".toList)) := by
  funext s
  simp only [toolCall, skipTick_eq, skipArticle, article, Option.bind_some]
  rfl

theorem PrefixFree.tail {w : String} {words : List String} (h : PrefixFree (w :: words)) :
    PrefixFree words where
  small v hv := h.small v (List.mem_cons_of_mem w hv)
  nonempty v hv := h.nonempty v (List.mem_cons_of_mem w hv)
  apart u hu v hv := h.apart u (List.mem_cons_of_mem w hu) v (List.mem_cons_of_mem w hv)

/-- A tool opens a text with a backtick or with its name. -/
theorem opens_tool {tools : List String} {kind : Text → Prop}
    (htick : ∀ rest, kind ('\x60' :: rest)) (hname : Opens (oneWord tools) kind)
    (m : Language Char) : Opens (perhaps backtick * (oneWord tools * m)) kind := by
  have hquoted : Opens backtick kind := by
    intro part hpart rest
    obtain rfl : part = ['\x60'] := hpart
    exact htick rest
  exact hquoted.perhaps_mul (hname.mul m)

/-- No article stands where a tool does. -/
theorem opens_tool_article {tools : List String} (htools : PrefixFree ("the" :: tools))
    (hthe : "the" ∉ tools) (m : Language Char) :
    Opens (perhaps backtick * (oneWord tools * m)) (article · = none) := by
  apply opens_tool
  · intro rest
    rfl
  · intro part hpart rest
    rw [article, opens_oneWord_literal htools hthe part hpart rest]
    rfl

theorem opens_tool_startsNoBlank {tools : List String} (htools : PrefixFree tools)
    (m : Language Char) : Opens (perhaps backtick * (oneWord tools * m)) StartsNoBlank := by
  apply opens_tool
  · intro rest c hc
    obtain rfl : '\x60' = c := Option.some.inj hc
    decide
  · exact opens_oneWord fun w hw =>
      opens_word_startsNoBlank (htools.small w hw) (htools.nonempty w hw)

/-- The steps of a reference read it as it is meant: none of the tools starts like the article, and
every other part is told from what follows it by its first character. -/
theorem toolCall_reads {verbs tools : List String} (hverbs : PrefixFree verbs)
    (htools : PrefixFree ("the" :: tools)) (hthe : "the" ∉ tools) :
    Reads (toolCall verbs tools) (toolReference verbs tools) fun _ => True := by
  have hsmall : IsSmall "tool".toList := by decide
  -- from the last part to the first, each in front of those that are already read
  have hlast := gap_reads.bind (literal_reads hsmall)
    (opens_word_startsNoBlank hsmall (by decide))
  have hclosed := tick_reads.perhaps.bind hlast fun part hpart rest =>
    ⟨trivial, opens_blanks_tick.mul _ part hpart rest⟩
  have hnamed := (oneOf_reads htools.tail).bind hclosed (opens_trivial _)
  have hopened := tick_reads.perhaps.bind hnamed fun part hpart rest =>
    ⟨trivial, (opens_oneWord fun w hw => opens_word_tick (htools.tail.small w hw)
      (htools.tail.nonempty w hw)).mul _ part hpart rest⟩
  have hblank := opens_tool_startsNoBlank htools.tail
    (perhaps backtick * (blanks * word "tool".toList))
  have hshown := article_reads.perhaps.bind hopened fun part hpart rest =>
    ⟨hblank part hpart rest, opens_tool_article htools hthe _ part hpart rest⟩
  have hverb := (oneOf_reads hverbs).bind gap_reads (opens_trivial _)
  have hwhole := hverb.bind hshown (Opens.perhaps_mul
    ((opens_word_startsNoBlank (by decide) (by decide)).mul _) hblank)
  rw [toolCall_eq]
  simpa only [toolReference, mul_assoc] using hwhole

end PluginLint.Phrase
