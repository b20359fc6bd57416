import Mathlib.Data.List.TakeWhile
import PluginLint.Json.Parser
import PluginLint.Json.Printer

/-!
# Numbers in JSON

A number is read one part after the other: its digits, what follows the point and the exponent. Each
part takes number characters off the front and looks at no more than the character behind them, so a
text that is a number by itself is read as the same number in front of anything that does not go on
with it (`readNumber_readsApart`). The digits of a whole number are read back as that number
(`readNumber_toDigits`).
-/
namespace PluginLint.Json

/-! ## What a reader of numbers takes -/

/-- The characters that numbers are written with. -/
def IsNumberChar (c : Char) : Prop := c.isDigit = true ∨ c ∈ ['.', 'e', 'E', '+', '-']

/-- Whether a text does not go on with the digits in front of it. -/
def StopsDigits (rest : Text) : Prop := ∀ c ∈ rest.head?, c.isDigit = false

/-- Whether a text does not go on with the number in front of it. -/
structure StopsNumber (rest : Text) : Prop where
  digits : StopsDigits rest
  others : ∀ c ∈ rest.head?, c ∉ ['.', 'e', 'E']

/-- Whether a reader takes number characters off a text and takes them as the same number in front
of any other text that does not go on with it. -/
def ReadsApart (read : Text → Except Failure (Number × Text)) : Prop :=
  ∀ {s x tail}, read s = .ok (x, tail) → ∃ body, s = body ++ tail ∧ (∀ c ∈ body, IsNumberChar c) ∧
    ∀ rest, StopsNumber rest → read (body ++ rest) = .ok (x, rest)

variable {s tail rest : Text} {c : Char} {negative : Bool}

theorem stopsDigits_nil : StopsDigits [] := fun _ h => nomatch h

theorem stopsNumber_nil : StopsNumber [] := ⟨stopsDigits_nil, fun _ h => nomatch h⟩

theorem stopsDigits_cons_iff : StopsDigits (c :: s) ↔ c.isDigit = false := by
  simp [StopsDigits]

theorem stopsNumber_cons (hdigit : c.isDigit = false) (hother : c ∉ ['.', 'e', 'E']) (s : Text) :
    StopsNumber (c :: s) := by
  refine ⟨stopsDigits_cons_iff.mpr hdigit, ?_⟩
  rintro d ⟨⟩
  exact hother

/-- What follows some text stops digits after a part of the text when the text did. -/
theorem stopsDigits_append {body : Text} (h : StopsDigits (body ++ tail))
    (hrest : StopsDigits rest) : StopsDigits (body ++ rest) := by
  cases body with
  | nil => exact hrest
  | cons c body => exact h

theorem stopsDigits_dropWhile (s : Text) : StopsDigits (s.dropWhile Char.isDigit) := by
  intro c hc
  have hhead := List.head?_dropWhile_not Char.isDigit s
  rw [Option.mem_def.mp hc] at hhead
  simpa using hhead

theorem takeWhile_isDigit_append {body : Text} (hbody : ∀ c ∈ body, c.isDigit = true)
    (hrest : StopsDigits rest) : (body ++ rest).takeWhile Char.isDigit = body := by
  rw [List.takeWhile_append_of_pos hbody]
  cases rest with
  | nil => simp
  | cons c rest => simp [hrest c rfl]

theorem dropWhile_isDigit_append {body : Text} (hbody : ∀ c ∈ body, c.isDigit = true)
    (hrest : StopsDigits rest) : (body ++ rest).dropWhile Char.isDigit = rest := by
  rw [List.dropWhile_append_of_pos hbody]
  cases rest with
  | nil => rfl
  | cons c rest => simp [hrest c rfl]

/-! ## Digits -/

section Digits

variable {seen used n u d : Nat}

theorem gatherDigits_of_stops (h : StopsDigits s) :
    gatherDigits seen used s = (seen, used, 0, s) := by
  cases s with
  | nil => rfl
  | cons c s => simp [gatherDigits, stopsDigits_cons_iff.mp h]

theorem gatherDigits_cons_of_le (hc : c.isDigit = true)
    (hfits : seen * 10 + digitValue c ≤ significandLimit) :
    gatherDigits seen used (c :: s) =
      gatherDigits (seen * 10 + digitValue c) (used + 1) s := by
  rw [gatherDigits, if_pos hc]
  exact if_pos hfits

/-- Digits that do not fit are counted and left out. -/
theorem gatherDigits_cons_of_lt (hc : c.isDigit = true)
    (hlarge : significandLimit < seen * 10 + digitValue c) :
    gatherDigits seen used (c :: s) = (seen, used, ((c :: s).takeWhile Char.isDigit).length,
      (c :: s).dropWhile Char.isDigit) := by
  rw [gatherDigits, if_pos hc]
  have hdrop : (c :: s).drop ((c :: s).takeWhile Char.isDigit).length =
      (c :: s).dropWhile Char.isDigit := by
    calc (c :: s).drop ((c :: s).takeWhile Char.isDigit).length
        = ((c :: s).takeWhile Char.isDigit ++ (c :: s).dropWhile Char.isDigit).drop
            ((c :: s).takeWhile Char.isDigit).length := by rw [List.takeWhile_append_dropWhile]
      _ = (c :: s).dropWhile Char.isDigit := List.drop_left
  rw [← hdrop]
  exact if_neg (Nat.not_le.mpr hlarge)

theorem gatherDigits_readsApart (h : gatherDigits seen used s = (n, u, d, tail)) :
    StopsDigits tail ∧ ∃ body, s = body ++ tail ∧ (∀ c ∈ body, c.isDigit = true) ∧
      ∀ rest, StopsDigits rest → gatherDigits seen used (body ++ rest) = (n, u, d, rest) := by
  induction s generalizing seen used with
  | nil =>
    cases h
    exact ⟨stopsDigits_nil, [], rfl, List.forall_mem_nil _,
      fun rest hrest => gatherDigits_of_stops hrest⟩
  | cons c s ih =>
    by_cases hc : c.isDigit = true
    · by_cases hfits : seen * 10 + digitValue c ≤ significandLimit
      · rw [gatherDigits_cons_of_le hc hfits] at h
        obtain ⟨hstops, body, rfl, hbody, hread⟩ := ih h
        refine ⟨hstops, c :: body, rfl, List.forall_mem_cons.mpr ⟨hc, hbody⟩, fun rest hrest => ?_⟩
        rw [List.cons_append, gatherDigits_cons_of_le hc hfits, hread rest hrest]
      · have hlarge := Nat.not_le.mp hfits
        rw [gatherDigits_cons_of_lt hc hlarge] at h
        cases h
        have hall : ∀ d ∈ (c :: s).takeWhile Char.isDigit, d.isDigit = true :=
          fun d hd => List.mem_takeWhile_imp hd
        refine ⟨stopsDigits_dropWhile (c :: s), _, List.takeWhile_append_dropWhile.symm, hall,
          fun rest hrest => ?_⟩
        have htake := takeWhile_isDigit_append hall hrest
        have hdrop := dropWhile_isDigit_append hall hrest
        rw [List.takeWhile_cons_of_pos hc, List.cons_append] at htake hdrop ⊢
        rw [gatherDigits_cons_of_lt hc hlarge, htake, hdrop]
    · have hstops : StopsDigits (c :: s) :=
        stopsDigits_cons_iff.mpr (Bool.eq_false_iff.mpr hc)
      rw [gatherDigits_of_stops hstops] at h
      cases h
      exact ⟨hstops, [], rfl, List.forall_mem_nil _,
        fun rest hrest => gatherDigits_of_stops hrest⟩

end Digits

section Exponents

variable {seen e : Nat}

theorem exponentDigits_of_stops (h : StopsDigits s) : exponentDigits seen s = .inl (seen, s) := by
  cases s with
  | nil => rfl
  | cons c s => simp [exponentDigits, stopsDigits_cons_iff.mp h]

theorem exponentDigits_cons (hc : c.isDigit = true) :
    exponentDigits seen (c :: s) =
      if seen * 10 + digitValue c ≤ exponentLimit then
        exponentDigits (seen * 10 + digitValue c) s
      else .inr s := by
  rw [exponentDigits, if_pos hc]

theorem exponentDigits_readsApart (h : exponentDigits seen s = .inl (e, tail)) :
    ∃ body, s = body ++ tail ∧ (∀ c ∈ body, c.isDigit = true) ∧
      ∀ rest, StopsDigits rest → exponentDigits seen (body ++ rest) = .inl (e, rest) := by
  induction s generalizing seen with
  | nil =>
    cases h
    exact ⟨[], rfl, List.forall_mem_nil _, fun rest hrest => exponentDigits_of_stops hrest⟩
  | cons c s ih =>
    by_cases hc : c.isDigit = true
    · rw [exponentDigits_cons hc] at h
      split at h
      · next hfits =>
        obtain ⟨body, rfl, hbody, hread⟩ := ih h
        refine ⟨c :: body, rfl, List.forall_mem_cons.mpr ⟨hc, hbody⟩, fun rest hrest => ?_⟩
        rw [List.cons_append, exponentDigits_cons hc, if_pos hfits, hread rest hrest]
      · cases h
    · have hstops : StopsDigits (c :: s) :=
        stopsDigits_cons_iff.mpr (Bool.eq_false_iff.mpr hc)
      rw [exponentDigits_of_stops hstops] at h
      cases h
      exact ⟨[], rfl, List.forall_mem_nil _, fun rest hrest => exponentDigits_of_stops hrest⟩

/-- An exponent that is too large is left where it passes the limit. -/
theorem exponentDigits_readsApart_of_large (h : exponentDigits seen s = .inr tail) :
    ∃ body, s = body ++ tail ∧ (∀ c ∈ body, c.isDigit = true) ∧
      ∀ rest, exponentDigits seen (body ++ rest) = .inr rest := by
  induction s generalizing seen with
  | nil => cases h
  | cons c s ih =>
    by_cases hc : c.isDigit = true
    · rw [exponentDigits_cons hc] at h
      split at h
      · next hfits =>
        obtain ⟨body, rfl, hbody, hread⟩ := ih h
        refine ⟨c :: body, rfl, List.forall_mem_cons.mpr ⟨hc, hbody⟩, fun rest => ?_⟩
        rw [List.cons_append, exponentDigits_cons hc, if_pos hfits, hread rest]
      · next hlarge =>
        cases h
        refine ⟨[c], rfl, List.forall_mem_singleton.mpr hc, fun rest => ?_⟩
        rw [List.singleton_append, exponentDigits_cons hc, if_neg hlarge]
    · have hstops : StopsDigits (c :: s) :=
        stopsDigits_cons_iff.mpr (Bool.eq_false_iff.mpr hc)
      rw [exponentDigits_of_stops hstops] at h
      cases h

end Exponents

/-! ## The parts of a number -/

section Parts

variable {significand dropped : Nat} {shift exponent : Int} {x : Number}

theorem isNumberChar_of_mem {body : Text} (h : ∀ c ∈ body, c.isDigit = true) :
    ∀ c ∈ body, IsNumberChar c := fun c hc => .inl (h c hc)

/-- Scaling takes nothing. -/
theorem eq_of_scaledNumber (h : scaledNumber negative significand exponent s = .ok (x, tail)) :
    tail = s ∧ ∀ rest, scaledNumber negative significand exponent rest = .ok (x, rest) := by
  unfold scaledNumber at h
  split at h
  · next hscale =>
    cases h
    exact ⟨rfl, fun rest => by simp [scaledNumber, hscale]⟩
  · cases h

/-- An exponent behind its sign. -/
def readUnsignedExponent (negative : Bool) (significand : Nat) (shift : Int) (down : Bool) :
    Text → Except Failure (Number × Text)
  | [] => failBefore .endInValue []
  | c :: rest =>
    if c.isDigit then
      match exponentDigits (digitValue c) rest with
      | .inl (e, rest) =>
        scaledNumber negative significand (if down then shift - e else shift + e) rest
      | .inr rest =>
        if significand ≠ 0 ∧ !down then failBefore .numberOutOfRange rest
        else .ok (.binary negative Binary64.zero, rest.dropWhile Char.isDigit)
    else failAt .badNumber (c :: rest)

/-- A sign decides the direction of the exponent behind it. -/
theorem readExponent_signed (negative : Bool) (significand : Nat) (shift : Int)
    (hc : c = '+' ∨ c = '-') : ∃ down, ∀ s, readExponent negative significand shift (c :: s) =
      readUnsignedExponent negative significand shift down s := by
  rcases hc with rfl | rfl
  · exact ⟨false, fun s => by cases s <;> rfl⟩
  · exact ⟨true, fun s => by cases s <;> rfl⟩

theorem readExponent_unsigned (negative : Bool) (significand : Nat) (shift : Int)
    (hc : ¬ (c = '+' ∨ c = '-')) (s : Text) :
    readExponent negative significand shift (c :: s) =
      readUnsignedExponent negative significand shift false (c :: s) := by
  unfold readExponent
  split
  next down more hmore =>
  split at hmore
  · next hsign => exact absurd (.inl (List.cons.inj hsign).1) hc
  · next hsign => exact absurd (.inr (List.cons.inj hsign).1) hc
  · cases hmore
    rfl

/-- An exponent has a digit at least. -/
theorem readUnsignedExponent_readsApart {down : Bool}
    (h : readUnsignedExponent negative significand shift down s = .ok (x, tail)) :
    ∃ c body, s = c :: (body ++ tail) ∧ (∀ d ∈ c :: body, d.isDigit = true) ∧
      ∀ rest, StopsNumber rest →
        readUnsignedExponent negative significand shift down (c :: (body ++ rest)) =
          .ok (x, rest) := by
  cases s with
  | nil => cases h
  | cons c s =>
    by_cases hc : c.isDigit = true
    · rw [readUnsignedExponent, if_pos hc] at h
      split at h
      · next e more he =>
        obtain ⟨body, rfl, hbody, hread⟩ := exponentDigits_readsApart he
        obtain ⟨rfl, hscaled⟩ := eq_of_scaledNumber h
        refine ⟨c, body, rfl, List.forall_mem_cons.mpr ⟨hc, hbody⟩, fun rest hrest => ?_⟩
        rw [readUnsignedExponent, if_pos hc, hread rest hrest.digits]
        exact hscaled rest
      · next more he =>
        obtain ⟨body, rfl, hbody, hread⟩ := exponentDigits_readsApart_of_large he
        split at h
        · cases h
        · next hsmall =>
          cases h
          have hall : ∀ d ∈ more.takeWhile Char.isDigit, d.isDigit = true :=
            fun d hd => List.mem_takeWhile_imp hd
          refine ⟨c, body ++ more.takeWhile Char.isDigit, ?_, ?_, fun rest hrest => ?_⟩
          · rw [List.append_assoc, List.takeWhile_append_dropWhile]
          · refine List.forall_mem_cons.mpr ⟨hc, fun d hd => ?_⟩
            exact (List.mem_append.mp hd).elim (hbody d) (hall d)
          · rw [readUnsignedExponent, if_pos hc, List.append_assoc, hread]
            dsimp only
            rw [if_neg hsmall, dropWhile_isDigit_append hall hrest.digits]
    · rw [readUnsignedExponent, if_neg hc] at h
      cases h

theorem readExponent_readsApart (negative : Bool) (significand : Nat) (shift : Int) :
    ReadsApart (readExponent negative significand shift) := by
  intro s x tail h
  cases s with
  | nil => cases h
  | cons c s =>
    by_cases hsign : c = '+' ∨ c = '-'
    · obtain ⟨down, happly⟩ := readExponent_signed negative significand shift hsign
      rw [happly] at h
      obtain ⟨d, body, rfl, hbody, hread⟩ := readUnsignedExponent_readsApart h
      have hc : IsNumberChar c := .inr (by rcases hsign with rfl | rfl <;> decide)
      refine ⟨c :: d :: body, rfl, List.forall_mem_cons.mpr ⟨hc, isNumberChar_of_mem hbody⟩,
        fun rest hrest => ?_⟩
      exact (happly _).trans (hread rest hrest)
    · rw [readExponent_unsigned _ _ _ hsign] at h
      obtain ⟨d, body, hs, hbody, hread⟩ := readUnsignedExponent_readsApart h
      obtain ⟨rfl, rfl⟩ := List.cons.inj hs
      refine ⟨c :: body, rfl, isNumberChar_of_mem hbody, fun rest hrest => ?_⟩
      exact (readExponent_unsigned _ _ _ hsign _).trans (hread rest hrest)

theorem readScale_of_stops (negative : Bool) (significand : Nat) (shift : Int)
    (h : ∀ c ∈ s.head?, c ≠ 'e' ∧ c ≠ 'E') :
    readScale negative significand shift s = scaledNumber negative significand shift s := by
  cases s with
  | nil => rfl
  | cons c s =>
    obtain ⟨hsmall, hlarge⟩ := h c rfl
    simp [readScale, hsmall, hlarge]

theorem StopsNumber.no_exponent (h : StopsNumber rest) : ∀ c ∈ rest.head?, c ≠ 'e' ∧ c ≠ 'E' := by
  intro c hc
  have hother := h.others c hc
  simp only [List.mem_cons, not_or] at hother
  exact ⟨hother.2.1, hother.2.2.1⟩

theorem readScale_exponent (negative : Bool) (significand : Nat) (shift : Int)
    (hc : c = 'e' ∨ c = 'E') (s : Text) : readScale negative significand shift (c :: s) =
      readExponent negative significand shift s := by
  rw [readScale, if_pos hc]

theorem readScale_readsApart (negative : Bool) (significand : Nat) (shift : Int) :
    ReadsApart (readScale negative significand shift) := by
  intro s x tail h
  cases s with
  | nil =>
    obtain ⟨rfl, hscaled⟩ := eq_of_scaledNumber h
    refine ⟨[], rfl, List.forall_mem_nil _, fun rest hrest => ?_⟩
    exact (readScale_of_stops _ _ _ hrest.no_exponent).trans (hscaled rest)
  | cons c s =>
    by_cases hc : c = 'e' ∨ c = 'E'
    · rw [readScale_exponent _ _ _ hc] at h
      obtain ⟨body, rfl, hbody, hread⟩ := readExponent_readsApart _ _ _ h
      refine ⟨c :: body, rfl, List.forall_mem_cons.mpr ⟨.inr ?_, hbody⟩, fun rest hrest => ?_⟩
      · rcases hc with rfl | rfl <;> decide
      · exact (readScale_exponent _ _ _ hc _).trans (hread rest hrest)
    · rw [readScale, if_neg hc] at h
      obtain ⟨rfl, hscaled⟩ := eq_of_scaledNumber h
      refine ⟨[], rfl, List.forall_mem_nil _, fun rest hrest => ?_⟩
      exact (readScale_of_stops _ _ _ hrest.no_exponent).trans (hscaled rest)

theorem readFraction_readsApart (negative : Bool) (significand : Nat) (shift : Int) :
    ReadsApart (readFraction negative significand shift) := by
  intro s x tail h
  obtain ⟨⟨m, used, dropped, more⟩, hgather⟩ : ∃ found, gatherDigits significand 0 s = found :=
    ⟨_, rfl⟩
  obtain ⟨hstops, digits, rfl, hdigits, hapart⟩ := gatherDigits_readsApart hgather
  unfold readFraction at h ⊢
  rw [hgather] at h
  dsimp only at h
  split at h
  · split at h <;> cases h
  · next hsome =>
    obtain ⟨body, rfl, hbody, hread⟩ := readScale_readsApart _ _ _ h
    refine ⟨digits ++ body, (List.append_assoc ..).symm, fun c hc => ?_, fun rest hrest => ?_⟩
    · exact (List.mem_append.mp hc).elim (isNumberChar_of_mem hdigits c) (hbody c)
    · rw [List.append_assoc, hapart _ (stopsDigits_append hstops hrest.digits)]
      dsimp only
      rw [if_neg hsome, hread rest hrest]

theorem readAfterDigits_of_ne (h : s.head? ≠ some '.') :
    readAfterDigits negative significand dropped s =
      if dropped = 0 ∧ s.head? ≠ some 'e' ∧ s.head? ≠ some 'E' then
        .ok (wholeNumber negative significand, s)
      else readScale negative significand dropped s := by
  unfold readAfterDigits
  split
  · exact absurd rfl h
  · rfl

theorem StopsNumber.head?_ne (h : StopsNumber rest) (hc : c ∈ ['.', 'e', 'E']) :
    rest.head? ≠ some c := fun hhead => h.others c hhead hc

/-- A whole number ends with its digits. -/
theorem readAfterDigits_of_stops (h : StopsNumber rest) :
    readAfterDigits negative significand 0 rest = .ok (wholeNumber negative significand, rest) := by
  rw [readAfterDigits_of_ne (h.head?_ne (by decide))]
  exact if_pos ⟨rfl, h.head?_ne (by decide), h.head?_ne (by decide)⟩

theorem readAfterDigits_readsApart (negative : Bool) (significand dropped : Nat) :
    ReadsApart (readAfterDigits negative significand dropped) := by
  intro s x tail h
  by_cases hpoint : s.head? = some '.'
  · obtain ⟨s, rfl⟩ := List.head?_eq_some_iff.mp hpoint
    obtain ⟨body, rfl, hbody, hread⟩ := readFraction_readsApart _ _ _ h
    exact ⟨'.' :: body, rfl, List.forall_mem_cons.mpr ⟨.inr (by decide), hbody⟩, hread⟩
  · rw [readAfterDigits_of_ne hpoint] at h
    split at h
    · next hwhole =>
      cases h
      obtain ⟨rfl, -⟩ := hwhole
      exact ⟨[], rfl, List.forall_mem_nil _, fun rest hrest => readAfterDigits_of_stops hrest⟩
    · next hscale =>
      by_cases hdropped : dropped = 0
      · obtain ⟨c, hc, hexponent⟩ : ∃ c, s.head? = some c ∧ (c = 'e' ∨ c = 'E') := by
          by_contra hnone
          exact hscale ⟨hdropped, fun he => hnone ⟨_, he, .inl rfl⟩,
            fun he => hnone ⟨_, he, .inr rfl⟩⟩
        obtain ⟨s, rfl⟩ := List.head?_eq_some_iff.mp hc
        rw [readScale_exponent _ _ _ hexponent] at h
        obtain ⟨body, rfl, hbody, hread⟩ := readExponent_readsApart _ _ _ h
        refine ⟨c :: body, rfl, List.forall_mem_cons.mpr ⟨.inr ?_, hbody⟩, fun rest hrest => ?_⟩
        · rcases hexponent with rfl | rfl <;> decide
        · have hhead : (c :: (body ++ rest)).head? ≠ some '.' := hpoint
          rw [List.cons_append, readAfterDigits_of_ne hhead]
          refine (if_neg hscale).trans ?_
          exact (readScale_exponent _ _ _ hexponent _).trans (hread rest hrest)
      · obtain ⟨body, rfl, hbody, hread⟩ := readScale_readsApart _ _ _ h
        refine ⟨body, rfl, hbody, fun rest hrest => ?_⟩
        have hhead : (body ++ rest).head? ≠ some '.' := by
          cases body with
          | nil => exact hrest.head?_ne (by decide)
          | cons c body => exact hpoint
        rw [readAfterDigits_of_ne hhead]
        exact (if_neg fun hwhole => hdropped hwhole.1).trans (hread rest hrest)

theorem readNumber_zero (h : StopsDigits s) :
    readNumber negative ('0' :: s) = readAfterDigits negative 0 0 s := by
  have hnone : s.head?.any Char.isDigit = false := by
    cases s with
    | nil => rfl
    | cons c s => exact stopsDigits_cons_iff.mp h
  simp [readNumber, hnone]

theorem readNumber_digits {m used : Nat} (hzero : c ≠ '0') (hc : c.isDigit = true)
    (h : gatherDigits 0 0 (c :: s) = (m, used, dropped, rest)) :
    readNumber negative (c :: s) = readAfterDigits negative m dropped rest := by
  rw [readNumber, if_neg hzero, if_pos hc, h]

theorem readNumber_cases {r : Number × Text} (h : readNumber negative s = .ok r) :
    (∃ more, s = '0' :: more ∧ StopsDigits more ∧ readAfterDigits negative 0 0 more = .ok r) ∨
    ∃ c more m used dropped rest, s = c :: more ∧ c ≠ '0' ∧ c.isDigit = true ∧
      gatherDigits 0 0 (c :: more) = (m, used, dropped, rest) ∧
      readAfterDigits negative m dropped rest = .ok r := by
  cases s with
  | nil => cases h
  | cons c s =>
    by_cases hzero : c = '0'
    · subst hzero
      have hstops : StopsDigits s := by
        rw [readNumber, if_pos rfl] at h
        split at h
        · cases h
        · next hnone =>
          intro d hd
          rw [Option.mem_def.mp hd] at hnone
          exact Bool.eq_false_iff.mpr hnone
      exact .inl ⟨s, rfl, hstops, (readNumber_zero hstops).symm.trans h⟩
    · by_cases hc : c.isDigit = true
      · obtain ⟨⟨m, used, dropped, rest⟩, hgather⟩ :
            ∃ found, gatherDigits 0 0 (c :: s) = found := ⟨_, rfl⟩
        exact .inr ⟨c, s, m, used, dropped, rest, rfl, hzero, hc, hgather,
          (readNumber_digits hzero hc hgather).symm.trans h⟩
      · rw [readNumber, if_neg hzero, if_neg hc] at h
        cases h

theorem readNumber_readsApart (negative : Bool) : ReadsApart (readNumber negative) := by
  intro s x tail h
  obtain ⟨more, rfl, hstops, hread⟩ | ⟨c, more, m, used, dropped, behind, rfl, hzero, hc, hgather,
    hread⟩ := readNumber_cases h
  · obtain ⟨body, rfl, hbody, hapart⟩ := readAfterDigits_readsApart _ _ _ hread
    refine ⟨'0' :: body, rfl, List.forall_mem_cons.mpr ⟨.inl rfl, hbody⟩, fun rest hrest => ?_⟩
    exact (readNumber_zero (stopsDigits_append hstops hrest.digits)).trans (hapart rest hrest)
  · obtain ⟨hstops, digits, hs, hdigits, happly⟩ := gatherDigits_readsApart hgather
    obtain ⟨body, rfl, hbody, hapart⟩ := readAfterDigits_readsApart _ _ _ hread
    cases digits with
    | nil =>
      rw [List.nil_append] at hs
      rw [← hs] at hstops
      exact absurd hc (Bool.eq_false_iff.mp (stopsDigits_cons_iff.mp hstops))
    | cons d digits =>
      obtain ⟨rfl, rfl⟩ := List.cons.inj hs
      refine ⟨c :: digits ++ body, (List.append_assoc (c :: digits) body tail).symm, fun e he => ?_,
        fun rest hrest => ?_⟩
      · exact (List.mem_append.mp he).elim (isNumberChar_of_mem hdigits e) (hbody e)
      · rw [List.append_assoc]
        have hbehind := happly _ (stopsDigits_append hstops hrest.digits)
        exact (readNumber_digits hzero hc hbehind).trans (hapart rest hrest)

end Parts

/-! ## The numbers that are read -/

/-- Whether a number is in the range in which whole numbers stay whole. -/
def Number.InRange : Number → Prop
  | .whole value => -9223372036854775808 ≤ value ∧ value ≤ 18446744073709551615
  | .binary _ _ => True

section Ranges

variable {significand dropped : Nat} {shift exponent : Int} {x : Number}

theorem inRange_of_scaledNumber
    (h : scaledNumber negative significand exponent s = .ok (x, rest)) : x.InRange := by
  unfold scaledNumber at h
  split at h
  · cases h
    trivial
  · cases h

theorem inRange_of_readUnsignedExponent {down : Bool}
    (h : readUnsignedExponent negative significand shift down s = .ok (x, rest)) : x.InRange := by
  unfold readUnsignedExponent at h
  split at h
  · cases h
  · split at h
    · split at h
      · exact inRange_of_scaledNumber h
      · split at h
        · cases h
        · cases h
          trivial
    · cases h

theorem inRange_of_readExponent
    (h : readExponent negative significand shift s = .ok (x, rest)) : x.InRange := by
  cases s with
  | nil => cases h
  | cons c s =>
    by_cases hsign : c = '+' ∨ c = '-'
    · obtain ⟨down, happly⟩ := readExponent_signed negative significand shift hsign
      rw [happly] at h
      exact inRange_of_readUnsignedExponent h
    · rw [readExponent_unsigned _ _ _ hsign] at h
      exact inRange_of_readUnsignedExponent h

theorem inRange_of_readScale
    (h : readScale negative significand shift s = .ok (x, rest)) : x.InRange := by
  unfold readScale at h
  split at h
  · split at h
    · exact inRange_of_readExponent h
    · exact inRange_of_scaledNumber h
  · exact inRange_of_scaledNumber h

theorem inRange_of_readFraction
    (h : readFraction negative significand shift s = .ok (x, rest)) : x.InRange := by
  unfold readFraction at h
  dsimp only at h
  split at h
  · split at h <;> cases h
  · exact inRange_of_readScale h

theorem inRange_wholeNumber {n : Nat} (h : n ≤ significandLimit) :
    (wholeNumber negative n).InRange := by
  rw [significandLimit] at h
  unfold wholeNumber
  split_ifs with hsign hbinary
  · exact ⟨by omega, by omega⟩
  · trivial
  · exact ⟨by omega, by omega⟩

theorem inRange_of_readAfterDigits (hfits : significand ≤ significandLimit)
    (h : readAfterDigits negative significand dropped s = .ok (x, rest)) : x.InRange := by
  unfold readAfterDigits at h
  split at h
  · exact inRange_of_readFraction h
  · split at h
    · cases h
      exact inRange_wholeNumber hfits
    · exact inRange_of_readScale h

theorem gatherDigits_le {seen used n u d : Nat} (hseen : seen ≤ significandLimit)
    (h : gatherDigits seen used s = (n, u, d, rest)) : n ≤ significandLimit := by
  induction s generalizing seen used with
  | nil =>
    cases h
    exact hseen
  | cons c s ih =>
    by_cases hc : c.isDigit = true
    · by_cases hfits : seen * 10 + digitValue c ≤ significandLimit
      · rw [gatherDigits_cons_of_le hc hfits] at h
        exact ih hfits h
      · rw [gatherDigits_cons_of_lt hc (Nat.not_le.mp hfits)] at h
        cases h
        exact hseen
    · rw [gatherDigits_of_stops (stopsDigits_cons_iff.mpr (Bool.eq_false_iff.mpr hc))] at h
      cases h
      exact hseen

theorem inRange_of_readNumber (h : readNumber negative s = .ok (x, rest)) : x.InRange := by
  obtain ⟨more, -, -, hread⟩ | ⟨c, more, m, used, dropped, behind, -, -, -, hgather, hread⟩ :=
    readNumber_cases h
  · exact inRange_of_readAfterDigits (Nat.zero_le _) hread
  · exact inRange_of_readAfterDigits (gatherDigits_le (Nat.zero_le _) hgather) hread

end Ranges

/-! ## Texts of numbers -/

/-- Whether a text as a whole is read as a number. -/
def NumberText (t : Text) (x : Number) : Prop :=
  (∃ s, t = '-' :: s ∧ readNumber true s = .ok (x, [])) ∨
    (∃ c ∈ t.head?, c.isDigit = true) ∧ readNumber false t = .ok (x, [])

theorem NumberText.isNumberChar {t : Text} {x : Number} (h : NumberText t x) :
    ∀ c ∈ t, IsNumberChar c := by
  obtain ⟨s, rfl, hread⟩ | ⟨-, hread⟩ := h
  · obtain ⟨body, rfl, hbody, -⟩ := readNumber_readsApart _ hread
    rw [List.append_nil]
    exact List.forall_mem_cons.mpr ⟨.inr (by decide), hbody⟩
  · obtain ⟨body, rfl, hbody, -⟩ := readNumber_readsApart _ hread
    rwa [List.append_nil]

theorem NumberText.inRange {t : Text} {x : Number} (h : NumberText t x) : x.InRange := by
  obtain ⟨s, -, hread⟩ | ⟨-, hread⟩ := h
  · exact inRange_of_readNumber hread
  · exact inRange_of_readNumber hread

theorem exists_numberText_of_minus {x : Number} (h : readNumber true s = .ok (x, rest)) :
    ∃ t, '-' :: s = t ++ rest ∧ NumberText t x := by
  obtain ⟨body, rfl, -, happly⟩ := readNumber_readsApart _ h
  have hread := happly [] stopsNumber_nil
  rw [List.append_nil] at hread
  exact ⟨'-' :: body, rfl, .inl ⟨body, rfl, hread⟩⟩

theorem exists_numberText_of_digit {x : Number} (hc : c.isDigit = true)
    (h : readNumber false (c :: s) = .ok (x, rest)) :
    ∃ t, c :: s = t ++ rest ∧ NumberText t x := by
  obtain ⟨body, hs, -, happly⟩ := readNumber_readsApart _ h
  have hread := happly [] stopsNumber_nil
  rw [List.append_nil] at hread
  cases body with
  | nil => cases hread
  | cons d body =>
    obtain ⟨rfl, -⟩ := List.cons.inj hs
    exact ⟨c :: body, hs, .inr ⟨⟨c, rfl, hc⟩, hread⟩⟩

/-- A number is read in front of whatever does not go on with it. -/
theorem NumberText.readNumber {t : Text} {x : Number} (h : NumberText t x)
    (hrest : StopsNumber rest) :
    (∃ s, t = '-' :: s ∧ readNumber true (s ++ rest) = .ok (x, rest)) ∨
      ∃ c s, t = c :: s ∧ c.isDigit = true ∧
        readNumber false (c :: (s ++ rest)) = .ok (x, rest) := by
  obtain ⟨s, rfl, hread⟩ | ⟨⟨c, hhead, hc⟩, hread⟩ := h
  · obtain ⟨body, rfl, -, happly⟩ := readNumber_readsApart _ hread
    exact .inl ⟨body, by rw [List.append_nil], happly rest hrest⟩
  · obtain ⟨s, rfl⟩ := List.head?_eq_some_iff.mp hhead
    obtain ⟨body, hs, -, happly⟩ := readNumber_readsApart _ hread
    rw [List.append_nil] at hs
    subst hs
    exact .inr ⟨c, s, rfl, hc, happly rest hrest⟩

/-! ## Whole numbers -/

theorem le_ofDigitChars (seen : Nat) (digits : Text) :
    seen ≤ Nat.ofDigitChars 10 digits seen := by
  induction digits generalizing seen with
  | nil => rw [Nat.ofDigitChars_nil]
  | cons c digits ih =>
    rw [Nat.ofDigitChars_cons]
    exact Nat.le_trans (by omega) (ih _)

theorem gatherDigits_of_le {digits : Text} {seen used : Nat}
    (hdigits : ∀ c ∈ digits, c.isDigit = true)
    (hfits : Nat.ofDigitChars 10 digits seen ≤ significandLimit) (hrest : StopsDigits rest) :
    gatherDigits seen used (digits ++ rest) =
      (Nat.ofDigitChars 10 digits seen, used + digits.length, 0, rest) := by
  induction digits generalizing seen used with
  | nil => exact gatherDigits_of_stops hrest
  | cons c digits ih =>
    obtain ⟨hc, hdigits⟩ := List.forall_mem_cons.mp hdigits
    rw [Nat.ofDigitChars_cons, Nat.mul_comm] at hfits ⊢
    have hhere := Nat.le_trans (le_ofDigitChars _ digits) hfits
    rw [List.cons_append, gatherDigits_cons_of_le hc hhere]
    refine (ih hdigits hfits).trans ?_
    rw [List.length_cons, Nat.add_assoc, Nat.add_comm 1]

theorem head?_toDigits {n : Nat} (h : 0 < n) : (Nat.toDigits 10 n).head? ≠ some '0' := by
  induction n using Nat.strongRecOn with
  | ind n ih =>
    by_cases hsmall : n < 10
    · rw [Nat.toDigits_of_lt_base hsmall, List.head?_cons, ne_eq, Option.some.injEq,
        Nat.digitChar_eq_zero]
      omega
    · have hfirst := ih (n / 10) (by omega) (by omega)
      rw [Nat.toDigits_of_base_le (by decide) (Nat.not_lt.mp hsmall)]
      cases hdigits : Nat.toDigits 10 (n / 10) with
      | nil => exact absurd hdigits Nat.toDigits_ne_nil
      | cons c digits =>
        rw [hdigits] at hfirst
        exact hfirst

/-- The digits of a whole number are read back as that number. -/
theorem readNumber_toDigits {n : Nat} (hn : n ≤ significandLimit) (hrest : StopsNumber rest) :
    readNumber negative (Nat.toDigits 10 n ++ rest) = .ok (wholeNumber negative n, rest) := by
  cases Nat.eq_zero_or_pos n with
  | inl hzero =>
    rw [hzero, Nat.toDigits_zero, List.singleton_append, readNumber_zero hrest.digits]
    exact readAfterDigits_of_stops hrest
  | inr hpos =>
    have hdigits : ∀ c ∈ Nat.toDigits 10 n, c.isDigit = true :=
      fun c hc => Nat.isDigit_of_mem_toDigits (by decide) (by decide) hc
    have hvalue : Nat.ofDigitChars 10 (Nat.toDigits 10 n) 0 = n := Nat.ofDigitChars_ten_toDigits
    have hhead := head?_toDigits hpos
    have hgather : gatherDigits 0 0 (Nat.toDigits 10 n ++ rest) =
        (Nat.ofDigitChars 10 (Nat.toDigits 10 n) 0, 0 + (Nat.toDigits 10 n).length, 0, rest) :=
      gatherDigits_of_le hdigits (hvalue.trans_le hn) hrest.digits
    cases hcs : Nat.toDigits 10 n with
    | nil => exact absurd hcs Nat.toDigits_ne_nil
    | cons c cs =>
      rw [hvalue, hcs] at hgather
      rw [hcs] at hdigits hhead
      have hzero : c ≠ '0' := fun hc => hhead (hc ▸ rfl)
      exact (readNumber_digits hzero (hdigits c List.mem_cons_self) hgather).trans
        (readAfterDigits_of_stops hrest)

theorem Number.text_of_nonneg {value : Int} (h : 0 ≤ value) :
    (Number.whole value).text = Nat.toDigits 10 value.toNat := by
  rw [text, Int.toString_eq_repr, Int.repr_eq_if, if_pos h, Nat.toList_repr]

theorem Number.text_of_neg {value : Int} (h : value < 0) :
    (Number.whole value).text = '-' :: Nat.toDigits 10 (-value).toNat := by
  rw [text, Int.toString_eq_repr, Int.repr_eq_if, if_neg (Int.not_le.mpr h), String.toList_append,
    Nat.toList_repr]
  rfl

theorem numberText_whole {value : Int} (h : (Number.whole value).InRange) :
    NumberText (Number.whole value).text (.whole value) := by
  obtain ⟨hlow, hhigh⟩ := h
  by_cases hsign : 0 ≤ value
  · refine .inr ?_
    rw [Number.text_of_nonneg hsign]
    have hread : readNumber false (Nat.toDigits 10 value.toNat ++ []) =
        .ok (wholeNumber false value.toNat, []) :=
      readNumber_toDigits (by rw [significandLimit]; omega) stopsNumber_nil
    rw [List.append_nil] at hread
    refine ⟨?_, ?_⟩
    · cases hdigits : Nat.toDigits 10 value.toNat with
      | nil => exact absurd hdigits Nat.toDigits_ne_nil
      | cons c digits =>
        have hc : c ∈ Nat.toDigits 10 value.toNat := hdigits ▸ List.mem_cons_self
        exact ⟨c, rfl, Nat.isDigit_of_mem_toDigits (by decide) (by decide) hc⟩
    · rw [hread, wholeNumber, Bool.not_false, if_pos rfl, Int.toNat_of_nonneg hsign]
  · have hneg := Int.not_le.mp hsign
    refine .inl ⟨_, Number.text_of_neg hneg, ?_⟩
    have hread : readNumber true (Nat.toDigits 10 (-value).toNat ++ []) =
        .ok (wholeNumber true (-value).toNat, []) :=
      readNumber_toDigits (by rw [significandLimit]; omega) stopsNumber_nil
    rw [List.append_nil] at hread
    have hwhole : wholeNumber true (-value).toNat = .whole value := by
      have hrange : ¬ ((-value).toNat = 0 ∨ 9223372036854775808 < (-value).toNat) := by omega
      have hvalue : -((-value).toNat : Int) = value := by omega
      rw [wholeNumber, if_neg (by decide), if_neg hrange, hvalue]
    rw [hread, hwhole]

/-! ## What a number is written with -/

theorem isDigit_of_mem_significantDigits {n : Nat} (hc : c ∈ significantDigits n) :
    c.isDigit = true := by
  rw [significantDigits, List.mem_reverse] at hc
  have hmem := (List.dropWhile_sublist _).mem hc
  exact Nat.isDigit_of_mem_toDigits (by decide) (by decide) (List.mem_reverse.mp hmem)

theorem isNumberChar_positional {digits : Text} (hdigits : ∀ c ∈ digits, c.isDigit = true)
    (lead : Int) : ∀ c ∈ positional digits lead, IsNumberChar c := by
  have hpoint : IsNumberChar '.' := .inr (by decide)
  have hzero : IsNumberChar '0' := .inl rfl
  intro c hc
  unfold positional at hc
  split at hc
  · simp only [List.mem_append, List.mem_singleton] at hc
    obtain ((hwhole | hfill) | rfl) | hfraction := hc
    · exact .inl (hdigits c (List.mem_of_mem_take hwhole))
    · exact List.eq_of_mem_replicate hfill ▸ hzero
    · exact hpoint
    · split at hfraction
      · exact List.mem_singleton.mp hfraction ▸ hzero
      · exact .inl (hdigits c (List.mem_of_mem_drop hfraction))
  · simp only [List.mem_append, List.mem_cons, List.not_mem_nil, or_false] at hc
    obtain ((rfl | rfl) | hfill) | hdigit := hc
    · exact hzero
    · exact hpoint
    · exact List.eq_of_mem_replicate hfill ▸ hzero
    · exact .inl (hdigits c hdigit)

theorem isNumberChar_scientific {digits : Text} (hdigits : ∀ c ∈ digits, c.isDigit = true)
    (lead : Int) : ∀ c ∈ scientific digits lead, IsNumberChar c := by
  intro c hc
  simp only [scientific, List.mem_append, List.mem_cons, List.not_mem_nil, or_false] at hc
  obtain (hpoint | rfl | rfl) | hexponent := hc
  · split at hpoint
    · exact .inl (hdigits c hpoint)
    · simp only [List.mem_append, List.mem_singleton] at hpoint
      obtain (hfirst | rfl) | hothers := hpoint
      · exact .inl (hdigits c (List.mem_of_mem_take hfirst))
      · exact .inr (by decide)
      · exact .inl (hdigits c (List.mem_of_mem_drop hothers))
  · exact .inr (by decide)
  · refine .inr ?_
    split <;> decide
  · exact .inl (Nat.isDigit_of_mem_toDigits (by decide) (by decide) hexponent)

theorem isNumberChar_magnitude (x : Binary64) : ∀ c ∈ magnitude x, IsNumberChar c := by
  have hdigits : ∀ c ∈ significantDigits x.shortest.digits, c.isDigit = true :=
    fun c hc => isDigit_of_mem_significantDigits hc
  unfold magnitude
  split
  · simp only [List.forall_mem_cons]
    exact ⟨.inl rfl, .inr (by decide), .inl rfl, List.forall_mem_nil _⟩
  · dsimp only
    split
    · exact isNumberChar_positional hdigits _
    · exact isNumberChar_scientific hdigits _

theorem isNumberChar_text (x : Number) : ∀ c ∈ x.text, IsNumberChar c := by
  have hminus : IsNumberChar '-' := .inr (by decide)
  cases x with
  | whole value =>
    have hdigits (n : Nat) : ∀ c ∈ Nat.toDigits 10 n, IsNumberChar c :=
      fun c hc => .inl (Nat.isDigit_of_mem_toDigits (by decide) (by decide) hc)
    by_cases hsign : 0 ≤ value
    · exact Number.text_of_nonneg hsign ▸ hdigits _
    · rw [Number.text_of_neg (Int.not_le.mp hsign)]
      exact List.forall_mem_cons.mpr ⟨hminus, hdigits _⟩
  | binary negative x =>
    cases negative with
    | false => exact isNumberChar_magnitude x
    | true => exact List.forall_mem_cons.mpr ⟨hminus, isNumberChar_magnitude x⟩

end PluginLint.Json
