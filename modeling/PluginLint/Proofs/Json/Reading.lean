import PluginLint.Proofs.Json.Numbers
import PluginLint.Proofs.Json.Strings

/-!
# Reading JSON step by step

What one step of the reader can do is said once for each kind of text: a value is a word, a string,
a number or opens a list (`ValueStep`), and what follows in a list is its end or an item
(`ItemsStep`, `MembersStep`). A step that succeeds is one of these (`readValue_step`), and one of
these succeeds (`ValueStep.readValue`).
-/
namespace PluginLint.Json

/-! ## Blanks and words -/

theorem exists_blanks (s : Text) :
    ∃ blanks, s = blanks ++ skipBlanks s ∧ ∀ c ∈ blanks, isJsonBlank c = true :=
  ⟨_, List.takeWhile_append_dropWhile.symm, fun _ hc => List.mem_takeWhile_imp hc⟩

theorem skipBlanks_cons {c : Char} (h : isJsonBlank c = false) (s : Text) :
    skipBlanks (c :: s) = c :: s := by
  simp [skipBlanks, h]

theorem readWord_iff {expected s rest : Text} :
    readWord expected s = .ok rest ↔ s = expected ++ rest := by
  induction expected generalizing s with
  | nil => simp [readWord]
  | cons e expected ih =>
    cases s with
    | nil => simp [readWord, failBefore]
    | cons c s =>
      rw [readWord, List.cons_append, List.cons_eq_cons]
      split
      · next hc => simp [ih, hc]
      · next hc => simp [hc, failAt]

/-- The words that are values. -/
inductive IsWord : Text → Json → Prop
  | null : IsWord "null".toList .null
  | true : IsWord "true".toList (.bool true)
  | false : IsWord "false".toList (.bool false)

/-! ## Steps -/

/-- How a value with a rest behind it can start a text without blanks in front. -/
inductive ValueStep (fuel : Nat) (s rest : Text) : Nat → Json → Prop
  | word {depth word v} (h : IsWord word v) (hs : s = word ++ rest) : ValueStep fuel s rest depth v
  | string {depth written t} (h : StringText written t) (hs : s = '"' :: (written ++ '"' :: rest)) :
    ValueStep fuel s rest depth (.string t)
  | number {depth t x} (h : NumberText t x) (hs : s = t ++ rest) :
    ValueStep fuel s rest depth (.number x)
  | array {depth more items} (hs : s = '[' :: more)
    (h : readItems fuel depth true more = .ok (items, rest)) :
    ValueStep fuel s rest (depth + 1) (.array items)
  | object {depth more members} (hs : s = '\x7b' :: more)
    (h : readMembers fuel depth true more = .ok (members, rest)) :
    ValueStep fuel s rest (depth + 1) (ofMembers members)

/-- Where the next entry of a list starts: right away in front of the first one, behind a comma and
blanks in front of the others. -/
def StartsEntry (first : Bool) (s start : Text) : Prop :=
  if first then start = s else ∃ more, s = ',' :: more ∧ start = skipBlanks more

/-- What can follow in an array, in a text without blanks in front. -/
inductive ItemsStep (fuel depth : Nat) (first : Bool) (s rest : Text) : List Json → Prop
  | close (hs : s = ']' :: rest) : ItemsStep fuel depth first s rest []
  | item {start behind v items} (hstart : StartsEntry first s start)
    (hv : readValue fuel depth start = .ok (v, behind))
    (hitems : readItems fuel depth false behind = .ok (items, rest)) :
    ItemsStep fuel depth first s rest (v :: items)

/-- What can follow in an object, in a text without blanks in front. -/
inductive MembersStep (fuel depth : Nat) (first : Bool) (s rest : Text) :
    List (Text × Json) → Prop
  | close (hs : s = '\x7d' :: rest) : MembersStep fuel depth first s rest []
  | member {written key colon value behind v members}
    (hstart : StartsEntry first s ('"' :: (written ++ '"' :: colon)))
    (hkey : StringText written key) (hcolon : skipBlanks colon = ':' :: value)
    (hv : readValue fuel depth value = .ok (v, behind))
    (hmembers : readMembers fuel depth false behind = .ok (members, rest)) :
    MembersStep fuel depth first s rest ((key, v) :: members)

section Steps

variable {fuel depth : Nat} {first : Bool} {s rest : Text}

theorem readValue_step {v : Json} (h : readValue (fuel + 1) depth s = .ok (v, rest)) :
    ValueStep fuel (skipBlanks s) rest depth v := by
  rw [readValue] at h
  split at h
  · cases h
  · next more hs =>
    obtain ⟨behind, hword, heq⟩ := map_eq_ok_iff.mp h
    cases heq
    exact .word .null (hs.trans (congrArg _ (readWord_iff.mp hword)))
  · next more hs =>
    obtain ⟨behind, hword, heq⟩ := map_eq_ok_iff.mp h
    cases heq
    exact .word .true (hs.trans (congrArg _ (readWord_iff.mp hword)))
  · next more hs =>
    obtain ⟨behind, hword, heq⟩ := map_eq_ok_iff.mp h
    cases heq
    exact .word .false (hs.trans (congrArg _ (readWord_iff.mp hword)))
  · next more hs =>
    obtain ⟨found, hstring, heq⟩ := map_eq_ok_iff.mp h
    cases heq
    obtain ⟨written, hwritten, hmore⟩ := readString_iff.mp hstring
    exact .string hwritten (hs.trans (congrArg _ hmore))
  · next more hs =>
    obtain ⟨found, hnumber, heq⟩ := map_eq_ok_iff.mp h
    cases heq
    obtain ⟨t, ht, hnumber⟩ := exists_numberText_of_minus hnumber
    exact .number hnumber (hs.trans ht)
  · next more hs =>
    cases depth with
    | zero => cases h
    | succ depth =>
      obtain ⟨found, hitems, heq⟩ := map_eq_ok_iff.mp h
      cases heq
      exact .array hs hitems
  · next more hs =>
    cases depth with
    | zero => cases h
    | succ depth =>
      obtain ⟨found, hmembers, heq⟩ := map_eq_ok_iff.mp h
      cases heq
      exact .object hs hmembers
  · next c more _ _ _ _ _ _ _ hs =>
    split at h
    · next hc =>
      obtain ⟨found, hnumber, heq⟩ := map_eq_ok_iff.mp h
      cases heq
      obtain ⟨t, ht, hnumber⟩ := exists_numberText_of_digit hc hnumber
      exact .number hnumber (hs.trans ht)
    · cases h

theorem readItems_step {items : List Json}
    (h : readItems (fuel + 1) depth first s = .ok (items, rest)) :
    ItemsStep fuel depth first (skipBlanks s) rest items := by
  have hitem {start : Text} (hstart : StartsEntry first (skipBlanks s) start)
      (hread : ((readValue fuel depth start).bind fun v =>
        (readItems fuel depth false v.2).map fun r => (v.1 :: r.1, r.2)) = .ok (items, rest)) :
      ItemsStep fuel depth first (skipBlanks s) rest items := by
    obtain ⟨v, hv, hmore⟩ := bind_eq_ok_iff.mp hread
    obtain ⟨r, hr, heq⟩ := map_eq_ok_iff.mp hmore
    cases heq
    exact .item hstart hv hr
  rw [readItems] at h
  dsimp only at h
  split at h
  · cases h
  · next more hs =>
    cases h
    exact .close hs
  · next c more _ hs =>
    split at h
    · next hfirst => exact hitem (by rw [StartsEntry, if_pos hfirst, hs]) h
    · next hfirst =>
      split at h
      · next hcomma =>
        have hstart : StartsEntry first (skipBlanks s) (skipBlanks more) := by
          rw [StartsEntry, if_neg hfirst]
          exact ⟨more, hcomma ▸ hs, rfl⟩
        split at h
        · cases h
        · cases h
        · exact hitem hstart h
      · cases h

/-- What follows the quote in front of a key. -/
theorem MembersStep.of_key {start : Text} {members : List (Text × Json)}
    (hstart : StartsEntry first s ('"' :: start))
    (hread : ((readString start).bind fun k =>
      match skipBlanks k.2 with
      | [] => failAt .endInObject []
      | ':' :: rest =>
        (readValue fuel depth rest).bind fun v =>
          (readMembers fuel depth false v.2).map fun r => ((k.1, v.1) :: r.1, r.2)
      | c :: rest => failAt .expectedColon (c :: rest)) = .ok (members, rest)) :
    MembersStep fuel depth first s rest members := by
  obtain ⟨k, hk, hmore⟩ := bind_eq_ok_iff.mp hread
  obtain ⟨written, hwritten, rfl⟩ := readString_iff.mp hk
  split at hmore
  · cases hmore
  · next value hcolon =>
    obtain ⟨v, hv, hmore⟩ := bind_eq_ok_iff.mp hmore
    obtain ⟨r, hr, heq⟩ := map_eq_ok_iff.mp hmore
    cases heq
    exact .member hstart hwritten hcolon hv hr
  · cases hmore

theorem readMembers_step {members : List (Text × Json)}
    (h : readMembers (fuel + 1) depth first s = .ok (members, rest)) :
    MembersStep fuel depth first (skipBlanks s) rest members := by
  rw [readMembers] at h
  dsimp only at h
  split at h
  · cases h
  · next more hs =>
    cases h
    exact .close hs
  · next c more _ hs =>
    split at h
    · next hfirst =>
      split at h
      · next hquote => exact .of_key (by rw [StartsEntry, if_pos hfirst, hs, hquote]) h
      · cases h
    · next hfirst =>
      split at h
      · next hcomma =>
        split at h
        · cases h
        · next start hstart =>
          refine .of_key ?_ h
          rw [StartsEntry, if_neg hfirst]
          exact ⟨more, hcomma ▸ hs, hstart.symm⟩
        · cases h
        · cases h
      · cases h

/-! ## Steps that succeed -/

/-- A digit opens a number. -/
theorem readValue_digit {c : Char} (hc : c.isDigit = true) {more : Text}
    (hs : skipBlanks s = c :: more) : readValue (fuel + 1) depth s =
      (readNumber false (c :: more)).map fun r => (.number r.1, r.2) := by
  have hother {d : Char} (hd : d.isDigit = false) : c ≠ d := by
    rintro rfl
    rw [hc] at hd
    cases hd
  rw [readValue, hs]
  simp [hc, hother]

theorem ValueStep.readValue {v : Json} (h : ValueStep fuel (skipBlanks s) rest depth v)
    (hrest : StopsNumber rest) : readValue (fuel + 1) depth s = .ok (v, rest) := by
  generalize hstart : skipBlanks s = start at h
  cases h with
  | word hword hs =>
    have hend {word : Text} : readWord word (word ++ rest) = .ok rest := readWord_iff.mpr rfl
    rw [Json.readValue, hstart, hs]
    cases hword with
    | null => exact map_eq_ok_iff.mpr ⟨rest, hend, rfl⟩
    | true => exact map_eq_ok_iff.mpr ⟨rest, hend, rfl⟩
    | false => exact map_eq_ok_iff.mpr ⟨rest, hend, rfl⟩
  | string hwritten hs =>
    rw [Json.readValue, hstart, hs]
    exact map_eq_ok_iff.mpr ⟨_, readString_iff.mpr ⟨_, hwritten, rfl⟩, rfl⟩
  | number hnumber hs =>
    rw [hs] at hstart
    obtain ⟨more, rfl, hread⟩ | ⟨c, more, rfl, hc, hread⟩ := hnumber.readNumber hrest
    · rw [Json.readValue, hstart]
      exact map_eq_ok_iff.mpr ⟨_, hread, rfl⟩
    · rw [readValue_digit hc hstart]
      exact map_eq_ok_iff.mpr ⟨_, hread, rfl⟩
  | array hs hitems =>
    rw [Json.readValue, hstart, hs]
    exact map_eq_ok_iff.mpr ⟨_, hitems, rfl⟩
  | object hs hmembers =>
    rw [Json.readValue, hstart, hs]
    exact map_eq_ok_iff.mpr ⟨_, hmembers, rfl⟩

/-- The end of a list is no value. -/
theorem eq_cons_of_readValue {v : Json} (h : readValue fuel depth s = .ok (v, rest)) :
    ∃ c more, s = c :: more ∧ c ≠ ']' := by
  cases fuel with
  | zero => cases h
  | succ fuel =>
    cases s with
    | nil => cases h
    | cons c more =>
      refine ⟨c, more, rfl, ?_⟩
      rintro rfl
      cases h

theorem ItemsStep.readItems {items : List Json}
    (h : ItemsStep fuel depth first (skipBlanks s) rest items) :
    readItems (fuel + 1) depth first s = .ok (items, rest) := by
  generalize hs : skipBlanks s = t at h
  rw [Json.readItems, hs]
  cases h with
  | close hs =>
    subst hs
    rfl
  | @item _ _ v items hstart hv hitems =>
    obtain ⟨c, more, rfl, hc⟩ := eq_cons_of_readValue hv
    have hread : ((readValue fuel depth (c :: more)).bind fun v =>
        (Json.readItems fuel depth false v.2).map fun r => (v.1 :: r.1, r.2)) =
        .ok (v :: items, rest) :=
      bind_eq_ok_iff.mpr ⟨_, hv, map_eq_ok_iff.mpr ⟨_, hitems, rfl⟩⟩
    cases first with
    | true =>
      obtain rfl : c :: more = t := hstart
      simpa [hc] using hread
    | false =>
      obtain ⟨behind, rfl, hbehind⟩ := hstart
      simpa [← hbehind, hc] using hread

theorem MembersStep.readMembers {members : List (Text × Json)}
    (h : MembersStep fuel depth first (skipBlanks s) rest members) :
    readMembers (fuel + 1) depth first s = .ok (members, rest) := by
  generalize hs : skipBlanks s = t at h
  rw [Json.readMembers, hs]
  cases h with
  | close hs =>
    subst hs
    rfl
  | @member written key colon value behind v members hstart hkey hcolon hv hmembers =>
    have hstring := readString_stringText hkey colon
    cases first with
    | true =>
      obtain rfl : '"' :: (written ++ '"' :: colon) = t := hstart
      simp [hstring, hcolon, hv, hmembers, Except.bind, Except.map]
    | false =>
      obtain ⟨more, rfl, hmore⟩ := hstart
      simp [← hmore, hstring, hcolon, hv, hmembers, Except.bind, Except.map]

end Steps

end PluginLint.Json
