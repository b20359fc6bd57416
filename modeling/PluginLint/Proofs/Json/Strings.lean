import PluginLint.Json.Parser
import PluginLint.Json.Printer
import PluginLint.Proofs.Failure

/-!
# Strings in JSON

Between its quotes a string is written character by character: one that stands for itself, an escape
of one letter or of four hexadecimal digits, or two of these for a character beyond the first 65536
(`StringText`). The reader takes exactly these texts (`readString_iff`), and the printer writes one
of them for every string (`stringText_escape`). A string is written as itself exactly when it holds
nothing that has to be escaped (`stringText_self_iff`).
-/
namespace PluginLint.Json

/-- Whether a text stands for a character between the quotes of a string. -/
inductive CharText : Text → Char → Prop
  | plain {c : Char} (hquote : c ≠ '"') (hslash : c ≠ '\\') (hcontrol : 0x20 ≤ c.toNat) :
    CharText [c] c
  | letter {c e : Char} (h : simpleEscape? c = some e) : CharText ['\\', c] e
  | unit {a b c d : Char} {n : Nat} (h : hexQuad? a b c d = some n)
    (hunit : n < 0xD800 ∨ 0xDFFF < n) : CharText ['\\', 'u', a, b, c, d] (Char.ofNat n)
  | pair {a b c d a' b' c' d' : Char} {high low : Nat} (hhigh : hexQuad? a b c d = some high)
    (hlow : hexQuad? a' b' c' d' = some low) (hfirst : 0xD800 ≤ high ∧ high ≤ 0xDBFF)
    (hsecond : 0xDC00 ≤ low ∧ low ≤ 0xDFFF) :
    CharText ['\\', 'u', a, b, c, d, '\\', 'u', a', b', c', d']
      (Char.ofNat ((high - 0xD800) * 0x400 + (low - 0xDC00) + 0x10000))

/-- Whether a text stands for a string between its quotes. -/
inductive StringText : Text → Text → Prop
  | nil : StringText [] []
  | cons {piece written s : Text} {c : Char} (first : CharText piece c)
    (rest : StringText written s) : StringText (piece ++ written) (c :: s)

/-! ## The reader -/

/-- The reader takes one character after the other. -/
theorem readString_charText {piece : Text} {c : Char} (h : CharText piece c) (s : Text) :
    readString (piece ++ s) = (readString s).map fun r => (c :: r.1, r.2) := by
  cases h with
  | plain hquote hslash hcontrol => simp [readString, hslash, Nat.not_lt.mpr hcontrol]
  | letter h =>
    have hletter : ∀ d, simpleEscape? d = some c → d ≠ 'u' := by
      rintro d hd rfl
      cases hd
    simp [readString, hletter _ h, h]
  | @unit a b c d n h hunit =>
    have hlow : ¬ (0xDC00 ≤ n ∧ n ≤ 0xDFFF) := by omega
    have hhigh : n < 0xD800 ∨ 0xDBFF < n := by omega
    simp [readString, h, hlow, hhigh]
  | @pair _ _ _ _ _ _ _ _ high low hhigh hlow hfirst hsecond =>
    have hnotLow : ¬ (0xDC00 ≤ high ∧ high ≤ 0xDFFF) := by omega
    have hpair : ¬ (high < 0xD800 ∨ 0xDBFF < high) := by omega
    have hinside : ¬ (low < 0xDC00 ∨ 0xDFFF < low) := by omega
    simp [readString, hhigh, hlow, hnotLow, hpair, hinside]

theorem readString_stringText {written s : Text} (h : StringText written s) (rest : Text) :
    readString (written ++ '"' :: rest) = .ok (s, rest) := by
  induction h with
  | nil => rw [List.nil_append, readString]
  | cons first _ ih => rw [List.append_assoc, readString_charText first, ih, Except.map]

theorem not_ok_failHex {α : Type} {s : Text} {a : α} : failHex s ≠ .ok a := by
  unfold failHex
  split <;> exact fun h => nomatch h

/-- What the reader takes first is the closing quote or a character. -/
theorem readString_cases {t s rest : Text} (h : readString t = .ok (s, rest)) :
    (s = [] ∧ t = '"' :: rest) ∨ ∃ piece c more s', CharText piece c ∧ t = piece ++ more ∧
      readString more = .ok (s', rest) ∧ s = c :: s' := by
  have hread {c : Char} {piece more : Text} (hpiece : CharText piece c)
      (hmore : (readString more).map (fun r => (c :: r.1, r.2)) = .ok (s, rest)) :
      ∃ piece' c' more' s', CharText piece' c' ∧ piece ++ more = piece' ++ more' ∧
        readString more' = .ok (s', rest) ∧ s = c' :: s' := by
    obtain ⟨⟨s', rest'⟩, hs, heq⟩ := map_eq_ok_iff.mp hmore
    cases heq
    exact ⟨piece, c, more, s', hpiece, rfl, hs, rfl⟩
  revert h
  fun_cases readString t
  case case2 more =>
    intro h
    cases h
    exact .inl ⟨rfl, rfl⟩
  case case5 a b c d more n hunit hlow hhigh =>
    have hrange : n < 0xD800 ∨ 0xDFFF < n := by omega
    exact fun h => .inr (hread (.unit hunit hrange) h)
  case case8 a b c d high hfirst hlow hhigh a' b' c' d' more low hsecond hrange =>
    have hpair : 0xD800 ≤ high ∧ high ≤ 0xDBFF := by omega
    have hinside : 0xDC00 ≤ low ∧ low ≤ 0xDFFF := by omega
    exact fun h => .inr (hread (.pair hfirst hsecond hpair hinside) h)
  case case16 c more _ _ e hletter => exact fun h => .inr (hread (.letter hletter) h)
  case case19 c more hquote _ _ hend hmore hcontrol =>
    have hslash : c ≠ '\\' := by
      intro hc
      cases more with
      | nil => exact hend hc rfl
      | cons d more => exact hmore d more hc rfl
    exact fun h => .inr (hread (.plain hquote hslash (Nat.not_lt.mp hcontrol)) h)
  all_goals
    intro h
    first
      | cases h
      | exact absurd h not_ok_failHex

theorem readString_iff {t s rest : Text} : readString t = .ok (s, rest) ↔
    ∃ written, StringText written s ∧ t = written ++ '"' :: rest := by
  constructor
  · intro h
    induction s generalizing t with
    | nil =>
      obtain ⟨-, rfl⟩ | ⟨_, _, _, _, -, -, -, hs⟩ := readString_cases h
      · exact ⟨[], .nil, rfl⟩
      · cases hs
    | cons c s ih =>
      obtain ⟨hs, -⟩ | ⟨piece, _, more, _, hpiece, rfl, hread, hs⟩ := readString_cases h
      · cases hs
      · cases hs
        obtain ⟨written, hwritten, rfl⟩ := ih hread
        exact ⟨piece ++ written, .cons hpiece hwritten, (List.append_assoc ..).symm⟩
  · rintro ⟨written, hwritten, rfl⟩
    exact readString_stringText hwritten rest

/-! ## The printer -/

theorem hexQuad?_hexDigit : ∀ n < 0x20,
    hexQuad? '0' '0' (hexDigit (n / 16)) (hexDigit (n % 16)) = some n := by
  decide

theorem charText_escape (c : Char) : CharText (escape c) c := by
  unfold escape
  split_ifs with hquote hslash hfeed hreturn htab hback hform hcontrol
  · subst hquote
    exact .letter rfl
  · subst hslash
    exact .letter rfl
  · subst hfeed
    exact .letter rfl
  · subst hreturn
    exact .letter rfl
  · subst htab
    exact .letter rfl
  · subst hback
    exact .letter rfl
  · subst hform
    exact .letter rfl
  · have hunit := CharText.unit (hexQuad?_hexDigit c.toNat hcontrol) (by omega)
    rwa [Char.ofNat_toNat] at hunit
  · exact .plain hquote hslash (Nat.not_lt.mp hcontrol)

/-- What the printer writes for a string stands for it. -/
theorem stringText_escape (s : Text) : StringText (s.flatMap escape) s := by
  induction s with
  | nil => exact .nil
  | cons c s ih => exact .cons (charText_escape c) ih

/-! ## Strings that are written as themselves -/

/-- Whether a character has to be escaped in a string. -/
def NeedsEscape (c : Char) : Prop := c = '"' ∨ c = '\\' ∨ c.toNat < 0x20

instance : DecidablePred NeedsEscape := fun _ => inferInstanceAs (Decidable (_ ∨ _ ∨ _))

theorem not_needsEscape_of_all {s : Text} (h : (s.all fun c => !decide (NeedsEscape c)) = true) :
    ∀ c ∈ s, ¬ NeedsEscape c := by
  simpa using h

theorem CharText.length_pos {piece : Text} {c : Char} (h : CharText piece c) :
    0 < piece.length := by
  cases h <;> exact Nat.succ_pos _

theorem StringText.length_le {written s : Text} (h : StringText written s) :
    s.length ≤ written.length := by
  induction h with
  | nil => exact Nat.le_refl 0
  | cons first _ ih =>
    have hpos := first.length_pos
    rw [List.length_append, List.length_cons]
    omega

/-- No character of a text that is as short as its string stands for another. -/
theorem StringText.eq_of_length_eq {written s : Text} (h : StringText written s)
    (hlength : written.length = s.length) : written = s ∧ ∀ c ∈ s, ¬ NeedsEscape c := by
  induction h with
  | nil => exact ⟨rfl, List.forall_mem_nil _⟩
  | @cons piece _ _ _ first rest ih =>
    have hrest := rest.length_le
    have hpos := first.length_pos
    rw [List.length_append, List.length_cons] at hlength
    have hone : piece.length = 1 := by omega
    obtain ⟨rfl, hall⟩ := ih (by omega)
    cases first with
    | plain hquote hslash hcontrol =>
      refine ⟨rfl, List.forall_mem_cons.mpr ⟨?_, hall⟩⟩
      rintro (hc | hc | hc)
      · exact hquote hc
      · exact hslash hc
      · exact Nat.not_lt.mpr hcontrol hc
    | letter h => simp at hone
    | unit h hunit => simp at hone
    | pair hhigh hlow hfirst hsecond => simp at hone

theorem stringText_self_iff (s : Text) : StringText s s ↔ ∀ c ∈ s, ¬ NeedsEscape c := by
  constructor
  · exact fun h => (h.eq_of_length_eq rfl).2
  · intro h
    induction s with
    | nil => exact .nil
    | cons c s ih =>
      obtain ⟨hc, hs⟩ := List.forall_mem_cons.mp h
      have hcontrol : 0x20 ≤ c.toNat := Nat.not_lt.mp fun hlow => hc (.inr (.inr hlow))
      exact .cons (.plain (fun h => hc (.inl h)) (fun h => hc (.inr (.inl h))) hcontrol) (ih hs)

end PluginLint.Json
