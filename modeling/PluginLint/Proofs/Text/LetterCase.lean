import Mathlib.Data.Char
import PluginLint.Text.Blank
import PluginLint.Text.LetterCase
import PluginLint.Text.WordChar

/-!
# Letters in any case

The characters that simple case folding takes to an ASCII letter are the letter, its capital and,
for two of the letters, one character more (`IsCase`). Folding finds exactly these
(`foldAscii_eq_iff`). All of them belong to words and none is blank.
-/
namespace PluginLint.Text

/-- Whether a character is a small letter in some case. The long s is an s and the Kelvin sign
a k. -/
def IsCase (letter c : Char) : Prop :=
  c = letter ∨ c = letter.toUpper ∨ letter = 's' ∧ c = '\u017F' ∨ letter = 'k' ∧ c = '\u212A'

theorem toNat_of_isLower {c : Char} (h : c.isLower = true) : 97 ≤ c.toNat ∧ c.toNat ≤ 122 := by
  delta Char.isLower at h
  simpa [UInt32.le_iff_toNat_le] using h

theorem isUpper_of_toNat {c : Char} (hlow : 65 ≤ c.toNat) (hhigh : c.toNat ≤ 90) :
    c.isUpper = true := by
  delta Char.isUpper
  simpa [UInt32.le_iff_toNat_le] using ⟨hlow, hhigh⟩

theorem toNat_toUpper {c : Char} (h : c.isLower = true) : c.toUpper.toNat + 32 = c.toNat := by
  have hbounds := toNat_of_isLower h
  delta Char.isLower at h
  rw [Bool.and_eq_true, decide_eq_true_eq, decide_eq_true_eq] at h
  delta Char.toUpper
  rw [dif_pos h]
  show (c.val + ('A'.val - 'a'.val)).toNat + 32 = c.toNat
  have hval : c.val.toNat = c.toNat := rfl
  have hdistance : ('A'.val - 'a'.val).toNat = 4294967264 := by decide
  rw [UInt32.toNat_add]
  omega

theorem toNat_toLower (c : Char) :
    c.toLower.toNat = if 65 ≤ c.toNat ∧ c.toNat ≤ 90 then c.toNat + 32 else c.toNat := by
  have hcapital : c.val ≥ 'A'.val ∧ c.val ≤ 'Z'.val ↔ 65 ≤ c.toNat ∧ c.toNat ≤ 90 := by
    simp [UInt32.le_iff_toNat_le]
  delta Char.toLower
  split
  · next h =>
    have hbounds := hcapital.mp h
    rw [if_pos hbounds]
    show (c.val + ('a'.val - 'A'.val)).toNat = c.toNat + 32
    have hval : c.val.toNat = c.toNat := rfl
    have hdistance : ('a'.val - 'A'.val).toNat = 32 := by decide
    rw [UInt32.toNat_add]
    omega
  · next h => rw [if_neg fun hbounds => h (hcapital.mpr hbounds)]

/-- A character becomes a small letter when it is that letter or its capital. -/
theorem toLower_eq_iff {c letter : Char} (h : letter.isLower = true) :
    c.toLower = letter ↔ c = letter ∨ c = letter.toUpper := by
  have hletter := toNat_of_isLower h
  have hcapital := toNat_toUpper h
  rw [← Char.toNat_inj, ← Char.toNat_inj, ← Char.toNat_inj, toNat_toLower]
  split <;> omega

/-- Folding takes to a small letter that letter in any case and nothing else. -/
theorem foldAscii_eq_iff {c letter : Char} (h : letter.isLower = true) :
    foldAscii c = letter ↔ IsCase letter c := by
  have hletter := toNat_of_isLower h
  have hcapital := toNat_toUpper h
  have hascii {d : Char} (hd : 122 < d.toNat) : d ≠ letter ∧ d ≠ letter.toUpper := by
    constructor <;> (rintro rfl; omega)
  unfold foldAscii IsCase
  split
  · next hlong =>
    subst hlong
    obtain ⟨hsmall, hlarge⟩ := hascii (d := '\u017F') (by decide)
    simp [hsmall, hlarge, eq_comm]
  · split
    · next hlong hkelvin =>
      subst hkelvin
      obtain ⟨hsmall, hlarge⟩ := hascii (d := '\u212A') (by decide)
      simp [hsmall, hlarge, eq_comm]
    · next hlong hkelvin =>
      rw [toLower_eq_iff h]
      simp [hlong, hkelvin]

theorem isWord_of_isCase {c letter : Char} (h : letter.isLower = true) (hc : IsCase letter c) :
    isWord c = true := by
  have hletter := toNat_of_isLower h
  have hcapital := toNat_toUpper h
  rcases hc with rfl | rfl | ⟨-, rfl⟩ | ⟨-, rfl⟩
  · apply isWord_of_isAlphanum
    delta Char.isAlphanum Char.isAlpha
    simp [h]
  · have hupper : letter.toUpper.isUpper = true := isUpper_of_toNat (by omega) (by omega)
    apply isWord_of_isAlphanum
    delta Char.isAlphanum Char.isAlpha
    simp [hupper]
  · decide +kernel
  · decide +kernel

theorem isBlank_of_isCase {c letter : Char} (h : letter.isLower = true) (hc : IsCase letter c) :
    isBlank c = false := by
  have hletter := toNat_of_isLower h
  have hcapital := toNat_toUpper h
  have hascii {d : Char} (hlow : 65 ≤ d.toNat) (hhigh : d.toNat ≤ 122) : isBlank d = false := by
    simp only [isBlank, Bool.or_eq_false_iff, Bool.and_eq_false_iff, decide_eq_false_iff_not,
      beq_eq_false_iff_ne]
    omega
  rcases hc with rfl | rfl | ⟨-, rfl⟩ | ⟨-, rfl⟩
  · exact hascii (by omega) (by omega)
  · exact hascii (by omega) (by omega)
  · decide
  · decide

end PluginLint.Text
