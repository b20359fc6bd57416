import PluginLint.Text.Basic

/-!
# Blank characters

The blanks are the characters with the property White_Space. Trimming drops them from the ends of
a text; a blank line is one that holds nothing else.
-/
namespace PluginLint.Text

/-- Whether a character is white space. Zero-width spaces and joiners are not. -/
def isBlank (c : Char) : Bool :=
  let n := c.toNat
  (9 ≤ n && n ≤ 13) || n == 0x20 || n == 0x85 || n == 0xA0 || n == 0x1680 ||
    (0x2000 ≤ n && n ≤ 0x200A) || n == 0x2028 || n == 0x2029 || n == 0x202F || n == 0x205F ||
    n == 0x3000

/-- The text from its first character that is not blank. -/
def trimStart (s : Text) : Text := s.dropWhile isBlank

/-- The text up to its last character that is not blank. -/
def trimEnd (s : Text) : Text := (s.reverse.dropWhile isBlank).reverse

/-- The text between its first and last characters that are not blank. -/
def trim (s : Text) : Text := trimEnd (trimStart s)

/-- The blanks that `trimStart` drops. -/
def leadingBlanks (s : Text) : Text := s.takeWhile isBlank

/-- Whether a line holds nothing but blanks. -/
def isBlankLine (s : Text) : Bool := s.all isBlank

/-- Nothing is lost: the dropped blanks and the rest are the text. -/
theorem leadingBlanks_append_trimStart (s : Text) : leadingBlanks s ++ trimStart s = s :=
  List.takeWhile_append_dropWhile

end PluginLint.Text
