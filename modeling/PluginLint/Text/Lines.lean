import PluginLint.Text.Basic

/-!
# Lines

A line ends at a line feed, and a carriage return right before that line feed belongs to the end
of the line and not to its text. A last line without a line feed keeps its carriage return, and a
text that ends in a line feed has no empty line after it.
-/
namespace PluginLint.Text

/-- The lines of a text, without their ends. -/
def lines : Text → List Text
  | [] => []
  | '\n' :: rest => [] :: lines rest
  | '\r' :: '\n' :: rest => [] :: lines rest
  | c :: rest =>
    match lines rest with
    | [] => [[c]]
    | line :: more => (c :: line) :: more

/-- How many line feeds a text holds. -/
def newlines (s : Text) : Nat := s.count '\n'

example : lines "a\r\nb\n\nc\r".toList = ["a".toList, "b".toList, [], "c\r".toList] := by decide

end PluginLint.Text
