import PluginLint.Text.Basic

/-!
# Natural numbers in settings

A count is written in ASCII digits, with at most one plus sign before them, and must fit 64 bits.
The digits are read from the left and the first thing wrong decides the error.
-/
namespace PluginLint.Natural

inductive Error where
  | empty
  | badDigit
  | tooLarge
  deriving DecidableEq, Repr

def Error.message : Error → String
  | .empty => "cannot parse integer from empty string"
  | .badDigit => "invalid digit found in string"
  | .tooLarge => "number too large to fit in target type"

/-- The largest count, one below 2^64. -/
def max : Nat := 18446744073709551615

/-- Reads digits after a number that is already read. -/
def readDigits (seen : Nat) : Text → Except Error Nat
  | [] => .ok seen
  | c :: rest =>
    if c.isDigit then
      let next := seen * 10 + (c.toNat - '0'.toNat)
      if next ≤ max then readDigits next rest else .error .tooLarge
    else .error .badDigit

/-- Reads a count. A sign alone is no number. -/
def parse : Text → Except Error Nat
  | [] => .error .empty
  | '+' :: c :: rest => readDigits 0 (c :: rest)
  | s => readDigits 0 s

example : parse "+007".toList = .ok 7 := rfl
example : parse "18446744073709551616".toList = .error .tooLarge := rfl

end PluginLint.Natural
