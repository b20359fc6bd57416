import PluginLint.Text.Blank
import PluginLint.Text.LetterCase

/-!
# Counting units

A counter gives a text its number of units. The approximate counter, four characters to a unit, is
always at hand. The precise one is a library of its own that a program may be built without and that
may fail to load, so it is a parameter here and may be any counter.
-/
namespace PluginLint

structure Counter where
  count : Text → Nat
  /-- what the counter calls itself in reports -/
  method : String

/-- Four characters to a unit, rounded down. -/
def Counter.approximate : Counter := ⟨fun s => s.length / 4, "approximation (~4 chars/token)"⟩

/-- The method of counting that settings ask for. -/
inductive CountingMethod where
  /-- the precise one where it is at hand -/
  | automatic
  | precise
  | approximate
  deriving DecidableEq, Repr

namespace CountingMethod

def word : CountingMethod → String
  | .automatic => "auto"
  | .precise => "tiktoken"
  | .approximate => "approximate"

/-- The method that a word of a settings file names. -/
def ofWord? (s : Text) : Option CountingMethod :=
  [automatic, precise, approximate].find? fun m => m.word.toList = s

/-- A word in any case, without blanks around it. -/
def plainWord (s : Text) : Text := Text.lowercase (Text.trim s)

/-- The method that a text names in any of its spellings. -/
def ofText? (s : Text) : Option CountingMethod :=
  let word := plainWord s
  if word = "auto".toList then some .automatic
  else if ["tiktoken".toList, "precise".toList].contains word then some .precise
  else if ["approximate".toList, "approx".toList, "approximation".toList].contains word then
    some .approximate
  else none

/-- The counter that a method comes down to where a precise one is at hand or none is. -/
def counter (m : CountingMethod) (precise? : Option Counter := none) : Counter :=
  match m with
  | .approximate => .approximate
  | .automatic | .precise => precise?.getD .approximate

end CountingMethod
end PluginLint
