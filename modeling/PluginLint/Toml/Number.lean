import PluginLint.Toml.Item

/-!
# TOML numbers

Integers in four bases and numbers with a fraction or an exponent. Underscores may group the
digits; a decimal number has no zeros in front. A number is checked when it is read only as far as
is needed to tell what it is, so a decimal integer with underscores may end in characters that are
no digits, and a base may stand without digits. Such a number has no value, and a setting that
takes it has none either.
-/
namespace PluginLint.Toml

/-- The value of a digit in any base up to sixteen. -/
def digitValue (c : Char) : Nat :=
  if c.isDigit then c.toNat - '0'.toNat else c.toLower.toNat - 'a'.toNat + 10

def isDigitOf (base : Nat) (c : Char) : Bool :=
  (c.isDigit || ('a' ≤ c.toLower && c.toLower ≤ 'f')) && digitValue c < base

/-- Whether the underscores of a number stand between digits: each is followed by a digit, and
comes after a digit or after the first character. What follows the last of them is looked at no
further than that. -/
def isGrouped (isDigit : Char → Bool) (s : Text) : Bool :=
  let groups := s.splitOn '_'
  groups.all (· ≠ []) && groups.tail.all (fun g => g.head?.any isDigit) &&
    groups.dropLast.all fun g => g.length = 1 || g.getLast?.any isDigit

/-- The number that digits and underscores stand for. -/
def valueOf (base : Nat) (s : Text) : Nat :=
  (s.filter (· ≠ '_')).foldl (fun n c => n * base + digitValue c) 0

def unsigned (s : Text) : Text :=
  match s with
  | '+' :: rest | '-' :: rest => rest
  | _ => s

/-- An integer in a base other than ten, after the letter of its base. -/
def radixInteger? (base : Nat) (digits : Text) : Option Item :=
  let isDigit := isDigitOf base
  if digits = [] then some .other
  else if digits.all (fun c => isDigit c || c == '_') ∧ isGrouped isDigit digits then
    some (.integer (valueOf base digits))
  else none

/-- Digits and underscores at the front of a text, a digit among them, and what follows. -/
def digitRun? (s : Text) : Option (Text × Text) :=
  let run := s.takeWhile fun c => c.isDigit || c == '_'
  if run.any Char.isDigit then some (run, s.drop run.length) else none

/-- The text after a fraction, if one starts here. -/
def afterFraction? : Text → Option Text
  | '.' :: rest => (digitRun? rest).map (·.2)
  | s => some s

/-- The text after an exponent, if one starts here. -/
def afterExponent? : Text → Option Text
  | 'e' :: rest | 'E' :: rest => (digitRun? (unsigned rest)).map (·.2)
  | s => some s

/-- Whether a text is a number without a sign, with a fraction and an exponent or without. -/
def isFloat (s : Text) : Bool :=
  match digitRun? s with
  | some (whole, rest) =>
    !(whole.head? == some '0' && 1 < (whole.filter Char.isDigit).length) &&
      (afterFraction? rest).bind afterExponent? == some []
  | none => false

/-- A decimal number, with a sign or without. -/
def decimal? (s : Text) : Option Item :=
  let magnitude := unsigned s
  let rest := magnitude.dropWhile Char.isDigit
  let value : Int := if s.head? = some '-' then -valueOf 10 magnitude else valueOf 10 magnitude
  if rest.any fun c => c == '.' || c == 'e' || c == 'E' then
    if isFloat magnitude && isGrouped Char.isDigit s then some .other else none
  else if magnitude.head? = some '0' ∧ magnitude ≠ ['0'] then none
  else if rest = [] ∧ magnitude ≠ [] then some (.integer value)
  else if rest.head? = some '_' ∧ isGrouped (isDigitOf 16) s then
    some (if magnitude.all fun c => c.isDigit || c == '_' then .integer value else .other)
  else none

/-- The number that a text stands for. -/
def number? (s : Text) : Option Item :=
  match s with
  | '0' :: 'x' :: digits => radixInteger? 16 digits
  | '0' :: 'o' :: digits => radixInteger? 8 digits
  | '0' :: 'b' :: digits => radixInteger? 2 digits
  | _ =>
    if unsigned s = "inf".toList ∨ unsigned s = "nan".toList then some .other else decimal? s

end PluginLint.Toml
