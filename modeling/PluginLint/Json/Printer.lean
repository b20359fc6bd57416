import PluginLint.Json.Value

/-!
# Printing JSON

Two layouts of a value: `compact` has no blanks, `pretty` puts every item on a line of its own,
indented by two spaces a level, and writes empty arrays and objects without a line. A string
escapes only quotes, backslashes and control characters. A binary64 is written with the fewest
digits that read back, positionally between 10^-5 and 10^16.
-/
namespace PluginLint.Json

def hexDigit (n : Nat) : Char := "0123456789abcdef".toList.getD n '0'

/-- A character of a string as it is written. -/
def escape (c : Char) : Text :=
  if c = '"' then ['\\', '"']
  else if c = '\\' then ['\\', '\\']
  else if c = '\n' then ['\\', 'n']
  else if c = '\r' then ['\\', 'r']
  else if c = '\t' then ['\\', 't']
  else if c = '\x08' then ['\\', 'b']
  else if c = '\x0c' then ['\\', 'f']
  else if c.toNat < 0x20 then
    ['\\', 'u', '0', '0', hexDigit (c.toNat / 16), hexDigit (c.toNat % 16)]
  else [c]

/-- A string in quotes. -/
def quote (s : Text) : Text := '"' :: (s.flatMap escape ++ ['"'])

/-- Digits without the zeros at the end. -/
def significantDigits (n : Nat) : Text :=
  ((Nat.toDigits 10 n).reverse.dropWhile (· = '0')).reverse

/-- Digits with a point after the first `whole` of them, zeros filling either side. -/
def positional (digits : Text) (lead : Int) : Text :=
  if 0 ≤ lead then
    let whole := lead.toNat + 1
    let fraction := digits.drop whole
    digits.take whole ++ List.replicate (whole - digits.length) '0' ++ ['.'] ++
      (if fraction = [] then ['0'] else fraction)
  else ['0', '.'] ++ List.replicate ((-lead).toNat - 1) '0' ++ digits

/-- Digits with a point after the first and a signed exponent. -/
def scientific (digits : Text) (lead : Int) : Text :=
  let point := if digits.length ≤ 1 then digits else digits.take 1 ++ ['.'] ++ digits.drop 1
  let sign := if lead < 0 then '-' else '+'
  point ++ ['e', sign] ++ Nat.toDigits 10 lead.natAbs

/-- A magnitude as it is written. -/
def magnitude (x : Binary64) : Text :=
  if x.isZero then ['0', '.', '0']
  else
    let decimal := x.shortest
    let digits := significantDigits decimal.digits
    let lead : Int := decimal.exponent + (Nat.toDigits 10 decimal.digits).length - 1
    if -5 ≤ lead ∧ lead < 16 then positional digits lead else scientific digits lead

def Number.text : Number → Text
  | .whole value => (toString value).toList
  | .binary negative x => (if negative then ['-'] else []) ++ magnitude x

mutual

/-- A value without blanks. -/
def compact : Json → Text
  | .null => "null".toList
  | .bool true => "true".toList
  | .bool false => "false".toList
  | .number value => value.text
  | .string value => quote value
  | .array items => '[' :: (compactItems items ++ [']'])
  | .object members => '{' :: (compactMembers members ++ ['}'])

def compactItems : List Json → Text
  | [] => []
  | [item] => compact item
  | item :: next :: rest => compact item ++ ',' :: compactItems (next :: rest)

def compactMembers : List (Text × Json) → Text
  | [] => []
  | [(key, value)] => quote key ++ ':' :: compact value
  | (key, value) :: next :: rest =>
    quote key ++ ':' :: (compact value ++ ',' :: compactMembers (next :: rest))

end

/-- A line feed and the indentation of a level. -/
def lineAt (level : Nat) : Text := '\n' :: List.replicate (2 * level) ' '

mutual

/-- A value with one item a line, the items of this value at `level + 1`. -/
def prettyAt (level : Nat) : Json → Text
  | .array (item :: rest) =>
    '[' :: (prettyItems (level + 1) (item :: rest) ++ lineAt level ++ [']'])
  | .object (m :: rest) =>
    '{' :: (prettyMembers (level + 1) (m :: rest) ++ lineAt level ++ ['}'])
  | .null => "null".toList
  | .bool true => "true".toList
  | .bool false => "false".toList
  | .number value => value.text
  | .string value => quote value
  | .array [] => ['[', ']']
  | .object [] => ['{', '}']

def prettyItems (level : Nat) : List Json → Text
  | [] => []
  | [item] => lineAt level ++ prettyAt level item
  | item :: next :: rest =>
    lineAt level ++ prettyAt level item ++ ',' :: prettyItems level (next :: rest)

def prettyMembers (level : Nat) : List (Text × Json) → Text
  | [] => []
  | [(key, value)] => lineAt level ++ quote key ++ ':' :: ' ' :: prettyAt level value
  | (key, value) :: next :: rest =>
    lineAt level ++ quote key ++ ':' :: ' ' :: (prettyAt level value ++
      ',' :: prettyMembers level (next :: rest))

end

/-- A value laid out over lines. -/
def pretty (value : Json) : Text := prettyAt 0 value

end PluginLint.Json
