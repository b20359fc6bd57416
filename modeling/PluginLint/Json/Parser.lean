import PluginLint.Json.Value

/-!
# Reading JSON

A reader of one value that says, when a text is refused, what was wrong and where. The place is
counted in bytes: a failure keeps how many bytes were left unread, and `position` turns that into
a line and a column once the whole text is at hand. A failure on a character that was only looked
at points one byte past the start of it, or at the end of the text.
-/
namespace PluginLint.Json

/-- What is wrong with a text. -/
inductive Cause where
  | endInValue
  | endInArray
  | endInObject
  | endInString
  | expectedColon
  | expectedArrayEnd
  | expectedObjectEnd
  | expectedIdent
  | expectedValue
  | keyNotString
  | trailingComma
  | trailingCharacters
  | badNumber
  | numberOutOfRange
  | badEscape
  | brokenPair
  | loneSurrogate
  | controlCharacter
  | tooDeep
  deriving DecidableEq, Repr

def Cause.message : Cause → String
  | .endInValue => "EOF while parsing a value"
  | .endInArray => "EOF while parsing a list"
  | .endInObject => "EOF while parsing an object"
  | .endInString => "EOF while parsing a string"
  | .expectedColon => "expected `:`"
  | .expectedArrayEnd => "expected `,` or `]`"
  | .expectedObjectEnd => "expected `,` or `\x7d`"
  | .expectedIdent => "expected ident"
  | .expectedValue => "expected value"
  | .keyNotString => "key must be a string"
  | .trailingComma => "trailing comma"
  | .trailingCharacters => "trailing characters"
  | .badNumber => "invalid number"
  | .numberOutOfRange => "number out of range"
  | .badEscape => "invalid escape"
  | .brokenPair => "unexpected end of hex escape"
  | .loneSurrogate => "lone leading surrogate in hex escape"
  | .controlCharacter => "control character (\\u0000-\\u001F) found while parsing a string"
  | .tooDeep => "recursion limit exceeded"

/-- A failure with the number of bytes after it. -/
structure Failure where
  cause : Cause
  unread : Nat
  deriving DecidableEq, Repr

/-- A failure on the character in front of `s`, which was only looked at. -/
def failAt {α : Type} (cause : Cause) (s : Text) : Except Failure α :=
  .error ⟨cause, Text.byteCount s - 1⟩

/-- A failure on what was read last before `s`. -/
def failBefore {α : Type} (cause : Cause) (s : Text) : Except Failure α :=
  .error ⟨cause, Text.byteCount s⟩

def isJsonBlank (c : Char) : Bool := c == ' ' || c == '\n' || c == '\t' || c == '\r'

def skipBlanks (s : Text) : Text := s.dropWhile isJsonBlank

/-- Reads the rest of a word such as `true`. -/
def readWord : Text → Text → Except Failure Text
  | [], s => .ok s
  | _ :: _, [] => failBefore .endInValue []
  | e :: expected, c :: rest =>
    if c = e then readWord expected rest else failAt .expectedIdent (c :: rest)

/-! ## Numbers -/

def digitValue (c : Char) : Nat := c.toNat - '0'.toNat

/-- The largest whole number that digits are gathered into, one below 2^64. -/
def significandLimit : Nat := 18446744073709551615

/-- Digits gathered into a number while it stays within the limit: the number, how many digits
went into it, how many were left out after that, and the rest. -/
def gatherDigits (seen used : Nat) : Text → Nat × Nat × Nat × Text
  | [] => (seen, used, 0, [])
  | c :: rest =>
    if c.isDigit then
      let next := seen * 10 + digitValue c
      if next ≤ significandLimit then gatherDigits next (used + 1) rest
      else
        let more := (c :: rest).takeWhile Char.isDigit
        (seen, used, more.length, (c :: rest).drop more.length)
    else (seen, used, 0, c :: rest)

/-- `x · 10^exponent`, by one multiplication or division with a power of ten up to 308; nothing
when it is out of range. Three divisions by 10^308 leave nothing of a 64-bit number. -/
def scale (x : Binary64) (exponent : Int) : Nat → Option Binary64
  | 0 => some Binary64.zero
  | tries + 1 =>
    if exponent.natAbs ≤ 308 then
      (Binary64.powerOfTen exponent.natAbs).bind fun power =>
        if 0 ≤ exponent then x.mul power else x.div power
    else if x.isZero then some x
    else if 0 ≤ exponent then none
    else
      (Binary64.powerOfTen 308).bind fun power =>
        (x.div power).bind fun y => scale y (exponent + 308) tries

/-- The number `significand · 10^exponent`, read up to `rest`. -/
def scaledNumber (negative : Bool) (significand : Nat) (exponent : Int) (rest : Text) :
    Except Failure (Number × Text) :=
  match (Binary64.nearest significand 1).bind fun x => scale x exponent 4 with
  | some x => .ok (.binary negative x, rest)
  | none => failBefore .numberOutOfRange rest

/-- The largest exponent that is counted, one below 2^31. -/
def exponentLimit : Nat := 2147483647

/-- Digits of an exponent: the exponent and the rest, or the rest where it passed the limit. -/
def exponentDigits (seen : Nat) : Text → Sum (Nat × Text) Text
  | [] => .inl (seen, [])
  | c :: rest =>
    if c.isDigit then
      let next := seen * 10 + digitValue c
      if next ≤ exponentLimit then exponentDigits next rest else .inr rest
    else .inl (seen, c :: rest)

/-- Reads what follows the letter of an exponent. -/
def readExponent (negative : Bool) (significand : Nat) (shift : Int) (s : Text) :
    Except Failure (Number × Text) :=
  let (down, s) : Bool × Text :=
    match s with
    | '+' :: rest => (false, rest)
    | '-' :: rest => (true, rest)
    | _ => (false, s)
  match s with
  | [] => failBefore .endInValue []
  | c :: rest =>
    if c.isDigit then
      match exponentDigits (digitValue c) rest with
      | .inl (e, rest) =>
        scaledNumber negative significand (if down then shift - e else shift + e) rest
      | .inr rest =>
        if significand ≠ 0 ∧ !down then failBefore .numberOutOfRange rest
        else .ok (.binary negative Binary64.zero, rest.dropWhile Char.isDigit)
    else failAt .badNumber (c :: rest)

/-- Reads the exponent of a number that has a fraction or too many digits, if there is one. -/
def readScale (negative : Bool) (significand : Nat) (shift : Int) (s : Text) :
    Except Failure (Number × Text) :=
  match s with
  | c :: rest =>
    if c = 'e' ∨ c = 'E' then readExponent negative significand shift rest
    else scaledNumber negative significand shift s
  | [] => scaledNumber negative significand shift []

/-- Reads what follows the point. -/
def readFraction (negative : Bool) (significand : Nat) (shift : Int) (s : Text) :
    Except Failure (Number × Text) :=
  let (significand, used, dropped, rest) := gatherDigits significand 0 s
  if used = 0 ∧ dropped = 0 then
    match s with
    | [] => failBefore .endInValue []
    | _ => failAt .badNumber s
  else readScale negative significand (shift - used) rest

/-- A whole number, unless it is minus zero or too far below zero. -/
def wholeNumber (negative : Bool) (n : Nat) : Number :=
  if !negative then .whole n
  else if n = 0 ∨ 9223372036854775808 < n then
    .binary true ((Binary64.nearest n 1).getD Binary64.zero)
  else .whole (-n)

/-- Reads what follows the digits before the point, `dropped` of which did not fit. -/
def readAfterDigits (negative : Bool) (significand dropped : Nat) (s : Text) :
    Except Failure (Number × Text) :=
  match s with
  | '.' :: rest => readFraction negative significand dropped rest
  | _ =>
    if dropped = 0 ∧ s.head? ≠ some 'e' ∧ s.head? ≠ some 'E' then
      .ok (wholeNumber negative significand, s)
    else readScale negative significand dropped s

/-- Reads a number after its sign. -/
def readNumber (negative : Bool) (s : Text) : Except Failure (Number × Text) :=
  match s with
  | [] => failBefore .endInValue []
  | c :: rest =>
    if c = '0' then
      if rest.head?.any Char.isDigit then failAt .badNumber rest
      else readAfterDigits negative 0 0 rest
    else if c.isDigit then
      let (significand, _, dropped, rest) := gatherDigits 0 0 (c :: rest)
      readAfterDigits negative significand dropped rest
    else failAt .badNumber (c :: rest)

/-! ## Strings -/

def hexValue? (c : Char) : Option Nat :=
  if c.isDigit then some (c.toNat - '0'.toNat)
  else if 'a' ≤ c ∧ c ≤ 'f' then some (c.toNat - 'a'.toNat + 10)
  else if 'A' ≤ c ∧ c ≤ 'F' then some (c.toNat - 'A'.toNat + 10)
  else none

def hexQuad? (a b c d : Char) : Option Nat := do
  return (((← hexValue? a) * 16 + (← hexValue? b)) * 16 + (← hexValue? c)) * 16 + (← hexValue? d)

/-- The failure of an escape whose four digits are not all there, with `s` after its letter. -/
def failHex {α : Type} (s : Text) : Except Failure α :=
  if Text.byteCount s < 4 then failBefore .endInString []
  else .error ⟨.badEscape, Text.byteCount s - 4⟩

/-- The character of a one-letter escape. -/
def simpleEscape? (c : Char) : Option Char :=
  if c = '"' ∨ c = '\\' ∨ c = '/' then some c
  else if c = 'b' then some '\x08'
  else if c = 'f' then some '\x0c'
  else if c = 'n' then some '\n'
  else if c = 'r' then some '\r'
  else if c = 't' then some '\t'
  else none

/-- Reads a string after its opening quote. -/
def readString : Text → Except Failure (Text × Text)
  | [] => failBefore .endInString []
  | '"' :: rest => .ok ([], rest)
  | '\\' :: 'u' :: a :: b :: c :: d :: rest =>
    match hexQuad? a b c d with
    | none => failHex (a :: b :: c :: d :: rest)
    | some high =>
      if 0xDC00 ≤ high ∧ high ≤ 0xDFFF then failBefore .loneSurrogate rest
      else if high < 0xD800 ∨ 0xDBFF < high then
        (readString rest).map fun r => (Char.ofNat high :: r.1, r.2)
      else
        match rest with
        | '\\' :: 'u' :: a :: b :: c :: d :: rest =>
          match hexQuad? a b c d with
          | none => failHex (a :: b :: c :: d :: rest)
          | some low =>
            if low < 0xDC00 ∨ 0xDFFF < low then failBefore .loneSurrogate rest
            else
              (readString rest).map fun r =>
                (Char.ofNat ((high - 0xD800) * 0x400 + (low - 0xDC00) + 0x10000) :: r.1, r.2)
        | ['\\'] => failBefore .endInString []
        | '\\' :: 'u' :: rest => failHex rest
        | '\\' :: rest => failAt .brokenPair rest
        | [] => failBefore .endInString []
        | _ => failAt .brokenPair rest
  | '\\' :: 'u' :: rest => failHex rest
  | ['\\'] => failBefore .endInString []
  | '\\' :: c :: rest =>
    match simpleEscape? c with
    | some e => (readString rest).map fun r => (e :: r.1, r.2)
    | none => failAt .badEscape (c :: rest)
  | c :: rest =>
    if c.toNat < 0x20 then failBefore .controlCharacter rest
    else (readString rest).map fun r => (c :: r.1, r.2)

/-! ## Values -/

/-- How deep arrays and objects may be nested. -/
def depthLimit : Nat := 127

mutual

/-- Reads a value. `depth` is how many more levels may open; `fuel` bounds the steps. -/
def readValue : Nat → Nat → Text → Except Failure (Json × Text)
  | 0, _, s => failAt .tooDeep s
  | fuel + 1, depth, s =>
    match skipBlanks s with
    | [] => failAt .endInValue []
    | 'n' :: rest => (readWord "ull".toList rest).map fun rest => (.null, rest)
    | 't' :: rest => (readWord "rue".toList rest).map fun rest => (.bool true, rest)
    | 'f' :: rest => (readWord "alse".toList rest).map fun rest => (.bool false, rest)
    | '"' :: rest => (readString rest).map fun r => (.string r.1, r.2)
    | '-' :: rest => (readNumber true rest).map fun r => (.number r.1, r.2)
    | '[' :: rest =>
      match depth with
      | 0 => failAt .tooDeep ('[' :: rest)
      | depth + 1 => (readItems fuel depth true rest).map fun r => (.array r.1, r.2)
    | '{' :: rest =>
      match depth with
      | 0 => failAt .tooDeep ('{' :: rest)
      | depth + 1 => (readMembers fuel depth true rest).map fun r => (ofMembers r.1, r.2)
    | c :: rest =>
      if c.isDigit then (readNumber false (c :: rest)).map fun r => (.number r.1, r.2)
      else failAt .expectedValue (c :: rest)

/-- Reads items up to the closing bracket. -/
def readItems : Nat → Nat → Bool → Text → Except Failure (List Json × Text)
  | 0, _, _, s => failAt .tooDeep s
  | fuel + 1, depth, first, s =>
    let item (s : Text) : Except Failure (List Json × Text) :=
      (readValue fuel depth s).bind fun v =>
        (readItems fuel depth false v.2).map fun r => (v.1 :: r.1, r.2)
    match skipBlanks s with
    | [] => failAt .endInArray []
    | ']' :: rest => .ok ([], rest)
    | c :: rest =>
      if first then item (c :: rest)
      else if c = ',' then
        match skipBlanks rest with
        | [] => failAt .endInValue []
        | ']' :: rest => failAt .trailingComma (']' :: rest)
        | rest => item rest
      else failAt .expectedArrayEnd (c :: rest)

/-- Reads members up to the closing brace, in the order they are written. -/
def readMembers : Nat → Nat → Bool → Text → Except Failure (List (Text × Json) × Text)
  | 0, _, _, s => failAt .tooDeep s
  | fuel + 1, depth, first, s =>
    let member (s : Text) : Except Failure (List (Text × Json) × Text) :=
      (readString s).bind fun k =>
        match skipBlanks k.2 with
        | [] => failAt .endInObject []
        | ':' :: rest =>
          (readValue fuel depth rest).bind fun v =>
            (readMembers fuel depth false v.2).map fun r => ((k.1, v.1) :: r.1, r.2)
        | c :: rest => failAt .expectedColon (c :: rest)
    match skipBlanks s with
    | [] => failAt .endInObject []
    | '}' :: rest => .ok ([], rest)
    | c :: rest =>
      if first then (if c = '"' then member rest else failAt .keyNotString (c :: rest))
      else if c = ',' then
        match skipBlanks rest with
        | [] => failAt .endInValue []
        | '"' :: rest => member rest
        | '}' :: rest => failAt .trailingComma ('}' :: rest)
        | c :: rest => failAt .keyNotString (c :: rest)
      else failAt .expectedObjectEnd (c :: rest)

end

/-- Reads a text that holds one value and blanks around it. Twice as many steps as characters
are enough, since every second step takes a character. -/
def readDocument (s : Text) : Except Failure Json :=
  (readValue (2 * s.length + 2) depthLimit s).bind fun v =>
    match skipBlanks v.2 with
    | [] => .ok v.1
    | rest => failAt .trailingCharacters rest

/-! ## Where a failure stands -/

/-- The line and the column reached after so many bytes of a text, from a line and a column. -/
def advance (line column : Nat) : Nat → Text → Nat × Nat
  | _, [] => (line, column)
  | count, c :: rest =>
    if c.utf8Size ≤ count then
      if c = '\n' then advance (line + 1) 0 (count - c.utf8Size) rest
      else advance line (column + c.utf8Size) (count - c.utf8Size) rest
    else (line, column + count)

/-- Why a text was refused and where: lines count from one, columns are bytes of the line. -/
structure ParseError where
  cause : Cause
  line : Nat
  column : Nat
  deriving DecidableEq, Repr

def ParseError.message (e : ParseError) : String :=
  s!"{e.cause.message} at line {e.line} column {e.column}"

/-- Reads a text that holds one value. -/
def parse (s : Text) : Except ParseError Json :=
  match readDocument s with
  | .ok value => .ok value
  | .error failure =>
    let (line, column) := advance 1 0 (Text.byteCount s - failure.unread) s
    .error ⟨failure.cause, line, column⟩

end PluginLint.Json
