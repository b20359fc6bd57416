import PluginLint.Toml.Moment
import PluginLint.Toml.Number

/-!
# TOML values without parts

Values without quotes, of which only integers are kept, and strings in four kinds of quotes.
-/
namespace PluginLint.Toml

/-! ## Values without quotes -/

/-- The value that a run of characters without quotes stands for. -/
def bareValue? (s : Text) : Option Item :=
  if s = "true".toList ∨ s = "false".toList ∨ isMoment s then some .other else number? s

def endsBare (c : Char) : Bool := " \t\n\r,=[]\x7b\x7d#".toList.contains c

/-- The characters of a value without quotes. A date and a time may be parted by a space. -/
def takeBare (s : Text) : Text × Text :=
  let run := s.takeWhile fun c => !endsBare c
  match afterDate? run, s.drop run.length with
  | some [], ' ' :: c :: rest =>
    if c.isDigit then
      let time := (c :: rest).takeWhile fun c => !endsBare c
      (run ++ ' ' :: time, (c :: rest).drop time.length)
    else (run, ' ' :: c :: rest)
  | _, rest => (run, rest)

/-! ## Strings -/

/-- Whether a character may stand for itself in a string or a comment. -/
def isPlain (c : Char) : Bool := c == '\t' || (0x20 ≤ c.toNat && c.toNat != 0x7F)

/-- The character with a code that is written in so many digits. -/
def codePoint? (digits : Nat) (s : Text) : Option (Char × Text) :=
  let code := s.take digits
  if code.length = digits ∧ code.all (isDigitOf 16) then
    let n := code.foldl (fun n c => n * 16 + digitValue c) 0
    if n.isValidChar then some (Char.ofNat n, s.drop digits) else none
  else none

/-- The character that an escape stands for, given what follows its backslash. -/
def escape? : Text → Option (Char × Text)
  | 'b' :: rest => some ('\x08', rest)
  | 'e' :: rest => some ('\x1b', rest)
  | 't' :: rest => some ('\t', rest)
  | 'n' :: rest => some ('\n', rest)
  | 'f' :: rest => some ('\x0c', rest)
  | 'r' :: rest => some ('\r', rest)
  | '"' :: rest => some ('"', rest)
  | '\\' :: rest => some ('\\', rest)
  | 'x' :: rest => codePoint? 2 rest
  | 'u' :: rest => codePoint? 4 rest
  | 'U' :: rest => codePoint? 8 rest
  | _ => none

def isSpace (c : Char) : Bool := c == ' ' || c == '\t'

/-- The text after the end of a line. -/
def lineEnd? : Text → Option Text
  | '\n' :: rest => some rest
  | '\r' :: '\n' :: rest => some rest
  | _ => none

/-- The text after spaces and ends of lines. -/
def skipFolds : Text → Text
  | '\r' :: '\n' :: rest => skipFolds rest
  | c :: rest => if isSpace c || c == '\n' then skipFolds rest else c :: rest
  | [] => []

/-- The rest of a string on one line after its opening quote. -/
def lineString (quote : Char) : Nat → Text → Option (Text × Text)
  | 0, _ => none
  | _, [] => none
  | fuel + 1, c :: rest =>
    if c = quote then some ([], rest)
    else if quote = '"' ∧ c = '\\' then do
      let (escaped, rest) ← escape? rest
      let (more, rest) ← lineString quote fuel rest
      some (escaped :: more, rest)
    else if isPlain c then do
      let (more, rest) ← lineString quote fuel rest
      some (c :: more, rest)
    else none

/-- The rest of a string over several lines after its opening quotes. Of up to five quotes in a
row the last three close it. -/
def blockString (quote : Char) : Nat → Text → Option (Text × Text)
  | 0, _ => none
  | fuel + 1, s =>
    let quotes := (s.takeWhile (· = quote)).length
    if 3 ≤ quotes then
      let inner := min (quotes - 3) 2
      some (List.replicate inner quote, s.drop (inner + 3))
    else
      match s with
      | [] => none
      | '\r' :: '\n' :: rest => do
        let (more, rest) ← blockString quote fuel rest
        some ('\n' :: more, rest)
      | c :: rest =>
        if quote = '"' ∧ c = '\\' then
          match lineEnd? (rest.dropWhile isSpace) with
          | some rest => blockString quote fuel (skipFolds rest)
          | none => do
            let (escaped, rest) ← escape? rest
            let (more, rest) ← blockString quote fuel rest
            some (escaped :: more, rest)
        else if c = '\n' || isPlain c then do
          let (more, rest) ← blockString quote fuel rest
          some (c :: more, rest)
        else none

/-- A string in any of the four kinds of quotes. -/
def readString (s : Text) : Option (Text × Text) :=
  match s with
  | '"' :: '"' :: '"' :: rest => blockString '"' (s.length) ((lineEnd? rest).getD rest)
  | '\'' :: '\'' :: '\'' :: rest => blockString '\'' (s.length) ((lineEnd? rest).getD rest)
  | '"' :: rest => lineString '"' s.length rest
  | '\'' :: rest => lineString '\'' s.length rest
  | _ => none

example : number? "-1_000".toList = some (.integer (-1000)) := rfl
example : number? "007".toList = none := rfl
example : number? "0xFf".toList = some (.integer 255) := rfl
example : bareValue? "6.02e+23".toList = some .other := rfl

end PluginLint.Toml
