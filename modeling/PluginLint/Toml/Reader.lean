import PluginLint.Toml.Scalar

/-!
# Reading TOML

A text is a sequence of lines, each a header, a key with a value, or nothing, with a comment after
it or without. `parse` gives the table that the lines make, or nothing for a text that breaks a
rule; which rule makes no difference to the settings.
-/
namespace PluginLint.Toml

def skipSpaces (s : Text) : Text := s.dropWhile isSpace

/-- The text after a comment that starts here, if one does. -/
def skipComment (s : Text) : Text :=
  match s with
  | '#' :: rest => rest.dropWhile isPlain
  | _ => s

/-- The text after blank lines, comments and spaces. A comment may have begun already. -/
def skipBlank (inComment : Bool) : Text → Text
  | [] => []
  | '\r' :: '\n' :: rest => skipBlank false rest
  | c :: rest =>
    if c = '\n' then skipBlank false rest
    else if inComment && isPlain c then skipBlank true rest
    else if !inComment && isSpace c then skipBlank false rest
    else if !inComment && c == '#' then skipBlank true rest
    else c :: rest

/-- The text after blank lines, comments and spaces, as they may stand between the parts of an array
and of a table in braces. -/
def skipBlankLines (s : Text) : Text := skipBlank false s

/-! ## Keys -/

def isBareKeyChar (c : Char) : Bool := c.isAlphanum || c == '_' || c == '-'

/-- One part of a dotted key. -/
def readKeyPart (s : Text) : Option (Text × Text) :=
  match s with
  | '"' :: rest => lineString '"' s.length rest
  | '\'' :: rest => lineString '\'' s.length rest
  | _ =>
    let key := s.takeWhile isBareKeyChar
    if key = [] then none else some (key, s.drop key.length)

/-- How many parts a dotted key may have, and how many brackets and braces may be open at once. -/
def nestingLimit : Nat := 80

/-- A dotted key of at most `limit` parts, and the text after the spaces that follow it. -/
def readKeyParts : Nat → Text → Option (List Text × Text)
  | 0, _ => none
  | limit + 1, s => do
    let (part, rest) ← readKeyPart (skipSpaces s)
    match skipSpaces rest with
    | '.' :: rest => do
      let (parts, rest) ← readKeyParts limit rest
      some (part :: parts, rest)
    | rest => some ([part], rest)

/-- A dotted key, and the text after the spaces that follow it. -/
def readKey (s : Text) : Option (List Text × Text) := readKeyParts nestingLimit s

/-! ## Values -/

mutual

/-- A value at the front of a text, in which `depth` more brackets and braces may be open. -/
def readValue : Nat → Nat → Text → Option (Item × Text)
  | 0, _, _ => none
  | fuel + 1, depth, s =>
    match depth, s with
    | 0, '[' :: _ | 0, '{' :: _ => none
    | depth + 1, '[' :: rest => (readItems fuel depth (skipBlankLines rest)).map fun found =>
      (.array found.1, found.2)
    | depth + 1, '{' :: rest => (readEntries fuel depth [] (skipBlankLines rest)).map fun found =>
      (.table .braces found.1, found.2)
    | _, '"' :: _ | _, '\'' :: _ => (readString s).map fun found => (.string found.1, found.2)
    | _, _ =>
      let (run, rest) := takeBare s
      (bareValue? run).map fun item => (item, rest)

/-- The items of an array up to its bracket. A comma may follow the last one. -/
def readItems : Nat → Nat → Text → Option (List Item × Text)
  | 0, _, _ => none
  | _ + 1, _, ']' :: rest => some ([], rest)
  | fuel + 1, depth, s => do
    let (item, rest) ← readValue fuel depth s
    match skipBlankLines rest with
    | ',' :: rest => do
      let (items, rest) ← readItems fuel depth (skipBlankLines rest)
      some (item :: items, rest)
    | ']' :: rest => some ([item], rest)
    | _ => none

/-- The entries of a table in braces up to its brace, after those in `entries`. A comma may follow
the last one. -/
def readEntries : Nat → Nat → Entries → Text → Option (Entries × Text)
  | 0, _, _, _ => none
  | _ + 1, _, entries, '}' :: rest => some (entries, rest)
  | fuel + 1, depth, entries, s => do
    let (path, rest) ← readKey s
    let rest ← after? '=' (skipBlankLines rest)
    let (value, rest) ← readValue fuel depth (skipBlankLines rest)
    let entries ← assign value path entries
    match skipBlankLines rest with
    | ',' :: rest => readEntries fuel depth entries (skipBlankLines rest)
    | '}' :: rest => some (entries, rest)
    | _ => none

end

/-! ## Lines -/

/-- What a line that is not blank does. -/
def readStatement (fuel : Nat) (s : Text) : Option (Statement × Text) :=
  match s with
  | '[' :: '[' :: rest => do
    let (path, rest) ← readKey rest
    match rest with
    | ']' :: ']' :: rest => some (.element path, rest)
    | _ => none
  | '[' :: rest => do
    let (path, rest) ← readKey rest
    let rest ← after? ']' rest
    some (.table path, rest)
  | _ => do
    let (path, rest) ← readKey s
    let rest ← after? '=' rest
    let (value, rest) ← readValue fuel nestingLimit (skipSpaces rest)
    some (.assign path value, rest)

/-- The statements of a text. -/
def readStatements : Nat → Text → Option (List Statement)
  | 0, _ => none
  | fuel + 1, s =>
    match skipBlankLines s with
    | [] => some []
    | s => do
      let (statement, rest) ← readStatement (fuel + 1) s
      match skipComment (skipSpaces rest) with
      | [] => some [statement]
      | rest => do
        let rest ← lineEnd? rest
        let more ← readStatements fuel rest
        some (statement :: more)

/-- The mark that may stand in front of a text. -/
def byteOrderMark : Char := '\uFEFF'

/-- The table that a text holds. -/
def parse (s : Text) : Option Entries :=
  let s := if s.head? = some byteOrderMark then s.tail else s
  (readStatements (s.length + 1) s).bind build

end PluginLint.Toml
