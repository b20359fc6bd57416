import PluginLint.Text.Blank
import PluginLint.Text.Lines
import PluginLint.Text.WordChar

/-!
# Header blocks

A header block is read line by line. A key line is a key of word characters and hyphens, a colon
and a value. A value that is empty or a lone `|` or `>` opens a fold: the indented lines below it
are gathered and joined by single spaces when a line comes that is neither indented nor blank.
Everything else is skipped, so reading never fails. A key that is given twice keeps its first place
and line and takes the later value.
-/
namespace PluginLint

/-- A header value and the line of the whole document on which its key stands. -/
structure Field where
  value : Text
  line : Nat
  deriving DecidableEq, Repr

/-- The fields of a header block, in the order of their first values. -/
structure Header where
  fields : List (Text × Field)
  deriving DecidableEq, Repr

namespace Header

def empty : Header := ⟨[]⟩

def field? (h : Header) (key : Text) : Option Field := h.fields.lookup key

def value? (h : Header) (key : Text) : Option Text := (h.field? key).map (·.value)

/-- Fields with a value for `key`: in the place of the old one, or at the end. -/
def setField (key value : Text) (line : Nat) : List (Text × Field) → List (Text × Field)
  | [] => [(key, ⟨value, line⟩)]
  | (k, f) :: rest =>
    if k = key then (k, ⟨value, f.line⟩) :: rest else (k, f) :: setField key value line rest

def set (h : Header) (key value : Text) (line : Nat) : Header :=
  ⟨setField key value line h.fields⟩

/-! ## Lines of a header block -/

/-- Whether a character can stand in a key. -/
def isKeyChar (c : Char) : Bool := Text.isWord c || c == '-'

/-- The key of a key line and what follows its colon. -/
def keyLine? (line : Text) : Option (Text × Text) :=
  match line.takeWhile isKeyChar, line.dropWhile isKeyChar with
  | c :: key, ':' :: rest => some (c :: key, rest)
  | _, _ => none

/-- Whether a value stands between two marks. -/
def isWrapped (mark : Char) (value : Text) : Bool :=
  2 ≤ value.length && value.head? == some mark && value.getLast? == some mark

/-- A value without one layer of matching quotes. -/
def unquote (value : Text) : Text :=
  if isWrapped '"' value || isWrapped '\'' value then value.tail.dropLast else value

/-- The value on a key line, given what follows the colon. -/
def inlineValue (rest : Text) : Text := unquote (Text.trim rest)

/-- Whether a value opens a fold. -/
def opensFold (value : Text) : Bool := value = [] ∨ value = ['|'] ∨ value = ['>']

/-- Whether a line is indented below a key. -/
def isIndented (line : Text) : Bool :=
  [' ', ' '].isPrefixOf line || ['\t'].isPrefixOf line

/-! ## Reading -/

/-- A key whose value is gathered from the lines below it. -/
structure Fold where
  key : Text
  line : Nat
  parts : List Text
  deriving DecidableEq, Repr

/-- The fields read so far and the fold that is open. -/
structure Reading where
  header : Header
  fold : Option Fold
  deriving DecidableEq, Repr

/-- Ends the open fold. A fold without parts leaves no field. -/
def Reading.close (r : Reading) : Header :=
  match r.fold with
  | none => r.header
  | some fold =>
    if fold.parts = [] then r.header
    else r.header.set fold.key (List.intercalate [' '] fold.parts) fold.line

/-- Reads a line outside any fold. -/
def seek (header : Header) (number : Nat) (line : Text) : Reading :=
  match keyLine? line with
  | none => ⟨header, none⟩
  | some (key, rest) =>
    let value := inlineValue rest
    if opensFold value then ⟨header, some ⟨key, number, []⟩⟩
    else ⟨header.set key value number, none⟩

/-- Reads a line. -/
def Reading.step (r : Reading) (number : Nat) (line : Text) : Reading :=
  match r.fold with
  | none => seek r.header number line
  | some fold =>
    if isIndented line then
      { r with fold := some { fold with parts := fold.parts ++ [Text.trim line] } }
    else if Text.isBlankLine line then r
    else seek r.close number line

/-- Reads numbered lines. -/
def Reading.run (r : Reading) (number : Nat) : List Text → Reading
  | [] => r
  | line :: rest => (r.step number line).run (number + 1) rest

/-- The fields of a header text whose first line has the given number. -/
def read (first : Nat) (text : Text) : Header :=
  (Reading.run ⟨empty, none⟩ first (Text.lines text)).close

example : (read 2 "a: 1\nb: >\n  x\n\n\ty\nc:\na: '2'".toList).fields =
    [("a".toList, ⟨['2'], 2⟩), ("b".toList, ⟨"x y".toList, 3⟩)] := by decide

end Header
end PluginLint
