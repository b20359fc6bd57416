import PluginLint.Report.Severity
import PluginLint.Text.Basic

/-!
# Layout of human reports

A report is built line by line. Some texts are styled, with a colour or a weight; styles are written
as terminal codes when colours are on and leave no trace when they are off.
-/
namespace PluginLint

inductive Color where
  | red
  | green
  | yellow
  | cyan
  deriving DecidableEq, Repr

/-- The terminal code of a colour. -/
def Color.code : Color → Nat
  | .red => 31
  | .green => 32
  | .yellow => 33
  | .cyan => 36

/-- How a text is shown. -/
structure Style where
  color : Option Color := none
  bold : Bool := false
  dim : Bool := false
  deriving DecidableEq, Repr

/-- The terminal sequence with a code. -/
def terminalCode (code : Nat) : Text := '\x1b' :: '[' :: (Nat.toDigits 10 code ++ ['m'])

namespace Style

def bolded : Style := { bold := true }

def dimmed : Style := { dim := true }

/-- The codes that switch a style on: the colour, then the weight. -/
def codes (s : Style) : List Nat :=
  (s.color.map Color.code).toList ++ (if s.bold then [1] else []) ++ (if s.dim then [2] else [])

/-- A text in a style. -/
def paint (s : Style) (colors : Bool) (text : Text) : Text :=
  if colors && s.codes ≠ [] then s.codes.flatMap terminalCode ++ text ++ terminalCode 0 else text

/-- Without colours a style leaves no trace. -/
@[simp] theorem paint_plain (s : Style) (text : Text) : s.paint false text = text := by
  simp [paint]

end Style

/-- The style of a severity's label. -/
def Severity.style : Severity → Style
  | .must => { color := some .red, bold := true }
  | .should => { color := some .yellow, bold := true }
  | .may => { color := some .cyan }
  | .ok => { color := some .green }

/-- A severity in brackets. -/
def Severity.label (s : Severity) (colors : Bool) : Text :=
  s.style.paint colors ('[' :: (s.capitals.toList ++ [']']))

/-- A text with spaces after it, up to a width. -/
def padRight (width : Nat) (s : Text) : Text := s ++ List.replicate (width - s.length) ' '

/-- A text with spaces before it, up to a width. -/
def padLeft (width : Nat) (s : Text) : Text := List.replicate (width - s.length) ' ' ++ s

/-- The lines of a report so far. -/
structure Layout where
  colors : Bool
  lines : List Text
  deriving DecidableEq, Repr

namespace Layout

def empty (colors : Bool) : Layout := ⟨colors, []⟩

/-- How wide the keys of entries are. -/
def keyWidth : Nat := 14

def line (l : Layout) (text : Text) : Layout := { l with lines := l.lines ++ [text] }

def blank (l : Layout) : Layout := l.line []

/-- A text in a style. -/
def paint (l : Layout) (style : Style) (text : Text) : Text := style.paint l.colors text

/-- A title between two rules. -/
def title (l : Layout) (text : Text) : Layout :=
  let rule := List.replicate 60 '='
  ((l.line rule).line (l.paint .bolded text)).line rule

/-- A heading above a rule of its own size in bytes, at least three. -/
def heading (l : Layout) (text : Text) : Layout :=
  (l.line (l.paint .bolded text)).line (List.replicate (max (Text.byteCount text) 3) '-')

/-- A key in a column and its value. -/
def entry (l : Layout) (key value : Text) : Layout :=
  l.line (l.paint .dimmed (padRight keyWidth (key ++ [':'])) ++ ' ' :: value)

/-- A key and its value below an item. -/
def detail (l : Layout) (key value : Text) : Layout :=
  l.line (' ' :: ' ' :: (l.paint .dimmed (key ++ [':']) ++ ' ' :: value))

def bullet (l : Layout) (text : Text) : Layout := l.line ('-' :: ' ' :: text)

/-- The report. -/
def text (l : Layout) : Text := List.intercalate ['\n'] l.lines

end Layout

/-- The front of a text that is too long, or the text. -/
def excerpt (limit : Nat) (s : Text) : Text :=
  if limit < s.length then s.take limit ++ "...".toList else s

/-- A count of something. -/
def plural (count : Nat) (noun : Text) : Text :=
  Nat.toDigits 10 count ++ ' ' :: (if count = 1 then noun else noun ++ ['s'])

end PluginLint
