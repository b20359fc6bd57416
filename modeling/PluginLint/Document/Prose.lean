import PluginLint.Document.Basic

/-!
# Prose lines

The prose of a document is what remains of the lines after its header when fenced blocks, the
fences themselves and blank lines are left out. A fence is a line that starts, after blanks, with
three backticks; every fence opens a block or closes the one that is open.
-/
namespace PluginLint.Document

def fence : Text := ['\x60', '\x60', '\x60']

def isFence (line : Text) : Bool := fence.isPrefixOf (Text.trimStart line)

/-- The prose among numbered lines, `fenced` telling whether a block is open before them. -/
def proseFrom (fenced : Bool) (number : Nat) : List Text → List (Nat × Text)
  | [] => []
  | line :: rest =>
    if isFence line then proseFrom (!fenced) (number + 1) rest
    else if fenced || Text.isBlankLine line then proseFrom fenced (number + 1) rest
    else (number, line) :: proseFrom fenced (number + 1) rest

/-- The prose lines of a document after `skip` lines, with their numbers. -/
def proseLines (content : Text) (skip : Nat) : List (Nat × Text) :=
  proseFrom false (skip + 1) ((Text.lines content).drop skip)

end PluginLint.Document
