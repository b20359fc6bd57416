import PluginLint.Budget.Skill
import PluginLint.Report.CheckKind
import PluginLint.Report.Severity

/-!
# Issues

An issue is one finding of a check: how much it weighs, what it says, and as far as they are known
the file, the line, the text that gave rise to it and what to do about it.
-/
namespace PluginLint

structure Issue where
  severity : Severity
  message : Text
  /-- the check that the issue belongs to, set when the issue is recorded -/
  check : CheckKind := .layout
  /-- path relative to the plugin root -/
  file : Option Text := none
  line : Option Nat := none
  source : Option Text := none
  suggestion : Option Text := none
  details : Option Units := none
  deriving DecidableEq, Repr

namespace Issue

/-- The issue at a line. Lines count from one, and a line zero is not known. -/
def atLine (i : Issue) (line : Nat) : Issue := if line = 0 then i else { i with line := some line }

/-- The place of an issue: its file, with the line if that is known. -/
def location (i : Issue) : Text :=
  match i.file, i.line with
  | some file, some line => file ++ ':' :: Nat.toDigits 10 line
  | some file, none => file
  | none, _ => "(no file)".toList

/-- The issue on one line. -/
def summary (i : Issue) : Text :=
  '[' :: (i.severity.word.toList ++ "] ".toList ++ i.check.word.toList ++ ": ".toList ++
    i.message ++
    (if i.file.isSome then " at ".toList ++ i.location else []) ++
    match i.suggestion with
    | some suggestion => " (fix: ".toList ++ suggestion ++ [')']
    | none => [])

/-- The issue that a file cannot be read. -/
def cannotRead (file reason : Text) : Issue :=
  { severity := .must, message := "Cannot read file".toList, file := some file,
    source := some reason }

end Issue
end PluginLint
