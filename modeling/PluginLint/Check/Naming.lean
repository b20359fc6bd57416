import PluginLint.Text.WordChar

/-!
# Names, versions and command paths

The forms that the checks ask of names: kebab case, which is runs of small letters and digits joined
by single hyphens; the names of agents, which are three to fifty of the same characters with no
hyphen at either end; versions of three numbers; and command paths, which start with a dot and a
slash and end in a slash.
-/
namespace PluginLint

/-- Whether a character is a small letter or a digit. -/
def isKebabChar (c : Char) : Bool := c.isLower || c.isDigit

/-- Whether the rest of a name is in kebab case; `inRun` tells whether a hyphen may come next. -/
def isKebabFrom (inRun : Bool) : Text → Bool
  | [] => inRun
  | c :: rest =>
    if isKebabChar c then isKebabFrom true rest else c == '-' && inRun && isKebabFrom false rest

/-- Whether a name is in kebab case. -/
def isKebab (name : Text) : Bool := isKebabFrom false name

/-- Whether a name may be that of an agent. -/
def isAgentName (name : Text) : Bool :=
  3 ≤ name.length && name.length ≤ 50 && name.all (fun c => isKebabChar c || c == '-') &&
    name.head?.any isKebabChar && name.getLast?.any isKebabChar

/-- Whether a text is three numbers joined by dots. -/
def isVersion (s : Text) : Bool :=
  let parts := s.splitOn '.'
  parts.length == 3 && parts.all fun part => part ≠ [] && part.all Text.isDecimalDigit

/-- Whether a text is a command path: `./`, anything without a line feed, and a slash. -/
def isCommandPath (path : Text) : Bool :=
  match path with
  | '.' :: '/' :: rest => rest.getLast? == some '/' && '\n' ∉ rest
  | _ => false

example : isKebab "a1-b".toList = true ∧ isKebab "a--b".toList = false ∧ isKebab [] = false := by
  decide
example : isAgentName "a--b".toList = true ∧ isAgentName "ab".toList = false := by decide
example : isCommandPath ".//".toList = true ∧ isCommandPath "./".toList = false := by decide

end PluginLint
