import PluginLint.Text.Blank
import PluginLint.Text.LetterCase
import PluginLint.Text.WordChar

/-!
# Phrases

Forms of words that the checks look for in a line. A step of a phrase gives what is left of the
line after it. A phrase may start only where a word starts, and letters are compared in any case
where `literal` is used. A gap between words is one blank or more.
-/
namespace PluginLint.Phrase

/-- The text after a word in any case. -/
def literal : Text → Text → Option Text
  | [], s => some s
  | _ :: _, [] => none
  | w :: word, c :: rest => if Text.foldAscii c = w then literal word rest else none

/-- The text after the first of some words that stands here. -/
def oneOf (words : List String) (s : Text) : Option Text :=
  words.findSome? fun word => literal word.toList s

/-- The text after blanks, of which there is one at least. -/
def gap : Text → Option Text
  | c :: rest => if Text.isBlank c then some (Text.trimStart rest) else none
  | [] => none

/-- The text after an article and the gap behind it, if they stand here. -/
def skipArticle (s : Text) : Text := ((literal "the".toList s).bind gap).getD s

/-- The text after a backtick, if one stands here. -/
def skipTick : Text → Text
  | '\x60' :: rest => rest
  | s => s

/-- The text after a verb, a tool in backticks or without, and the word `tool`. -/
def toolCall (verbs tools : List String) (s : Text) : Option Text := do
  let s ← (oneOf verbs s).bind gap
  let s ← oneOf tools (skipTick (skipArticle s))
  let s ← gap (skipTick s)
  literal "tool".toList s

/-- Whether a word ends before a text. -/
def atWordEnd : Text → Bool
  | c :: _ => !Text.isWord c
  | [] => true

/-- Whether a phrase stands somewhere in a line, `inWord` telling whether a word runs up to it. -/
def standsFrom (phrase : Text → Bool) (inWord : Bool) : Text → Bool
  | [] => false
  | c :: rest => (!inWord && phrase (c :: rest)) || standsFrom phrase (Text.isWord c) rest

/-- Whether a phrase stands in a line where a word starts. -/
def stands (phrase : Text → Bool) (line : Text) : Bool := standsFrom phrase false line

/-! ## The phrases -/

/-- `use the Read tool` and its like. -/
def coreTool (s : Text) : Bool :=
  (toolCall ["use", "call", "using"] ["read", "write", "glob", "grep", "edit"] s).any atWordEnd

/-- `use the Bash tool` and its like. -/
def shellTool (s : Text) : Bool := (toolCall ["use", "call", "using"] ["bash"] s).any atWordEnd

/-- Whether a character may start the name of what is launched. -/
def isLaunched (c : Char) : Bool := (Text.foldAscii c).isLower || c == '-'

/-- `use the Task tool to launch` something, and its like. -/
def taskTool (s : Text) : Bool :=
  let launched := do
    let s ← (toolCall ["use", "call"] ["task"] s).bind gap
    let s ← (literal "to".toList s).bind gap
    (literal "launch".toList s).bind gap
  launched.any fun s => s.head?.any isLaunched

/-- What a reader is told in the second person. -/
def orders : List Text :=
  ["should".toList, "must".toList, "can".toList, "need to".toList]

/-- `You should` and its like, in this very spelling. -/
def secondPerson (s : Text) : Bool :=
  orders.any fun order =>
    let words := "You ".toList ++ order
    words.isPrefixOf s && atWordEnd (s.drop words.length)

/-! ## Script paths -/

/-- What closes the path of a script. -/
def scriptEnds : List Text := [".sh\"".toList, ".py\"".toList, ".js\"".toList]

/-- Whether a quoted absolute path opens a text, with the end of a script's path later on. A dollar
sign after the slash makes it no path. -/
def opensScriptPath : Text → Bool
  | '"' :: '/' :: c :: rest => c ≠ '$' && scriptEnds.any fun mark => Text.occurs mark rest
  | _ => false

/-- Whether an absolute path of a script stands in a line. -/
def hasScriptPath : Text → Bool
  | [] => false
  | c :: rest => opensScriptPath (c :: rest) || hasScriptPath rest

end PluginLint.Phrase
