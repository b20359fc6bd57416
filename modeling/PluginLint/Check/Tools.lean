import PluginLint.Check.Basic
import PluginLint.Check.Phrase
import PluginLint.Document.Fields
import PluginLint.Document.Prose

/-!
# The tools check

Prose should say what is to be done and not which tool does it. Fenced blocks are not prose, and a
line that names one of the exempt tools is left alone. A header must not give the shell away
without a filter.
-/
namespace PluginLint

namespace ToolsCheck

/-- The tools that may be named. -/
def exempt : List String := ["AskUserQuestion"]

/-- An issue on a line of prose, without its place. -/
def proseIssue (message suggestion : String) : Issue :=
  { severity := .should, message := message.toList, suggestion := some suggestion.toList }

def coreIssue : Issue :=
  proseIssue "Explicit core tool reference"
    "Describe action directly: 'Find files...' not 'Use Glob tool...'"

def shellIssue : Issue :=
  proseIssue "Explicit Bash tool reference" "Use: Run `command` or describe command directly"

def taskIssue : Issue :=
  proseIssue "Explicit Task tool reference" "Use: Launch `agent-name` agent"

/-- Whether a line opens a filter for the shell or runs a command in place. -/
def runsInPlace (line : Text) : Bool :=
  Text.occurs "Bash(".toList line || Text.occurs ['!', '\x60'] line

/-- The issues on a line of prose, each at most once. -/
def scanLine (line : Text) : List Issue :=
  if exempt.any fun tool => Text.occurs tool.toList line then []
  else
    (if Phrase.stands Phrase.coreTool line then [coreIssue] else []) ++
    (if Phrase.stands Phrase.shellTool line && !runsInPlace line then [shellIssue] else []) ++
    (if Phrase.stands Phrase.taskTool line then [taskIssue] else [])

/-- The issues on a line of prose at its place. -/
def placedIssues (file : Text) (number : Nat) (line : Text) : List Issue :=
  (scanLine line).map fun issue =>
    { issue.atLine number with file := some file, source := some (Text.trim line) }

def shellRule (file : Text) (f : Fields) : List Issue :=
  match f.unrestrictedShell with
  | some field =>
    [Issue.atLine
      { severity := .must
        message := "Unrestricted Bash in allowed-tools".toList
        file := some file
        source := some ("allowed-tools: ".toList ++ field.value)
        suggestion := some "Use filtered: Bash(git:*), Bash(npm:*)".toList } field.line]
  | none => []

/-- What is found in the text of a component. -/
def documentRules (file content : Text) : List Issue :=
  let d := Document.parse content
  (Document.proseLines content d.headerEnd).flatMap (fun p => placedIssues file p.1 p.2) ++
    shellRule file (Fields.ofHeader d.header)

def componentRules (c : Component) : List Issue :=
  match c.content with
  | .error fault => [c.cannotRead fault]
  | .ok content => documentRules c.label content

def inspect (s : Subject) : Findings := ⟨s.components.toList.flatMap componentRules, false⟩

end ToolsCheck

def toolsCheck : Check :=
  ⟨.tools, "Explicit tool invocations in prose and unrestricted shell access".toList,
    ToolsCheck.inspect⟩

end PluginLint
