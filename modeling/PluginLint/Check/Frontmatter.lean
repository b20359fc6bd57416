import PluginLint.Check.Basic
import PluginLint.Check.Naming
import PluginLint.Check.Phrase
import PluginLint.Document.Fields
import PluginLint.Document.Basic

/-!
# The frontmatter check

The header of every component: which fields each kind must have and which values they may take.
The bodies of skills are looked at for text that addresses the reader.
-/
namespace PluginLint

namespace FrontmatterCheck

/-- The models that an agent may name. -/
def models : List String := ["inherit", "sonnet", "opus", "haiku"]

/-- The colours that an agent may have. -/
def colors : List String := ["blue", "cyan", "green", "yellow", "magenta", "red"]

/-- How many characters the description of a skill must have, spaces not counted. -/
def minimumDescription : Nat := 10

/-- The issue on a field that is not there. -/
def missing (file : Text) (key suggestion : String) : Issue :=
  { severity := .must, message := s!"Missing '{key}' in frontmatter".toList, file := some file
    suggestion := some suggestion.toList }

/-- The passing detail on a field. -/
def present (file : Text) (key : String) (field : Field) : Issue :=
  Issue.atLine
    { severity := .ok, message := key.toList ++ ": \"".toList ++ field.value ++ ['"']
      file := some file } field.line

/-- An issue on the value of a field. -/
def valueIssue (file : Text) (key : String) (field : Field) (severity : Severity)
    (message suggestion : String) : Issue :=
  Issue.atLine
    { severity := severity, message := message.toList, file := some file
      source := some (key.toList ++ ": ".toList ++ field.value)
      suggestion := some suggestion.toList } field.line

/-! ## All kinds -/

def headerMissing (file : Text) : Issue :=
  { severity := .must
    message := "No YAML frontmatter found".toList
    file := some file
    line := some 1
    suggestion :=
      some "Add frontmatter block: ---\\nname: ...\\ndescription: ...\\n---".toList }

/-- The first of some numbered lines that holds a tab. -/
def tabRule (file : Text) (number : Nat) : List Text → List Issue
  | [] => []
  | line :: rest =>
    if '\t' ∈ line then
      [{ severity := .must
         message := "Tab character in YAML frontmatter".toList
         file := some file
         line := some number
         source := some line
         suggestion := some "Replace tabs with spaces".toList }]
    else tabRule file (number + 1) rest

/-! ## Commands -/

def commandRules (file : Text) (f : Fields) : List Issue :=
  [match f.description with
    | some field => present file "description" field
    | none => missing file "description" "Add description: \"Short description\""] ++
  match f.unrestrictedShell with
  | some field =>
    [valueIssue file "allowed-tools" field .must "Unrestricted Bash in allowed-tools"
      "Use filtered Bash: Bash(git:*), Bash(npm:*)"]
  | none => []

/-! ## Agents -/

def agentName (file : Text) (name : Option Field) : Issue :=
  match name with
  | none => missing file "name" "Add name: agent-name (kebab-case, 3-50 chars)"
  | some field =>
    if isAgentName field.value then present file "name" field
    else
      valueIssue file "name" field .must "Invalid agent name format"
        "Use 3-50 chars, kebab-case, no leading/trailing hyphens"

/-- A field that must hold one of a few words. -/
def choice (file : Text) (key : String) (allowed : List String) (value : Option Field) : Issue :=
  match value with
  | none =>
    let first := allowed.headD ""
    let others := String.intercalate "|" allowed.tail
    missing file key s!"Add {key}: {first} (or {others})"
  | some field =>
    if (allowed.map String.toList).contains field.value then present file key field
    else
      valueIssue file key field .must s!"Invalid {key} value"
        ("Use: " ++ String.intercalate ", " allowed)

def agentRules (file : Text) (f : Fields) : List Issue :=
  [agentName file f.name] ++
  (if f.description.isNone then
    [missing file "description"
      "Add description with trigger conditions and <example> blocks"]
  else []) ++
  [choice file "model" models f.model, choice file "color" colors f.color]

/-! ## Skills -/

def skillName (file : Text) (name : Option Field) : Issue :=
  match name with
  | some field => present file "name" field
  | none => missing file "name" "Add name: skill-name (kebab-case)"

def skillDescription (file : Text) (description : Option Field) : Issue :=
  match description with
  | none => missing file "description" "Add description with trigger phrases"
  | some field =>
    if (field.value.filter (· ≠ ' ')).length < minimumDescription then
      valueIssue file "description" field .should "Description too short"
        "Add more detail about when this skill should be used"
    else present file "description" field

/-- The lines of a body that address the reader, `number` being the line of the first. -/
def voiceRule (file : Text) (number : Nat) : List Text → List Issue
  | [] => []
  | line :: rest =>
    (if Phrase.stands Phrase.secondPerson line then
      [Issue.atLine
        { severity := .should
          message := "Second-person voice in skill body".toList
          file := some file
          source := some (Text.trim line)
          suggestion := some
            "Use imperative form: 'Parse the file...' instead of 'You should...'".toList } number]
    else []) ++ voiceRule file (number + 1) rest

def skillRules (file : Text) (f : Fields) (d : Document) : List Issue :=
  [skillName file f.name, skillDescription file f.description] ++
    voiceRule file (d.lineOfBody 1) (Text.lines d.body)

/-! ## Components -/

/-- What is found in a component that has a header. -/
def headerRules (kind : ComponentKind) (file content : Text) (d : Document) : List Issue :=
  let f := Fields.ofHeader d.header
  tabRule file 1 ((Text.lines content).take d.headerEnd) ++
  match kind with
  | .command => commandRules file f
  | .agent => agentRules file f
  | .skill => skillRules file f d

/-- What is found in a text as a component of some kind. -/
def documentRules (kind : ComponentKind) (file content : Text) : List Issue :=
  let d := Document.parse content
  if d.header.fields = [] then [headerMissing file] else headerRules kind file content d

def componentRules (c : Component) : List Issue :=
  match c.content with
  | .error fault => [c.cannotRead fault]
  | .ok content => documentRules c.kind c.label content

def inspect (s : Subject) : Findings := ⟨s.components.toList.flatMap componentRules, false⟩

end FrontmatterCheck

def frontmatterCheck : Check :=
  ⟨.frontmatter, "Required header fields and their formats for each component kind".toList,
    FrontmatterCheck.inspect⟩

end PluginLint
