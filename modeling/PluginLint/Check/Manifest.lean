import PluginLint.Check.Basic
import PluginLint.Check.Naming
import PluginLint.Document.Fields
import PluginLint.Document.Basic

/-!
# The manifest check

The fields of the manifest, the declared command paths and, last, the skills that ask to be
declared and are not. The issue on a field stands at the first line that names its key in quotes.
-/
namespace PluginLint

namespace ManifestCheck

/-- An issue about the manifest as a whole or a field that is not there. -/
def issue (severity : Severity) (message : String) : Issue :=
  { severity := severity, message := message.toList, file := some manifestLabel.toList }

/-- An issue about a field of the manifest. -/
def fieldIssue (m : Manifest) (key : String) (severity : Severity) (message : Text) : Issue :=
  Issue.atLine { severity := severity, message := message, file := some manifestLabel.toList }
    ((m.keyLine? key.toList).getD 0)

/-- A member as it would be written. -/
def member (key : String) (value : Text) : Text :=
  '"' :: (key.toList ++ "\": ".toList ++ value)

def nameRule (m : Manifest) : Issue :=
  match m.name with
  | none =>
    { issue .must "Missing 'name' field" with
      suggestion := some "Add \"name\": \"plugin-name\"".toList }
  | some name =>
    match name.text?.filter isKebab with
    | some text => fieldIssue m "name" .ok ("name: ".toList ++ text)
    | none =>
      { fieldIssue m "name" .should "Plugin name not kebab-case".toList with
        source := some (member "name" name.shown)
        suggestion := some "Use lowercase letters, numbers, hyphens only".toList }

def descriptionRule (m : Manifest) : Issue :=
  match m.description with
  | some _ => fieldIssue m "description" .ok "description present".toList
  | none =>
    { issue .should "Missing 'description' field" with
      suggestion := some "Add \"description\": \"Brief plugin description\"".toList }

def authorExample : String := "\"author\": \x7b\"name\": \"Your Name\"\x7d"

/-- The issue on an author that has no name. -/
def authorNameless (m : Manifest) (shown : Text) : Issue :=
  { fieldIssue m "author" .must "Missing 'author.name' field".toList with
    source := some (member "author" shown)
    suggestion := some ("Use ".toList ++ authorExample.toList) }

def authorRule (m : Manifest) : Issue :=
  match m.author with
  | none =>
    { issue .must "Missing 'author' field" with
      suggestion := some ("Add ".toList ++ authorExample.toList) }
  | some (.person (some _)) => fieldIssue m "author" .ok "author.name present".toList
  | some (.person none) => authorNameless m "\x7b...\x7d".toList
  | some (.other value) => authorNameless m value.compact

def versionRule (m : Manifest) : Issue :=
  match m.version with
  | none =>
    { issue .may "No 'version' field" with
      suggestion := some "Add \"version\": \"1.0.0\" for release tracking".toList }
  | some version =>
    match version.text?.filter isVersion with
    | some text => fieldIssue m "version" .ok ("version: ".toList ++ text)
    | none =>
      { fieldIssue m "version" .should "Version not semver format".toList with
        source := some (member "version" version.shown)
        suggestion := some "Use X.Y.Z format (e.g., 1.0.0)".toList }

def keywordsRule (m : Manifest) : Issue :=
  match m.keywords with
  | some _ => fieldIssue m "keywords" .ok "keywords present".toList
  | none =>
    { issue .may "No 'keywords' field" with
      suggestion :=
        some "Add \"keywords\": [\"keyword1\", \"keyword2\"] for discoverability".toList }

/-! ## Declared commands -/

/-- The text without the slashes at its end. -/
def trimSlashes (path : Text) : Text := (path.reverse.dropWhile (· = '/')).reverse

/-- The text without any `./` at its front. -/
def trimDots : Text → Text
  | '.' :: '/' :: rest => trimDots rest
  | s => s

/-- The issue on an entry that is no command path. -/
def badEntry (m : Manifest) (entry : CommandEntry) : Issue :=
  { fieldIssue m "commands" .must ("Invalid path format: ".toList ++ entry.text) with
    source := some (member "commands" ("[..., ".toList ++ entry.shown ++ ", ...]".toList))
    suggestion := some "Use './path/' format with trailing slash".toList }

/-- A declared command path: its directory must be there and hold an entry document. -/
def pathRule (s : Subject) (m : Manifest) (path : Text) : Issue :=
  let directory := s.root.join (trimSlashes path)
  if !s.tree.isDirectory directory then
    { fieldIssue m "commands" .must "Command path not found".toList with
      source := some ('"' :: (path ++ ['"']))
      suggestion := some ("Create directory ".toList ++ path) }
  else if !s.tree.isFile (entryPath directory) then
    { severity := .must
      message := "Missing SKILL.md in command".toList
      file := some (trimDots path)
      suggestion := some "Create SKILL.md with frontmatter".toList }
  else fieldIssue m "commands" .ok ("Verified: ".toList ++ path)

def entryRule (s : Subject) (m : Manifest) (entry : CommandEntry) : Issue :=
  match entry.path?.filter isCommandPath with
  | some path => pathRule s m path
  | none => badEntry m entry

/-! ## Skills that are not declared -/

/-- The command path that declares a skill. -/
def declaredPath (skill : Component) : Text :=
  "./skills/".toList ++ skill.name ++ ['/']

/-- The issue on a skill that asks to be declared. -/
def undeclared (skill : Component) (line : Nat) : Issue :=
  Issue.atLine
    { severity := .must
      message := "Undeclared user-invocable skill".toList
      file := some skill.label
      source := some (declaredPath skill)
      suggestion := some ("Add \"".toList ++ declaredPath skill ++
        "\" to \"commands\" array in plugin.json".toList) } line

/-- A skill whose header says that users invoke it must be declared. -/
def skillRule (declared : List Text) (skill : Component) : List Issue :=
  if declared.contains (declaredPath skill) then []
  else
    match skill.content with
    | .error fault => [skill.cannotRead fault]
    | .ok content =>
      let header := (Document.parse content).header
      if (Fields.ofHeader header).userInvocable = some true then
        [undeclared skill (((header.field? "user-invocable".toList).map (·.line)).getD 0)]
      else []

/-- The commands field. Skills are looked at only when it lists something. -/
def commandsRule (s : Subject) (m : Manifest) : List Issue :=
  match m.commands with
  | none => []
  | some (.notArray value) =>
    [{ fieldIssue m "commands" .must "'commands' must be an array".toList with
       source := some (member "commands" value.compact)
       suggestion := some "Use \"commands\": [\"./skills/name/\"]".toList }]
  | some (.entries []) =>
    [{ fieldIssue m "commands" .must "'commands' array is empty".toList with
       suggestion := some "Add command paths or remove empty array".toList }]
  | some (.entries entries) =>
    entries.map (entryRule s m) ++ s.components.skills.flatMap (skillRule m.commandPaths)

/-- What is found in a manifest. -/
def fields (s : Subject) (m : Manifest) : List Issue :=
  [nameRule m, descriptionRule m, authorRule m, versionRule m, keywordsRule m] ++ commandsRule s m

def inspect (s : Subject) : Findings :=
  match s.manifest with
  | .missing => ⟨[issue .must "plugin.json not found"], false⟩
  | .unreadable fault =>
    ⟨[Issue.cannotRead manifestLabel.toList fault.message.toList], false⟩
  | .invalid e =>
    ⟨[Issue.atLine
      { issue .must "Invalid JSON syntax" with
        source := some s!"{e.message} (column {e.column})".toList
        suggestion := some "Fix JSON syntax error".toList } e.line], false⟩
  | .loaded m => ⟨fields s m, false⟩

end ManifestCheck

def manifestCheck : Check :=
  ⟨.manifest, "plugin.json syntax, required fields and declared commands".toList,
    ManifestCheck.inspect⟩

end PluginLint
