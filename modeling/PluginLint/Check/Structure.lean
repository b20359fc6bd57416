import PluginLint.Check.Basic
import PluginLint.Check.Naming
import PluginLint.Check.Phrase
import PluginLint.LintError

/-!
# The structure check

Where things lie and what they are called. Without a manifest there is one issue and nothing else
is looked at.
-/
namespace PluginLint

namespace StructureCheck

/-- The files that may name scripts. -/
def scriptConfigs : List String := ["hooks/hooks.json", ".mcp.json"]

/-- Directory names that say nothing. -/
def genericNames : List String := ["utils", "misc", "temp", "helpers"]

def manifestMissing : Issue :=
  { severity := .must
    message := "plugin.json not found in .claude-plugin/".toList
    suggestion := some "Create .claude-plugin/plugin.json with required fields".toList }

def manifestFound : Issue :=
  { severity := .ok, message := "plugin.json location correct".toList
    file := some manifestLabel.toList }

/-- A component directory inside the manifest's directory. -/
def misplaced (s : Subject) (kind : ComponentKind) : List Issue :=
  let path := (s.root.join manifestDirectory.toList).join kind.directory.toList
  if s.tree.pathExists path then
    [{ severity := .must
       message := s!"{kind.directory}/ inside {manifestDirectory}/".toList
       file := some (Path.label s.root path)
       suggestion := some s!"Move to plugin root: {kind.directory}/".toList }]
  else []

/-- A component whose name is not in kebab case. -/
def naming (c : Component) : List Issue :=
  if isKebab c.name then []
  else
    [{ severity := .should
       message := s!"{c.kind.word} name not kebab-case".toList
       file := some c.label
       source := some c.name
       suggestion := some "Use lowercase letters, numbers, hyphens only".toList }]

/-- A skill directory without an entry document. -/
def entryMissing (s : Subject) (directory : Path) : List Issue :=
  if s.tree.isFile (entryPath directory) then []
  else
    [{ severity := .must
       message := s!"Missing {skillEntry}".toList
       file := some (Path.label s.root directory ++ ['/'])
       suggestion := some "Create SKILL.md with frontmatter and content".toList }]

/-- The lines of a file that name a script by an absolute path. -/
def scriptPaths (file : Text) (number : Nat) : List Text → List Issue
  | [] => []
  | line :: rest =>
    (if Phrase.hasScriptPath line then
      [{ severity := .should
         message := "Hardcoded absolute path".toList
         file := some file
         line := some number
         source := some (Text.trim line)
         suggestion := some "Use $\x7bCLAUDE_PLUGIN_ROOT\x7d/path/to/script".toList }]
    else []) ++ scriptPaths file (number + 1) rest

/-- A file that may name scripts. -/
def scriptConfig (s : Subject) (file : Text) : List Issue :=
  match s.tree.readOptional (s.root.join file) with
  | .ok (some text) => scriptPaths file 1 (Text.lines text)
  | .ok none => []
  | .error fault => [Issue.cannotRead file (LintError.io fault.message.toList).message]

/-- A directory with a name that says nothing. -/
def generic (s : Subject) (name : String) : List Issue :=
  if s.tree.pathExists (s.root.join name.toList) then
    [{ severity := .should
       message := s!"Generic directory name: {name}/".toList
       suggestion := some "Use descriptive names like 'scripts/', 'references/'".toList }]
  else []

def readmeMissing (s : Subject) : List Issue :=
  if s.tree.pathExists (s.root.join readme.toList) then []
  else
    [{ severity := .may, message := "No README.md".toList
       suggestion := some "Add README.md for documentation".toList }]

/-- What is found when there is a manifest. -/
def layout (s : Subject) : List Issue :=
  [manifestFound] ++ ComponentKind.all.flatMap (misplaced s) ++
    s.components.toList.flatMap naming ++
    (skillDirectories s.tree s.root).flatMap (entryMissing s) ++
    scriptConfigs.flatMap (fun file => scriptConfig s file.toList) ++
    genericNames.flatMap (generic s) ++ readmeMissing s

def inspect (s : Subject) : Findings :=
  ⟨if s.manifest.isMissing then [manifestMissing] else layout s, false⟩

end StructureCheck

def structureCheck : Check :=
  ⟨.layout, "Manifest location, component naming and directory layout".toList,
    StructureCheck.inspect⟩

end PluginLint
