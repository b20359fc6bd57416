import PluginLint.FileTree.Listing

/-!
# Components of a plugin

A plugin keeps its components in fixed directories: commands and agents as `*.md` files, skills as
directories with an entry document. Each component is found and read once; a document that cannot
be read is a component all the same, with the fault in place of its text.
-/
namespace PluginLint

inductive ComponentKind where
  | command
  | agent
  | skill
  deriving DecidableEq, Repr

namespace ComponentKind

/-- The kinds in the order in which components are listed. -/
def all : List ComponentKind := [.command, .agent, .skill]

/-- The directory that holds components of a kind. -/
def directory : ComponentKind → String
  | .command => "commands"
  | .agent => "agents"
  | .skill => "skills"

def word : ComponentKind → String
  | .command => "command"
  | .agent => "agent"
  | .skill => "skill"

end ComponentKind

/-- The entry document of a skill. -/
def skillEntry : String := "SKILL.md"

/-- Documentation that is no command and no agent. -/
def readme : String := "README.md"

/-- A component document. -/
structure Component where
  kind : ComponentKind
  path : Path
  /-- the path relative to the plugin root -/
  label : Text
  content : Except Fault Text

namespace Component

/-- Reads the document at a path. -/
def load (t : FileTree) (root : Path) (kind : ComponentKind) (path : Path) : Component where
  kind := kind
  path := path
  label := Path.label root path
  content := t.readText path

/-- The name that naming rules look at: that of the directory for a skill, that of the file
without its extension otherwise. -/
def name (c : Component) : Text :=
  match c.kind with
  | .skill => (c.path.parent?.bind Path.fileName?).getD []
  | _ => (c.path.fileName?.map Path.nameStem).getD []

/-- The directory of a skill. -/
def skillDirectory? (c : Component) : Option Path :=
  match c.kind with
  | .skill => c.path.parent?
  | _ => none

end Component

/-- The components of a plugin, each kind in the order of file names. -/
structure Components where
  commands : List Component
  agents : List Component
  skills : List Component

namespace Components

def ofKind (c : Components) : ComponentKind → List Component
  | .command => c.commands
  | .agent => c.agents
  | .skill => c.skills

/-- Commands, then agents, then skills. -/
def toList (c : Components) : List Component := c.commands ++ c.agents ++ c.skills

end Components

/-- The directory of a plugin that holds components of a kind. -/
def kindDirectory (root : Path) (kind : ComponentKind) : Path := root.join kind.directory.toList

/-- The directories in which skills are looked for, with an entry document or without. -/
def skillDirectories (t : FileTree) (root : Path) : List Path :=
  ((t.entries (kindDirectory root .skill)).filter (·.isDirectory t)).map (·.path)

/-- The entry document of a skill directory. -/
def entryPath (directory : Path) : Path := directory.join skillEntry.toList

/-- Whether a listed file is a component document. -/
def isDocument (t : FileTree) (entry : FileTree.Entry) : Bool :=
  entry.isFile t && Path.nameExtension? entry.name == some "md".toList &&
    entry.name != readme.toList

/-- The documents of a kind that is kept as files. -/
def flatDocuments (t : FileTree) (root : Path) (kind : ComponentKind) : List Component :=
  ((t.entries (kindDirectory root kind)).filter (isDocument t)).map fun entry =>
    Component.load t root kind entry.path

/-- The entry documents of skills. -/
def skillDocuments (t : FileTree) (root : Path) : List Component :=
  (((skillDirectories t root).map entryPath).filter t.isFile).map
    (Component.load t root .skill)

/-- The components below a plugin root. -/
def discover (t : FileTree) (root : Path) : Components where
  commands := flatDocuments t root .command
  agents := flatDocuments t root .agent
  skills := skillDocuments t root

end PluginLint
