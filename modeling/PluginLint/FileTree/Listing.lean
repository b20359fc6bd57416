import PluginLint.FileTree.Basic

/-!
# Listings

Two ways to enumerate a directory. `entries` gives its immediate children with links followed: a
link that leads nowhere, or back to the directory itself, is left out. `filesBelow` gives the
regular files at any depth and follows no link inside; a directory whose whole path is too long is
not looked into. Both are sorted by name, directory by directory.
-/
namespace PluginLint.FileTree

/-- The name of a location inside a directory, when it lies immediately in it. -/
def childName? : Location → Location → Option Text
  | [], [name] => some name
  | d :: directory, l :: location => if d = l then childName? directory location else none
  | _, _ => none

/-- Whether one value may come before another. -/
def inOrder {α : Type} [LT α] [DecidableLT α] (a b : α) : Bool := !decide (b < a)

/-- The names in the directory at a location, in order. -/
def names (t : FileTree) (directory : Location) : List Text :=
  (t.nodes.filterMap fun entry => childName? directory entry.1).eraseDups.mergeSort inOrder

/-- A child of a listed directory. -/
structure Entry where
  name : Text
  path : Path
  /-- where the child lies once links are followed -/
  location : Location
  deriving DecidableEq, Repr

/-- A child of the directory that a path leads to. A link is followed by its whole path, so the
links on the way to the directory count too. -/
def entry? (t : FileTree) (directory : Path) (place : Location) (name : Text) : Option Entry :=
  match t.node? (place ++ [name]) with
  | some (.link _) =>
    match t.locate (directory.join name) with
    | .ok location =>
      if location = place then none else some ⟨name, directory.join name, location⟩
    | .error _ => none
  | _ => some ⟨name, directory.join name, place ++ [name]⟩

/-- The children of the directory that a path leads to, links followed. -/
def entries (t : FileTree) (directory : Path) : List Entry :=
  match t.locate directory with
  | .error _ => []
  | .ok place =>
    if t.node? place = some .directory then (t.names place).filterMap (t.entry? directory place)
    else []

/-- Whether a child is a directory. -/
def Entry.isDirectory (t : FileTree) (entry : Entry) : Bool :=
  t.node? entry.location == some .directory

/-- Whether a child is a regular file. -/
def Entry.isFile (t : FileTree) (entry : Entry) : Bool :=
  match t.node? entry.location with
  | some (.file _) => true
  | _ => false

/-- Whether something lies below a directory with only directories in between. -/
def reaches (t : FileTree) : Location → Location → Bool
  | _, [] => false
  | directory, [name] => (t.node? (directory ++ [name])).isSome
  | directory, name :: rest =>
    t.node? (directory ++ [name]) == some .directory && t.reaches (directory ++ [name]) rest

/-- The locations below a directory, relative to it, in order and without links followed. -/
def below (t : FileTree) (directory : Location) : List Location :=
  let inside := t.nodes.filterMap fun entry =>
    if directory.isPrefixOf entry.1 then some (entry.1.drop directory.length) else none
  (inside.filter (t.reaches directory)).eraseDups.mergeSort inOrder

/-- Whether a regular file lies at a location. -/
def holdsFile (t : FileTree) (place : Location) : Bool :=
  match t.node? place with
  | some (.file _) => true
  | _ => false

/-- Whether a walk looks into the directory in which a relative location lies. It opens every
directory on the way by its whole path, and the last of these paths is the longest. -/
def opens (directory : Path) (relative : Location) : Bool :=
  Text.byteCount (relative.dropLast.foldl Path.join directory).text < pathLimit

/-- The regular files below the directory that a path leads to. -/
def filesBelow (t : FileTree) (directory : Path) : List Path :=
  match t.locate directory with
  | .error _ => []
  | .ok place =>
    if t.node? place = some .directory then
      ((t.below place).filter fun relative =>
        opens directory relative && t.holdsFile (place ++ relative)).map fun relative =>
          relative.foldl Path.join directory
    else []

end PluginLint.FileTree
