import PluginLint.FileTree.Basic

/-!
# Changing a file tree

Writing makes the directories that are missing on the way and goes through links; removing takes
away a file, a link or a whole directory.
-/
namespace PluginLint.FileTree

/-- The tree that holds nothing but the directory where relative paths start. -/
def blank (base : Location) : FileTree :=
  ⟨(List.range base.length).map fun n => (base.take (n + 1), .directory), base⟩

/-- The tree with `node` at a location, whatever was there. -/
def put (t : FileTree) (place : Location) (node : Node) : FileTree :=
  { t with nodes := (place, node) :: t.nodes.filter (·.1 ≠ place) }

/-- What lies at a location after something was put there. -/
theorem node?_put (t : FileTree) (place : Location) (node : Node) (h : place ≠ []) :
    (t.put place node).node? place = some node := by
  simp [put, node?, h]

/-- The tree with every directory on the way, and where the way ends. -/
def makeDirectories (t : FileTree) : Location → List Text → FileTree × Location
  | place, [] => (t, place)
  | place, segment :: rest =>
    match t.follow linkLimit place [segment] with
    | .ok location => t.makeDirectories location rest
    | .error _ => (t.put (place ++ [segment]) .directory).makeDirectories (place ++ [segment]) rest

/-- Where a file with a name in a directory comes to lie when it is written: at the end of the
links, whether there is a file yet or not. -/
def destination? (t : FileTree) : Nat → Location → Text → Option Location
  | 0, _, _ => none
  | links + 1, directory, name =>
    match t.node? (directory ++ [name]) with
    | some (.link target) =>
      match t.follow linkLimit (start target directory) target.segments.dropLast with
      | .ok place => t.destination? links place (target.segments.getLastD [])
      | .error _ => none
    | some .directory => none
    | _ =>
      if name = [] ∨ name = ['.'] ∨ name = ['.', '.'] then none else some (directory ++ [name])

/-- The tree with a file at a path. A link at that path is written through. -/
def writeFile (t : FileTree) (p : Path) (content : Content) : FileTree :=
  let (t, directory) := t.makeDirectories (start p t.base) p.segments.dropLast
  match t.destination? (linkLimit + 1) directory (p.segments.getLastD []) with
  | some place => t.put place (.file content)
  | none => t

/-- The tree with a directory at a path. -/
def makeDirectory (t : FileTree) (p : Path) : FileTree :=
  (t.makeDirectories (start p t.base) p.segments).1

/-- The tree with a link at a path. -/
def makeLink (t : FileTree) (p target : Path) : FileTree :=
  let (t, directory) := t.makeDirectories (start p t.base) p.segments.dropLast
  t.put (directory ++ [p.segments.getLastD []]) (.link target)

/-- The tree without what lies at a path, and without all below it. -/
def remove (t : FileTree) (p : Path) : FileTree :=
  let segments := Path.trimSegments p.segments
  match t.follow linkLimit (start p t.base) segments.dropLast with
  | .ok directory =>
    let place := directory ++ [segments.getLastD []]
    { t with nodes := t.nodes.filter fun entry => !place.isPrefixOf entry.1 }
  | .error _ => t

end PluginLint.FileTree
