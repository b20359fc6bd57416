import PluginLint.Text.Basic

/-!
# Paths

A path is kept as it is written, because that is how it is shown. Its parts are what it means:
repeated and trailing slashes and inner dots do not count, a dot at the front does. A label is the
rest of a path below a root, part by part, so it does not depend on how the root is spelled.

No path that the system takes holds a NUL, so a path with one stands here for a path whose bytes are
no UTF-8 (`Path.isText`). What is shown for such a path, replacement characters in its place, is not
modelled: its text and its labels are those of the path that stands for it.
-/
namespace PluginLint

/-- A path as it is written. -/
structure Path where
  text : Text
  deriving DecidableEq, Repr

namespace Path

/-- A step of a path. -/
inductive Part where
  /-- the slash at the front of an absolute path -/
  | root
  /-- a dot at the front of a relative path -/
  | here
  /-- two dots -/
  | up
  | name (name : Text)
  deriving DecidableEq, Repr

/-- How a part is written. -/
def Part.text : Part → Text
  | .root => ['/']
  | .here => ['.']
  | .up => ['.', '.']
  | .name n => n

/-- What stands between two slashes, as a part; nothing for an empty segment and for a dot. -/
def Part.ofSegment? (segment : Text) : Option Part :=
  if segment = [] ∨ segment = ['.'] then none
  else if segment = ['.', '.'] then some .up
  else some (.name segment)

def ofString (s : String) : Path := ⟨s.toList⟩

def toString (p : Path) : String := String.ofList p.text

instance : ToString Path := ⟨Path.toString⟩

/-- What stands between the slashes, the empty texts around leading and trailing ones included. -/
def segments (p : Path) : List Text := p.text.splitOn '/'

def isAbsolute (p : Path) : Bool := p.text.head? == some '/'

/-- Whether the bytes of a path are UTF-8. -/
def isText (p : Path) : Bool := p.text.all (· ≠ '\x00')

/-- The marker at the front of a path: a slash, a dot, or none. -/
def front (p : Path) : Option Part :=
  if p.isAbsolute then some .root
  else if p.segments.head? = some ['.'] then some .here
  else none

/-- The parts of a path. -/
def parts (p : Path) : List Part := p.front.toList ++ p.segments.filterMap Part.ofSegment?

/-- The path of something below a directory; an absolute `child` stands for itself. -/
def join (p : Path) (child : Text) : Path :=
  if child.head? = some '/' then ⟨child⟩
  else if p.text = [] ∨ p.text.getLast? = some '/' then ⟨p.text ++ child⟩
  else ⟨p.text ++ '/' :: child⟩

/-- The last part, when it is a name. -/
def fileName? (p : Path) : Option Text :=
  match p.parts.getLast? with
  | some (.name name) => some name
  | _ => none

/-- A file name split at its last dot; a dot at the front does not split. -/
def splitName (name : Text) : Text × Option Text :=
  match name.reverse.dropWhile (· ≠ '.') with
  | _ :: before =>
    if before = [] then (name, none)
    else (before.reverse, some (name.reverse.takeWhile (· ≠ '.')).reverse)
  | [] => (name, none)

/-- The part of a file name after its last dot. -/
def nameExtension? (name : Text) : Option Text := (splitName name).2

/-- The part of a file name before its last dot. -/
def nameStem (name : Text) : Text := (splitName name).1

/-- Segments that stand for no part, dropped from the end. -/
def trimSegments (segments : List Text) : List Text :=
  (segments.reverse.dropWhile fun s => s = [] ∨ s = ['.']).reverse

/-- The path as it is written without its last part and what follows it; nothing for a path
without a part that could be taken away. -/
def parent? (p : Path) : Option Path :=
  let glue (segments : List Text) : Text := List.intercalate ['/'] segments
  match p.front, trimSegments (if p.front = none then p.segments else p.segments.tail) with
  | some .here, [] => some ⟨[]⟩
  | _, [] => none
  | marker, last =>
    match marker, trimSegments last.dropLast with
    | some .root, rest => some ⟨'/' :: glue rest⟩
    | some _, rest => some ⟨glue (['.'] :: rest)⟩
    | none, rest => some ⟨glue rest⟩

/-- The path relative to `root`, its parts joined by single slashes; a path that is not below
`root` stands as it is written. -/
def label (root p : Path) : Text :=
  if root.parts.isPrefixOf p.parts then
    List.intercalate ['/'] ((p.parts.drop root.parts.length).map Part.text)
  else p.text

example : (ofString "./a//b/./c/").parts = [.here, .name ['a'], .name ['b'], .name ['c']] := by
  decide

example : (ofString "./a//b/./c/").parent? = some (ofString "./a//b") := by decide

end Path
end PluginLint
