import PluginLint.FileTree.Path

/-!
# File trees

A file tree says what lies at which location: a file, a directory or a symbolic link. Paths are
followed through links, at most `linkLimit` of them, starting at the root for an absolute path and
at `base` for a relative one. What a path leads to is a location without links, its canonical name.

Permission is modelled for the contents of files only: a file may refuse to be read, and every
directory can be searched and listed. What the system reports of a directory that cannot is outside
this model, as is any change to the files while they are looked at.
-/
namespace PluginLint

/-- Why something could not be read. -/
inductive Fault where
  | notFound
  | notDirectory
  | isDirectory
  | linkLoop
  | tooLong
  | denied
  | notText
  deriving DecidableEq, Repr

/-- The system's words for a fault. -/
def Fault.message : Fault → String
  | .notFound => "No such file or directory (os error 2)"
  | .notDirectory => "Not a directory (os error 20)"
  | .isDirectory => "Is a directory (os error 21)"
  | .linkLoop => "Too many levels of symbolic links (os error 40)"
  | .tooLong => "File name too long (os error 36)"
  | .denied => "Permission denied (os error 13)"
  | .notText => "stream did not contain valid UTF-8"

/-- Where something lies: the names from the root of the file system down to it. -/
abbrev Location := List Text

/-- What a file holds: text, bytes that are no UTF-8, or something that may not be read. -/
inductive Content where
  | text (text : Text)
  | binary
  | denied
  deriving DecidableEq, Repr

/-- The content that some bytes stand for. -/
def Content.ofBytes (bytes : ByteArray) : Content :=
  match String.fromUTF8? bytes with
  | some s => .text s.toList
  | none => .binary

inductive Node where
  | file (content : Content)
  | directory
  | link (target : Path)
  deriving DecidableEq, Repr

structure FileTree where
  nodes : List (Location × Node)
  /-- the directory where relative paths start -/
  base : Location
  deriving DecidableEq, Repr

namespace FileTree

/-- What lies at a location. The root is always a directory. -/
def node? (t : FileTree) (place : Location) : Option Node :=
  if place = [] then some .directory else t.nodes.lookup place

/-- How far a path leads without passing a link. -/
inductive Descent where
  | arrived (place : Location)
  | met (directory : Location) (target : Path) (rest : List Text)
  | failed (fault : Fault)

/-- Follows segments from a location until they end or meet a link. Every segment, an empty one
and a dot too, needs a directory to start from. -/
def descend (t : FileTree) : Location → List Text → Descent
  | place, [] => .arrived place
  | place, segment :: rest =>
    if t.node? place = some .directory then
      if segment = [] ∨ segment = ['.'] then t.descend place rest
      else if segment = ['.', '.'] then t.descend place.dropLast rest
      else
        match t.node? (place ++ [segment]) with
        | none => .failed .notFound
        | some (.link target) => .met place target rest
        | some _ => t.descend (place ++ [segment]) rest
    else .failed .notDirectory

/-- Where a path starts when it is met in a directory. -/
def start (p : Path) (directory : Location) : Location :=
  if p.isAbsolute then [] else directory

/-- Follows segments through at most `links` links. -/
def follow (t : FileTree) : Nat → Location → List Text → Except Fault Location
  | links, place, segments =>
    match t.descend place segments with
    | .arrived location => .ok location
    | .failed fault => .error fault
    | .met directory target rest =>
      match links with
      | 0 => .error .linkLoop
      | links + 1 => t.follow links (start target directory) (target.segments ++ rest)

/-- How many links one path may lead through. -/
def linkLimit : Nat := 40

/-- A path of so many bytes leads nowhere. -/
def pathLimit : Nat := 4096

/-- The location that a path leads to, without links. -/
def locate (t : FileTree) (p : Path) : Except Fault Location :=
  if p.text = [] then .error .notFound
  else if pathLimit ≤ Text.byteCount p.text then .error .tooLong
  else t.follow linkLimit (start p t.base) p.segments

/-- What a path leads to. -/
def find? (t : FileTree) (p : Path) : Option Node :=
  match t.locate p with
  | .ok location => t.node? location
  | .error _ => none

def pathExists (t : FileTree) (p : Path) : Bool := (t.find? p).isSome

def isDirectory (t : FileTree) (p : Path) : Bool := t.find? p == some .directory

def isFile (t : FileTree) (p : Path) : Bool :=
  match t.find? p with
  | some (.file _) => true
  | _ => false

/-- The text of the file that a path leads to. -/
def readText (t : FileTree) (p : Path) : Except Fault Text :=
  match t.locate p with
  | .error fault => .error fault
  | .ok location =>
    match t.node? location with
    | some (.file (.text text)) => .ok text
    | some (.file .binary) => .error .notText
    | some (.file .denied) => .error .denied
    | some .directory => .error .isDirectory
    | _ => .error .notFound

/-- The text of a file that need not be there: nothing when the path leads to no file. -/
def readOptional (t : FileTree) (p : Path) : Except Fault (Option Text) :=
  if t.isFile p then (t.readText p).map some else .ok none

end FileTree
end PluginLint
