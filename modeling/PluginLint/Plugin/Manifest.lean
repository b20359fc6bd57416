import PluginLint.FileTree.Basic
import PluginLint.Json.Parser
import PluginLint.Json.Printer
import PluginLint.Text.Lines

/-!
# The plugin manifest

The manifest is a JSON object in a fixed file. Its known fields are kept as they were found, of
the right type or not, so that a rule can show a wrong value. The line of a field is the first one
on which its key stands in quotes.
-/
namespace PluginLint

/-- The directory of the manifest below the plugin root. -/
def manifestDirectory : String := ".claude-plugin"

/-- The manifest file relative to the plugin root, as issues name it. -/
def manifestLabel : String := ".claude-plugin/plugin.json"

/-- Where the manifest of a plugin lies. -/
def manifestPath (root : Path) : Path :=
  (root.join manifestDirectory.toList).join "plugin.json".toList

/-- A value that is expected to be a string. -/
inductive Scalar where
  | text (value : Text)
  | other (value : Json)

namespace Scalar

def ofJson : Json → Scalar
  | .string s => .text s
  | v => .other v

def text? : Scalar → Option Text
  | .text s => some s
  | .other _ => none

/-- The value as it is shown: a string in plain quotes, anything else as JSON. -/
def shown : Scalar → Text
  | .text s => '"' :: (s ++ ['"'])
  | .other v => v.compact

end Scalar

/-- A string as it is, any other value as JSON. -/
def plainText : Json → Text
  | .string s => s
  | v => v.compact

inductive Author where
  | person (name : Option Text)
  | other (value : Json)

/-- An entry of the declared commands. -/
inductive CommandEntry where
  | path (path : Text)
  | other (value : Json)

namespace CommandEntry

def ofJson : Json → CommandEntry
  | .string s => .path s
  | v => .other v

/-- The entry as messages name it. -/
def text : CommandEntry → Text
  | .path p => p
  | .other v => v.compact

/-- The entry as it is shown: a path in plain quotes, anything else as JSON. -/
def shown : CommandEntry → Text
  | .path p => '"' :: (p ++ ['"'])
  | .other v => v.compact

def path? : CommandEntry → Option Text
  | .path p => some p
  | .other _ => none

end CommandEntry

inductive Commands where
  | entries (entries : List CommandEntry)
  | notArray (value : Json)

/-- The known fields of a manifest and the text that they were read from. -/
structure Manifest where
  name : Option Scalar
  description : Option Text
  author : Option Author
  version : Option Scalar
  keywords : Option (List Text)
  commands : Option Commands
  raw : Text

namespace Manifest

def authorOf : Json → Author
  | .object members =>
    .person (match Json.member? "name".toList members with
      | none | some .null => none
      | some v => some (plainText v))
  | v => .other v

def keywordsOf : Json → List Text
  | .array items => items.map plainText
  | v => [plainText v]

def commandsOf : Json → Commands
  | .array items => .entries (items.map CommandEntry.ofJson)
  | v => .notArray v

/-- The manifest with the given members, read from a text. -/
def ofMembers (members : List (Text × Json)) (raw : Text) : Manifest :=
  let member (key : String) := Json.member? key.toList members
  { name := (member "name").map Scalar.ofJson
    description := (member "description").map plainText
    author := (member "author").map authorOf
    version := (member "version").map Scalar.ofJson
    keywords := (member "keywords").map keywordsOf
    commands := (member "commands").map commandsOf
    raw := raw }

/-- The first line on which a key stands in quotes. -/
def keyLine? (m : Manifest) (key : Text) : Option Nat :=
  ((Text.lines m.raw).findIdx? (Text.occurs ('"' :: (key ++ ['"'])))).map (· + 1)

/-- The declared command paths that are strings. -/
def commandPaths (m : Manifest) : List Text :=
  match m.commands with
  | some (.entries entries) => entries.filterMap CommandEntry.path?
  | _ => []

end Manifest

/-- Why a text is no manifest. -/
inductive ManifestError where
  | badJson (error : Json.ParseError)
  | notObject
  deriving DecidableEq, Repr

namespace ManifestError

def message : ManifestError → String
  | .badJson e => e.message
  | .notObject => "manifest root must be a JSON object"

def line : ManifestError → Nat
  | .badJson e => e.line
  | .notObject => 1

def column : ManifestError → Nat
  | .badJson e => e.column
  | .notObject => 1

end ManifestError

/-- What became of reading the manifest. -/
inductive ManifestSource where
  | missing
  | unreadable (fault : Fault)
  | invalid (error : ManifestError)
  | loaded (manifest : Manifest)

namespace ManifestSource

/-- The manifest that a text holds. -/
def parse (raw : Text) : ManifestSource :=
  match Json.parse raw with
  | .ok (.object members) => .loaded (Manifest.ofMembers members raw)
  | .ok _ => .invalid .notObject
  | .error e => .invalid (.badJson e)

/-- The manifest of the plugin below a root. -/
def load (t : FileTree) (root : Path) : ManifestSource :=
  let path := manifestPath root
  if t.isFile path then
    match t.readText path with
    | .ok raw => parse raw
    | .error fault => .unreadable fault
  else .missing

def isMissing : ManifestSource → Bool
  | .missing => true
  | _ => false

end ManifestSource
end PluginLint
