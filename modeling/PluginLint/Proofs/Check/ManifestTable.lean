import PluginLint.Check.Manifest
import PluginLint.Proofs.Check.Forms

/-!
# The table of rules on the manifest

The requirements of the manifest check as data: a name, an author with a name, commands that are a
list with something in it, and with such a list one rule for each entry and then one for each skill
(`ManifestRule.table`). Each is said by what violates it, in terms of the members of the JSON object
and of the plugin's tree, and each has its report.
-/
namespace PluginLint

instance (v : Json) : Decidable (v = .null) :=
  match v with
  | .null => isTrue rfl
  | .bool _ | .number _ | .string _ | .array _ | .object _ => isFalse (by simp)

/-! ## Rules -/

/-- A requirement on a manifest. -/
inductive ManifestRule where
  | name
  | author
  | commands
  | entry (item : Json)
  | skill (c : Component)

namespace ManifestRule

/-- The member of an object with a key. -/
def member? (members : List (Text × Json)) (key : String) : Option Json :=
  Json.member? key.toList members

/-- An object with a name other than null. -/
def NamesAuthor (author : Json) : Prop :=
  ∃ fields, author = .object fields ∧ ∃ name ∈ member? fields "name", name ≠ .null

/-- An array with something in it. -/
def IsListing (value : Json) : Prop := ∃ items, value = .array items ∧ items ≠ []

/-- The text of an entry that is a command path. -/
def commandPath? : Json → Option Text
  | .string path => if IsCommandPath path then some path else none
  | _ => none

/-- A command path whose directory lies below the root and holds an entry document. -/
def IsVerified (t : FileTree) (root : Path) (item : Json) : Prop :=
  ∃ path, item = .string path ∧ IsCommandPath path ∧
    t.isDirectory (root.join (ManifestCheck.trimSlashes path)) = true ∧
    t.isFile (entryPath (root.join (ManifestCheck.trimSlashes path))) = true

/-- The strings among some values. -/
def strings (items : List Json) : List Text :=
  items.filterMap fun item =>
    match item with
    | .string s => some s
    | _ => none

/-- Whether the header of a skill says that users invoke it. -/
def IsInvocable (content : Text) : Prop :=
  ∃ value ∈ (Document.parse content).header.value? "user-invocable".toList,
    Text.lowercase (Text.trim value) ∈ ["true".toList, "yes".toList, "on".toList, "1".toList]

/-- A skill whose path is in a list, or that is readable and not for users to invoke. -/
def IsAccountedFor (items : List Json) (skill : Component) : Prop :=
  "./skills/".toList ++ skill.name ++ ['/'] ∈ strings items ∨
    ∃ content, skill.content = .ok content ∧ ¬ IsInvocable content

/-- The entries of the commands, if they are a list. -/
def listed (members : List (Text × Json)) : List Json :=
  match member? members "commands" with
  | some (.array items) => items
  | _ => []

theorem listed_of_array {members : List (Text × Json)} {items : List Json}
    (h : member? members "commands" = some (.array items)) : listed members = items := by
  rw [listed, h]

/-- The rules for a manifest in the order of the report. Skills are looked at when entries are. -/
def table (skills : List Component) (members : List (Text × Json)) : List ManifestRule :=
  [.name, .author, .commands] ++
    match listed members with
    | [] => []
    | items => items.map .entry ++ skills.map .skill

/-- Whether a plugin violates a rule. -/
def Violated (t : FileTree) (root : Path) (members : List (Text × Json)) : ManifestRule → Prop
  | .name => member? members "name" = none
  | .author => ∀ author ∈ member? members "author", ¬ NamesAuthor author
  | .commands => ∃ value ∈ member? members "commands", ¬ IsListing value
  | .entry item => ¬ IsVerified t root item
  | .skill c => ¬ IsAccountedFor (listed members) c

/-! ### Deciding them -/

instance : DecidablePred NamesAuthor := fun author =>
  match author with
  | .object fields => decidable_of_iff (∃ name ∈ member? fields "name", name ≠ .null)
      (by simp [NamesAuthor])
  | .null | .bool _ | .number _ | .string _ | .array _ => isFalse (by simp [NamesAuthor])

instance : DecidablePred IsListing := fun value =>
  match value with
  | .array [] => isFalse (by simp [IsListing])
  | .array (_ :: _) => isTrue ⟨_, rfl, by simp⟩
  | .null | .bool _ | .number _ | .string _ | .object _ => isFalse (by simp [IsListing])

instance (t : FileTree) (root : Path) : DecidablePred (IsVerified t root) := fun item =>
  match item with
  | .string path => decidable_of_iff (IsCommandPath path ∧
        t.isDirectory (root.join (ManifestCheck.trimSlashes path)) = true ∧
        t.isFile (entryPath (root.join (ManifestCheck.trimSlashes path))) = true)
      (by simp [IsVerified])
  | .null | .bool _ | .number _ | .array _ | .object _ => isFalse (by simp [IsVerified])

instance : DecidablePred IsInvocable := fun content =>
  inferInstanceAs (Decidable (∃ value ∈ Document.parse content |>.header.value? _, _ ∈ _))

instance (items : List Json) : DecidablePred (IsAccountedFor items) := fun skill =>
  match h : skill.content with
  | .ok content => decidable_of_iff
      ("./skills/".toList ++ skill.name ++ ['/'] ∈ strings items ∨ ¬ IsInvocable content)
      (by simp [IsAccountedFor, h])
  | .error _ => decidable_of_iff ("./skills/".toList ++ skill.name ++ ['/'] ∈ strings items)
      (by simp [IsAccountedFor, h])

instance (t : FileTree) (root : Path) (members : List (Text × Json)) :
    DecidablePred (Violated t root members) := fun rule =>
  match rule with
  | .name => inferInstanceAs (Decidable (member? _ _ = none))
  | .author => inferInstanceAs (Decidable (∀ author ∈ member? _ _, ¬ NamesAuthor author))
  | .commands => inferInstanceAs (Decidable (∃ value ∈ member? _ _, ¬ IsListing value))
  | .entry item => inferInstanceAs (Decidable (¬ IsVerified t root item))
  | .skill c => inferInstanceAs (Decidable (¬ IsAccountedFor (listed members) c))

/-! ### Reports -/

/-- What there is to say on an entry that is a command path. -/
def pathMessage (t : FileTree) (root : Path) (path : Text) : Text :=
  if t.isDirectory (root.join (ManifestCheck.trimSlashes path)) = true then
    "Missing SKILL.md in command".toList
  else "Command path not found".toList

/-- What there is to say on commands that are no list with something in it. -/
def commandsMessage (members : List (Text × Json)) : Text :=
  match member? members "commands" with
  | some (.array _) => "'commands' array is empty".toList
  | _ => "'commands' must be an array".toList

/-- What there is to say on an entry. -/
def entryMessage (t : FileTree) (root : Path) (item : Json) : Text :=
  match commandPath? item with
  | some path => pathMessage t root path
  | none => "Invalid path format: ".toList ++ plainText item

/-- What there is to say on a skill that is not accounted for. -/
def skillMessage (c : Component) : Text :=
  match c.content with
  | .ok _ => "Undeclared user-invocable skill".toList
  | .error _ => "Cannot read file".toList

/-- What the report on a violation says. -/
def message (t : FileTree) (root : Path) (members : List (Text × Json)) : ManifestRule → Text
  | .name => "Missing 'name' field".toList
  | .author =>
    if member? members "author" = none then "Missing 'author' field".toList
    else "Missing 'author.name' field".toList
  | .commands => commandsMessage members
  | .entry item => entryMessage t root item
  | .skill c => skillMessage c

/-- What an issue names when it is about an entry: a command path by itself or by the file that is
missing. -/
def NamesEntry (i : Issue) (item : Json) : Prop :=
  match commandPath? item with
  | some path =>
    i.source = some ('"' :: (path ++ ['"'])) ∨ i.file = some (ManifestCheck.trimDots path)
  | none => i.file = some manifestLabel.toList

/-- What an issue names when it is the report on a rule. -/
def NamedBy (i : Issue) : ManifestRule → Prop
  | .entry item => NamesEntry i item
  | .skill c => i.file = some c.label
  | _ => i.file = some manifestLabel.toList

end ManifestRule

/-- Whether an issue is the report on a violated rule. -/
structure Issue.ReportsManifest (t : FileTree) (root : Path) (members : List (Text × Json))
    (rule : ManifestRule) (i : Issue) : Prop where
  severity : i.severity = .must
  message : i.message = rule.message t root members
  named : rule.NamedBy i

end PluginLint
