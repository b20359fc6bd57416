import Mathlib.Data.Nat.Find
import PluginLint.Proofs.Check.ManifestRules
import PluginLint.Proofs.Check.Messages
import PluginLint.Proofs.Json.Places
import PluginLint.Proofs.Plugin.ShownValues
import PluginLint.Proofs.Text.Lines

/-!
# Lines of manifest fields

A finding on a field of the manifest stands at the first line that mentions its key in quotes, as
whatever the quotes stand there (`keyLine?_eq_some_iff`). The member itself is written somewhere
too. When no character of its key is escaped, its line is one of those that mention the key, so the
finding stands there or further up (`field_findings_stand_at_first_mention`).
-/
namespace PluginLint

/-! ## Mentions of a key -/

/-- Whether a text has a key in quotes on the line with a number. -/
def Mentions (raw key : Text) (n : Nat) : Prop :=
  ∃ line, Text.lineAt? raw n = some line ∧ '"' :: (key ++ ['"']) <:+: line

/-- Whether a line is the first one that mentions a key. -/
def FirstMention (raw key : Text) (n : Nat) : Prop :=
  Mentions raw key n ∧ ∀ k < n, ¬ Mentions raw key k

theorem FirstMention.le {raw key : Text} {k n : Nat} (h : FirstMention raw key k)
    (hn : Mentions raw key n) : k ≤ n :=
  Nat.not_lt.mp fun hlt => h.2 n hlt hn

theorem exists_firstMention {raw key : Text} {n : Nat} (h : Mentions raw key n) :
    ∃ k, FirstMention raw key k := by
  classical
  exact ⟨Nat.find ⟨n, h⟩, Nat.find_spec ⟨n, h⟩, fun k hk => Nat.find_min ⟨n, h⟩ hk⟩

theorem not_mentions_zero (raw key : Text) : ¬ Mentions raw key 0 := by
  rintro ⟨line, hline, -⟩
  cases hline

theorem mentions_succ_iff {raw key : Text} {n : Nat} : Mentions raw key (n + 1) ↔
    ∃ h : n < (Text.lines raw).length,
      Text.occurs ('"' :: (key ++ ['"'])) (Text.lines raw)[n] = true := by
  constructor
  · rintro ⟨line, hline, hpart⟩
    obtain ⟨hn, rfl⟩ := List.getElem?_eq_some_iff.mp hline
    exact ⟨hn, Text.occurs_iff_isInfix.mpr hpart⟩
  · rintro ⟨hn, hoccurs⟩
    exact ⟨_, List.getElem?_eq_getElem hn, Text.occurs_iff_isInfix.mp hoccurs⟩

theorem Manifest.keyLine?_eq_some_iff {m : Manifest} {key : Text} {n : Nat} :
    m.keyLine? key = some n ↔ FirstMention m.raw key n := by
  rw [keyLine?, Option.map_eq_some_iff]
  constructor
  · rintro ⟨i, hi, rfl⟩
    obtain ⟨hlength, hoccurs, hbefore⟩ := List.findIdx?_eq_some_iff_getElem.mp hi
    refine ⟨mentions_succ_iff.mpr ⟨hlength, hoccurs⟩, fun k hk hmention => ?_⟩
    cases k with
    | zero => exact not_mentions_zero _ _ hmention
    | succ j =>
      obtain ⟨hj, hoccurs⟩ := mentions_succ_iff.mp hmention
      exact hbefore j (Nat.lt_of_succ_lt_succ hk) hoccurs
  · rintro ⟨hmention, hfirst⟩
    cases n with
    | zero => exact absurd hmention (not_mentions_zero _ _)
    | succ i =>
      obtain ⟨hi, hoccurs⟩ := mentions_succ_iff.mp hmention
      refine ⟨i, List.findIdx?_eq_some_iff_getElem.mpr ⟨hi, hoccurs, fun j hj hoccurs => ?_⟩, rfl⟩
      exact hfirst (j + 1) (Nat.succ_lt_succ hj)
        (mentions_succ_iff.mpr ⟨hj.trans hi, hoccurs⟩)

/-- A member whose key is written as it is mentions the key where it stands. -/
theorem Json.WritesMember.mentions {raw key : Text} {n : Nat}
    (h : Json.WritesMember raw key key n) : Mentions raw key n := by
  obtain ⟨before, behind, value, rfl, -, hkey, -, rfl⟩ := h
  have hquoted : '"' :: (key ++ '"' :: behind) = '"' :: (key ++ ['"']) ++ behind := by simp
  have hfeed : '\n' ∉ '"' :: (key ++ ['"']) := by
    have hplain := (Json.stringText_self_iff key).mp hkey
    have hkeyFeed : '\n' ∉ key := fun hmem => hplain _ hmem (.inr (.inr (by decide)))
    simp [hkeyFeed]
  have hend : ('"' :: (key ++ ['"'])).getLast? ≠ some '\r' := by
    rw [← List.cons_append, List.getLast?_concat]
    decide
  rw [hquoted]
  exact Text.exists_lineAt?_infix hfeed (List.cons_ne_nil _ _) hend before behind

/-! ## Findings on fields -/

/-- How the messages of the findings start that are on a field that is there. -/
def fieldFindings : List (String × String) :=
  [("name", "name: "), ("name", "Plugin name not kebab-case"),
    ("author", "author.name present"), ("author", "Missing 'author.name' field"),
    ("version", "version: "), ("version", "Version not semver format"),
    ("commands", "'commands' must be an array"), ("commands", "'commands' array is empty"),
    ("commands", "Invalid path format: "), ("commands", "Command path not found"),
    ("commands", "Verified: ")]

/-- Whether an issue is a finding on the field with a key. -/
def Issue.IsOnKey (i : Issue) (key : String) : Prop :=
  ∃ finding ∈ fieldFindings, finding.1 = key ∧ finding.2.toList <+: i.message

/-- The first four characters of these messages, which tell the field. -/
def fieldHeads : List (String × Text) :=
  [("name", ['n', 'a', 'm', 'e']), ("name", ['P', 'l', 'u', 'g']), ("author", ['a', 'u', 't', 'h']),
    ("author", ['M', 'i', 's', 's']), ("version", ['v', 'e', 'r', 's']),
    ("version", ['V', 'e', 'r', 's']), ("commands", "'com".toList),
    ("commands", ['I', 'n', 'v', 'a']), ("commands", ['C', 'o', 'm', 'm']),
    ("commands", ['V', 'e', 'r', 'i'])]

/-- The heads are those of the table, and of a field that is there only the name of an author can be
missing. -/
theorem heads_of_findings : ∀ finding ∈ fieldFindings, 4 ≤ finding.2.toList.length ∧
    (finding.1, finding.2.toList.take 4) ∈ fieldHeads ∧
    (finding.2.toList.take 4 = ['M', 'i', 's', 's'] →
      "Missing 'author.".toList <+: finding.2.toList) := by decide

namespace Issue

variable {i : Issue} {key : String}

theorem IsOnKey.exists_head (h : i.IsOnKey key) : (key, i.message.take 4) ∈ fieldHeads ∧
    (i.message.take 4 = ['M', 'i', 's', 's'] → "Missing 'author.".toList <+: i.message) := by
  obtain ⟨finding, hmem, rfl, rest, hrest⟩ := h
  obtain ⟨hlong, hhead, hmissing⟩ := heads_of_findings finding hmem
  rw [← hrest, List.take_append_of_le_length hlong]
  exact ⟨hhead, fun hmiss => (hmissing hmiss).trans (List.prefix_append _ _)⟩

theorem not_isOnKey_of_head (head : Text) (hhead : i.message.take 4 = head)
    (hno : ∀ entry ∈ fieldHeads, entry.2 ≠ head) : ¬ i.IsOnKey key := fun h =>
  hno _ h.exists_head.1 hhead

theorem not_isOnKey_of_missing (hhead : i.message.take 4 = ['M', 'i', 's', 's'])
    (hno : ¬ "Missing 'author.".toList <+: i.message) : ¬ i.IsOnKey key := fun h =>
  hno (h.exists_head.2 hhead)

end Issue

namespace ManifestCheck

theorem line_fieldIssue (m : Manifest) (key : String) (severity : Severity) (message : Text) :
    (fieldIssue m key severity message).line = m.keyLine? key.toList := by
  unfold fieldIssue Issue.atLine
  cases hline : m.keyLine? key.toList with
  | none => rfl
  | some n =>
    cases n with
    | zero => exact absurd (Manifest.keyLine?_eq_some_iff.mp hline).1 (not_mentions_zero _ _)
    | succ n => rfl

/-- Whether an issue stands at the first mention of a field that the manifest has. -/
structure StandsAtKey (members : List (Text × Json)) (raw : Text) (key : String) (i : Issue) :
    Prop where
  present : ∃ v, Json.member? key.toList members = some v
  file : i.file = some manifestLabel.toList
  line : ∀ n, i.line = some n ↔ FirstMention raw key.toList n

variable {s : Subject} {members : List (Text × Json)} {raw : Text} {key : String} {i : Issue}

/-- A finding on a field of the manifest stands at the first mention of its key. -/
theorem standsAtKey_of_head (head : Text) {field : String} {severity : Severity} {message : Text}
    {source suggestion : Option Text} (h : i.IsOnKey key)
    (hi : i = { fieldIssue (.ofMembers members raw) field severity message with
      source := source, suggestion := suggestion })
    (hpresent : ∃ v, Json.member? field.toList members = some v)
    (hhead : message.take 4 = head) (hfield : ∀ entry ∈ fieldHeads, entry.2 = head →
      entry.1 = field) : StandsAtKey members raw key i := by
  subst hi
  obtain rfl : key = field := by
    refine hfield _ h.exists_head.1 ?_
    rwa [message_fieldIssue]
  refine ⟨hpresent, file_fieldIssue .., fun n => ?_⟩
  rw [line_fieldIssue, Manifest.keyLine?_eq_some_iff]
  rfl

theorem standsAtKey_nameRule (hi : i = nameRule (.ofMembers members raw)) (h : i.IsOnKey key) :
    StandsAtKey members raw key i := by
  unfold nameRule at hi
  split at hi
  · subst hi
    exact absurd h (Issue.not_isOnKey_of_missing rfl (by decide))
  · next name hname =>
    have hpresent := (Option.map_eq_some_iff.mp hname).imp fun _ => And.left
    split at hi
    · exact standsAtKey_of_head "name".toList h hi hpresent rfl (by decide)
    · exact standsAtKey_of_head "Plug".toList h hi hpresent rfl (by decide)

theorem standsAtKey_versionRule (hi : i = versionRule (.ofMembers members raw))
    (h : i.IsOnKey key) : StandsAtKey members raw key i := by
  unfold versionRule at hi
  split at hi
  · subst hi
    exact absurd h (Issue.not_isOnKey_of_head "No '".toList rfl (by decide))
  · next version hversion =>
    have hpresent := (Option.map_eq_some_iff.mp hversion).imp fun _ => And.left
    split at hi
    · exact standsAtKey_of_head "vers".toList h hi hpresent rfl (by decide)
    · exact standsAtKey_of_head "Vers".toList h hi hpresent rfl (by decide)

theorem standsAtKey_authorRule (hi : i = authorRule (.ofMembers members raw))
    (h : i.IsOnKey key) : StandsAtKey members raw key i := by
  have hpresent {author : Author}
      (hauthor : (Manifest.ofMembers members raw).author = some author) :
      ∃ v, Json.member? "author".toList members = some v :=
    (Option.map_eq_some_iff.mp hauthor).imp fun _ => And.left
  unfold authorRule at hi
  split at hi
  · subst hi
    exact absurd h (Issue.not_isOnKey_of_missing rfl (by decide))
  · next hauthor => exact standsAtKey_of_head "auth".toList h hi (hpresent hauthor) rfl (by decide)
  · next hauthor => exact standsAtKey_of_head "Miss".toList h hi (hpresent hauthor) rfl (by decide)
  · next hauthor => exact standsAtKey_of_head "Miss".toList h hi (hpresent hauthor) rfl (by decide)

theorem standsAtKey_entryRule {entry : CommandEntry}
    (hpresent : ∃ v, Json.member? "commands".toList members = some v)
    (hi : i = entryRule s (.ofMembers members raw) entry) (h : i.IsOnKey key) :
    StandsAtKey members raw key i := by
  unfold entryRule at hi
  split at hi
  · simp only [pathRule] at hi
    split at hi
    · exact standsAtKey_of_head "Comm".toList h hi hpresent rfl (by decide)
    · split at hi
      · subst hi
        have hother : ¬ "Missing 'author.".toList <+: "Missing SKILL.md in command".toList := by
          decide
        exact absurd h (Issue.not_isOnKey_of_missing rfl hother)
      · exact standsAtKey_of_head "Veri".toList h hi hpresent rfl (by decide)
  · exact standsAtKey_of_head "Inva".toList h hi hpresent rfl (by decide)

theorem not_isOnKey_descriptionRule (m : Manifest) : ¬ (descriptionRule m).IsOnKey key := by
  unfold descriptionRule
  split
  · refine Issue.not_isOnKey_of_head "desc".toList ?_ (by decide)
    rw [message_fieldIssue]
    rfl
  · exact Issue.not_isOnKey_of_missing rfl (by decide)

theorem not_isOnKey_keywordsRule (m : Manifest) : ¬ (keywordsRule m).IsOnKey key := by
  unfold keywordsRule
  split
  · refine Issue.not_isOnKey_of_head "keyw".toList ?_ (by decide)
    rw [message_fieldIssue]
    rfl
  · exact Issue.not_isOnKey_of_head "No '".toList rfl (by decide)

theorem not_isOnKey_skillRule {declared : List Text} {skill : Component}
    (hi : i ∈ skillRule declared skill) : ¬ i.IsOnKey key := by
  unfold skillRule at hi
  split at hi
  · cases hi
  · split at hi
    · obtain rfl := List.mem_singleton.mp hi
      exact Issue.not_isOnKey_of_head "Cann".toList rfl (by decide)
    · obtain ⟨-, hundeclared⟩ := List.mem_ite_nil_right.mp hi
      obtain rfl := List.mem_singleton.mp hundeclared
      refine Issue.not_isOnKey_of_head "Unde".toList ?_ (by decide)
      rw [undeclared, Issue.message_atLine]
      rfl

theorem standsAtKey_commandsRule (hi : i ∈ commandsRule s (.ofMembers members raw))
    (h : i.IsOnKey key) : StandsAtKey members raw key i := by
  have hpresent {commands : Commands}
      (hcommands : (Manifest.ofMembers members raw).commands = some commands) :
      ∃ v, Json.member? "commands".toList members = some v :=
    (Option.map_eq_some_iff.mp hcommands).imp fun _ => And.left
  unfold commandsRule at hi
  split at hi
  · cases hi
  · next hcommands =>
    exact standsAtKey_of_head "'com".toList h (List.mem_singleton.mp hi) (hpresent hcommands) rfl
      (by decide)
  · next hcommands =>
    exact standsAtKey_of_head "'com".toList h (List.mem_singleton.mp hi) (hpresent hcommands) rfl
      (by decide)
  · next hcommands =>
    rcases List.mem_append.mp hi with hentry | hskill
    · obtain ⟨entry, -, hentry⟩ := List.mem_map.mp hentry
      exact standsAtKey_entryRule (hpresent hcommands) hentry.symm h
    · obtain ⟨skill, -, hskill⟩ := List.mem_flatMap.mp hskill
      exact absurd h (not_isOnKey_skillRule hskill)

theorem standsAtKey_of_mem_fields (hi : i ∈ fields s (.ofMembers members raw))
    (h : i.IsOnKey key) : StandsAtKey members raw key i := by
  simp only [fields, List.mem_append, List.mem_cons, List.not_mem_nil, or_false] at hi
  rcases hi with (hname | hdescription | hauthor | hversion | hkeywords) | hcommands
  · exact standsAtKey_nameRule hname h
  · exact absurd (hdescription ▸ h) (not_isOnKey_descriptionRule _)
  · exact standsAtKey_authorRule hauthor h
  · exact standsAtKey_versionRule hversion h
  · exact absurd (hkeywords ▸ h) (not_isOnKey_keywordsRule _)
  · exact standsAtKey_commandsRule hcommands h

end ManifestCheck

section Runs

variable {t : FileTree} {root : Path} {raw : Text} {m : Manifest} {i : Issue} {key : String}

theorem ManifestCheck.standsAtKey_of_mem_run {members : List (Text × Json)} {limits : Limits}
    {counter : Counter} {verbose : Bool} (hread : t.readText (manifestPath root) = .ok raw)
    (hraw : Json.parse raw = .ok (.object members))
    (hi : i ∈ (manifestCheck.run (.ofRoot t root limits counter verbose)).issues)
    (h : i.IsOnKey key) : StandsAtKey members raw key i := by
  rw [Check.issues_run, inspect_of_members hread hraw] at hi
  obtain ⟨found, hfound, rfl⟩ := List.mem_map.mp hi
  obtain ⟨hpresent, hfile, hline⟩ := standsAtKey_of_mem_fields (List.mem_of_mem_filter hfound) h
  exact ⟨hpresent, hfile, hline⟩

/-- For a manifest that is loaded, a finding on a field stands at the first line that mentions the
key of the field, if one does. The field has its key written as a member of the outermost object,
and where that is done without an escape the finding stands there or at an earlier mention. -/
theorem field_findings_stand_at_first_mention (limits : Limits) (counter : Counter)
    (verbose : Bool) (hread : t.readText (manifestPath root) = .ok raw)
    (hloaded : ManifestSource.parse raw = .loaded m) :
    ∀ i ∈ (manifestCheck.run (.ofRoot t root limits counter verbose)).issues, ∀ key : String,
      i.IsOnKey key →
      i.file = some manifestLabel.toList ∧
      (∀ n, i.line = some n ↔ FirstMention raw key.toList n) ∧
      (∃ written n, Json.WritesMember raw key.toList written n) ∧
      ∀ n, Json.WritesMember raw key.toList key.toList n →
        ∃ line ≤ n, i.line = some line ∧ (line = n ↔ ∀ k < n, ¬ Mentions raw key.toList k) := by
  intro i hi key hkey
  obtain ⟨members, hraw, -⟩ := ManifestSource.exists_members hloaded
  obtain ⟨⟨v, hv⟩, hfile, hline⟩ := ManifestCheck.standsAtKey_of_mem_run hread hraw hi hkey
  refine ⟨hfile, hline, Json.exists_writesMember hraw hv, fun n hn => ?_⟩
  obtain ⟨line, hfirst⟩ := exists_firstMention hn.mentions
  refine ⟨line, hfirst.le hn.mentions, (hline line).mpr hfirst, ?_, ?_⟩
  · rintro rfl
    exact hfirst.2
  · intro hbefore
    exact Nat.le_antisymm (hfirst.le hn.mentions)
      (Nat.not_lt.mp fun hlt => hbefore line hlt hfirst.1)

end Runs

/-- A plugin with nothing but a manifest. -/
def bareTree (raw : Text) : FileTree where
  nodes :=
    [(["p".toList], .directory),
      (["p".toList, manifestDirectory.toList], .directory),
      (["p".toList, manifestDirectory.toList, "plugin.json".toList], .file (.text raw))]
  base := []

/-- A manifest whose author has a name that is written before the name of the plugin. -/
def authorFirstManifest : Text :=
  "\x7b\"author\":\n\x7b\"name\": \"a\"\x7d,\n\"name\": \"P\"\x7d\n".toList

def authorFirstMembers : List (Text × Json) :=
  [("author".toList, .object [("name".toList, .string "a".toList)]),
    ("name".toList, .string "P".toList)]

/-- A manifest with an escape in its key. -/
def escapedManifest : Text := "\x7b\"na\\u006de\": \"P\"\x7d".toList

/-- The finding on the name of both. -/
def nameFinding (line : Option Nat) : Issue where
  severity := .should
  check := .manifest
  message := "Plugin name not kebab-case".toList
  file := some manifestLabel.toList
  line := line
  source := some "\"name\": \"P\"".toList
  suggestion := some "Use lowercase letters, numbers, hyphens only".toList

theorem nameFinding_isOnKey (line : Option Nat) : (nameFinding line).IsOnKey "name" :=
  ⟨("name", "Plugin name not kebab-case"), by decide, rfl, List.prefix_rfl⟩

theorem bareTree_read (raw : Text) :
    (bareTree raw).readText (manifestPath ⟨"/p".toList⟩) = .ok raw := rfl

theorem nameFinding_mem_run {raw : Text} {members : List (Text × Json)} {line : Option Nat}
    (hraw : Json.parse raw = .ok (.object members))
    (hname : (ManifestCheck.nameRule (.ofMembers members raw)).stamp .manifest =
      nameFinding line) :
    nameFinding line ∈ (manifestCheck.run
      (.ofRoot (bareTree raw) ⟨"/p".toList⟩ .standard .approximate false)).issues := by
  rw [Check.issues_run, ManifestCheck.inspect_of_members (bareTree_read raw) hraw]
  refine List.mem_map.mpr ⟨_, List.mem_filter.mpr ⟨?_, ?_⟩, hname⟩
  · exact List.mem_append_left _ List.mem_cons_self
  · have hseverity : (ManifestCheck.nameRule (.ofMembers members raw)).severity = .should :=
      congrArg Issue.severity hname
    rw [hseverity]
    rfl

theorem parse_authorFirstManifest :
    Json.parse authorFirstManifest = .ok (.object authorFirstMembers) := by decide +kernel

theorem parse_escapedManifest :
    Json.parse escapedManifest = .ok (.object [("name".toList, .string "P".toList)]) := by decide +kernel

theorem authorFirst_reported : nameFinding (some 2) ∈ (manifestCheck.run
    (.ofRoot (bareTree authorFirstManifest) ⟨"/p".toList⟩ .standard .approximate false)).issues :=
  nameFinding_mem_run parse_authorFirstManifest (by decide)

theorem escaped_reported : nameFinding none ∈ (manifestCheck.run
    (.ofRoot (bareTree escapedManifest) ⟨"/p".toList⟩ .standard .approximate false)).issues :=
  nameFinding_mem_run parse_escapedManifest (by decide)

/-- The name of the plugin is written on the third line. -/
theorem authorFirst_writes_name :
    Json.WritesMember authorFirstManifest "name".toList "name".toList 3 := by
  refine ⟨"\x7b\"author\":\n\x7b\"name\": \"a\"\x7d,\n".toList, ": \"P\"\x7d\n".toList, _,
    by decide, by decide, ?_, rfl, by decide⟩
  exact (Json.stringText_self_iff _).mpr (Json.not_needsEscape_of_all (by decide))

theorem authorFirst_stands_at_first_mention :
    (bareTree authorFirstManifest).readText (manifestPath ⟨"/p".toList⟩) =
      .ok authorFirstManifest ∧
    (∃ m, ManifestSource.parse authorFirstManifest = .loaded m) ∧
    nameFinding (some 2) ∈ (manifestCheck.run (.ofRoot (bareTree authorFirstManifest)
      ⟨"/p".toList⟩ .standard .approximate false)).issues ∧
    (nameFinding (some 2)).IsOnKey "name" ∧
    Json.WritesMember authorFirstManifest "name".toList "name".toList 3 ∧
    ∃ line ≤ 3, (nameFinding (some 2)).line = some line ∧
      (line = 3 ↔ ∀ k < 3, ¬ Mentions authorFirstManifest "name".toList k) := by
  have hloaded : ManifestSource.parse authorFirstManifest =
      .loaded (.ofMembers authorFirstMembers authorFirstManifest) := by
    rw [ManifestSource.parse, parse_authorFirstManifest]
  obtain ⟨-, -, -, hline⟩ := field_findings_stand_at_first_mention .standard .approximate false
    (bareTree_read _) hloaded _ authorFirst_reported _ (nameFinding_isOnKey _)
  exact ⟨bareTree_read _, ⟨_, hloaded⟩, authorFirst_reported, nameFinding_isOnKey _,
    authorFirst_writes_name, hline 3 authorFirst_writes_name⟩

/-- No member of the outermost object has its key written on the second line: where one object is
open no quotes are opened there. -/
theorem authorFirst_writes_no_member (key written : Text) :
    ¬ Json.WritesMember authorFirstManifest key written 2 := by
  rintro ⟨before, behind, value, hraw, hplace, -, -, hnewlines⟩
  have hnone : ∀ k < authorFirstManifest.length,
      Text.newlines (authorFirstManifest.take k) = 1 →
      (Json.Place.mk 0 .outside).after (authorFirstManifest.take k) = ⟨1, .outside⟩ →
      authorFirstManifest[k]? ≠ some '"' := by decide
  have hbefore : authorFirstManifest.take before.length = before := by
    rw [hraw, List.take_left']
    rfl
  refine hnone before.length ?_ ?_ ?_ ?_
  · rw [hraw]
    simp
  · rw [hbefore]
    omega
  · rw [hbefore, hplace]
  · rw [hraw]
    simp

/-- The finding on the name stands where the name of the author is written, and with an escape in
the key it has no line. -/
theorem name_findings_not_at_member :
    (∃ m, ManifestSource.parse authorFirstManifest = .loaded m) ∧
    (nameFinding (some 2) ∈ (manifestCheck.run (.ofRoot (bareTree authorFirstManifest)
        ⟨"/p".toList⟩ .standard .approximate false)).issues ∧
      (nameFinding (some 2)).IsOnKey "name" ∧
      ¬ ∃ written, Json.WritesMember authorFirstManifest "name".toList written 2) ∧
    (∃ m, ManifestSource.parse escapedManifest = .loaded m) ∧
    (nameFinding none ∈ (manifestCheck.run (.ofRoot (bareTree escapedManifest)
        ⟨"/p".toList⟩ .standard .approximate false)).issues ∧
      (nameFinding none).IsOnKey "name") := by
  refine ⟨⟨.ofMembers authorFirstMembers authorFirstManifest, ?_⟩,
    ⟨authorFirst_reported, nameFinding_isOnKey _, ?_⟩,
    ⟨.ofMembers [("name".toList, .string "P".toList)] escapedManifest, ?_⟩,
    escaped_reported, nameFinding_isOnKey _⟩
  · rw [ManifestSource.parse, parse_authorFirstManifest]
  · rintro ⟨written, hwrites⟩
    exact authorFirst_writes_no_member _ _ hwrites
  · rw [ManifestSource.parse, parse_escapedManifest]

end PluginLint
