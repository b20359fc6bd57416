import PluginLint.Plugin.Manifest
import PluginLint.Proofs.Json.RoundTrip

/-!
# How the values of a manifest are shown

A name, a version or an entry of the commands that is no string is shown as it is printed, which
is read back as far as its numbers are. A string is shown in plain quotes: it is read back exactly
when none of its characters has to be escaped.
-/
namespace PluginLint
namespace Json

/-- Whether the binary numbers of a value are printed as texts that are read as those numbers. -/
def PrintsNumbers (v : Json) : Prop :=
  ∀ negative magnitude, .binary negative magnitude ∈ numbers v →
    parse (Number.binary negative magnitude).text = .ok (.number (.binary negative magnitude))

/-- Whether a value is a string that cannot stand in quotes as it is. -/
def HoldsEscape (v : Json) : Prop := ∃ s, v = .string s ∧ ∃ c ∈ s, NeedsEscape c

/-- A string in plain quotes, anything else as it is printed. -/
def inPlainQuotes : Json → Text
  | .string s => '"' :: (s ++ ['"'])
  | v => compact v

theorem inPlainQuotes_of_not_string {v : Json} (h : ∀ s, v ≠ .string s) :
    inPlainQuotes v = compact v := by
  cases v with
  | string s => exact absurd rfl (h s)
  | _ => rfl

/-- A text in quotes is read as a string when its inside is that string written down. -/
theorem parse_quoted_iff {t s : Text} : parse ('"' :: t) = .ok (.string s) ↔
    ∃ written rest, StringText written s ∧ t = written ++ '"' :: rest ∧ skipBlanks rest = [] := by
  rw [parse_eq_ok_iff]
  constructor
  · rintro ⟨rest, hread, hrest⟩
    have hstep := readValue_step hread
    rw [skipBlanks_cons rfl] at hstep
    cases hstep with
    | word h _ => cases h
    | string h ht => exact ⟨_, rest, h, (List.cons.inj ht).2, hrest⟩
  · rintro ⟨written, rest, hwritten, rfl, hrest⟩
    refine ⟨rest, ?_, hrest⟩
    rw [readValue]
    exact map_eq_ok_iff.mpr ⟨_, readString_iff.mpr ⟨_, hwritten, rfl⟩, rfl⟩

/-- A string in plain quotes is read as itself when it could have been written that way. For the
other direction the lengths decide: what is written of a string is at least as long as it. -/
theorem parse_plain_iff (s : Text) : parse ('"' :: (s ++ ['"'])) = .ok (.string s) ↔
    ∀ c ∈ s, ¬ NeedsEscape c := by
  rw [parse_quoted_iff, ← stringText_self_iff]
  constructor
  · rintro ⟨written, rest, hwritten, heq, -⟩
    have hlength := congrArg List.length heq
    rw [List.length_append, List.length_singleton, List.length_append, List.length_cons] at hlength
    have hle := hwritten.length_le
    obtain ⟨rfl, -⟩ := hwritten.eq_of_length_eq (by omega)
    exact hwritten
  · exact fun h => ⟨s, [], h, rfl, rfl⟩

/-- What was read is read back from what it is printed as when its binary numbers are. -/
theorem parse_compact_of_inRange {v : Json} (h : Regular Number.InRange depthLimit v)
    (hprints : v.PrintsNumbers) : parse (compact v) = .ok v := by
  refine parse_compact (h.imp fun x hx hrange => ?_)
  cases x with
  | whole value => exact numberText_whole hrange
  | binary negative magnitude => exact readsBack_iff.mpr (hprints negative magnitude hx)

theorem parse_inPlainQuotes_iff {v : Json} (h : Regular Number.InRange depthLimit v)
    (hprints : v.PrintsNumbers) : parse (inPlainQuotes v) = .ok v ↔ ¬ v.HoldsEscape := by
  by_cases hstring : ∃ s, v = .string s
  · obtain ⟨s, rfl⟩ := hstring
    rw [inPlainQuotes, parse_plain_iff]
    constructor
    · rintro hplain ⟨_, ⟨⟩, c, hc, hneeds⟩
      exact hplain c hc hneeds
    · exact fun hfits c hc hneeds => hfits ⟨s, rfl, c, hc, hneeds⟩
  · rw [inPlainQuotes_of_not_string (not_exists.mp hstring)]
    refine iff_of_true (parse_compact_of_inRange h hprints) ?_
    rintro ⟨s, rfl, -⟩
    exact hstring ⟨s, rfl⟩

/-- What is stored in an object that was read. -/
theorem regular_member {raw key : Text} {members : List (Text × Json)} {v : Json}
    (hraw : parse raw = .ok (.object members)) (hv : member? key members = some v) :
    Regular Number.InRange depthLimit v := by
  obtain ⟨front, back, rfl, -⟩ := List.lookup_eq_some_iff.mp hv
  cases regular_of_parse hraw with
  | object _ h => exact (h (key, v) (List.mem_append_right _ List.mem_cons_self)).succ

theorem Regular.item {kind : Number → Prop} {depth : Nat} {items : List Json} {v : Json}
    (h : Regular kind depth (.array items)) (hv : v ∈ items) : Regular kind depth v := by
  cases h with
  | array h => exact (h v hv).succ

end Json

theorem Scalar.shown_ofJson (v : Json) : (Scalar.ofJson v).shown = v.inPlainQuotes := by
  cases v <;> rfl

theorem CommandEntry.shown_ofJson (v : Json) :
    (CommandEntry.ofJson v).shown = v.inPlainQuotes := by
  cases v <;> rfl

theorem ManifestSource.exists_members {raw : Text} {m : Manifest}
    (h : ManifestSource.parse raw = .loaded m) :
    ∃ members, Json.parse raw = .ok (.object members) ∧ m = .ofMembers members raw := by
  unfold parse at h
  split at h
  · next members hraw =>
    cases h
    exact ⟨members, hraw, rfl⟩
  all_goals cases h

/-- Whether a text shows a value as JSON unless the value is a string that cannot stand in quotes
as it is, its binary numbers being printed as texts that are read as those numbers. -/
def ShowsUnescaped (text : Text) (v : Json) : Prop :=
  v.PrintsNumbers → (Json.parse text = .ok v ↔ ¬ v.HoldsEscape)

theorem Json.Regular.showsUnescaped {v : Json}
    (h : Json.Regular Json.Number.InRange Json.depthLimit v) : ShowsUnescaped v.inPlainQuotes v :=
  Json.parse_inPlainQuotes_iff h

/-- The name, the version and the entries of the commands are shown as JSON, whatever they are,
except for strings with a character that has to be escaped. -/
theorem manifest_values_shown_unescaped {raw : Text} {m : Manifest}
    (hloaded : ManifestSource.parse raw = .loaded m) :
    ∃ members, Json.parse raw = .ok (.object members) ∧
      (∀ v, Json.member? "name".toList members = some v →
        ∃ field, m.name = some field ∧ ShowsUnescaped field.shown v) ∧
      (∀ v, Json.member? "version".toList members = some v →
        ∃ field, m.version = some field ∧ ShowsUnescaped field.shown v) ∧
      ∀ items, Json.member? "commands".toList members = some (.array items) →
        ∃ entries, m.commands = some (.entries entries) ∧
          List.Forall₂ (fun v entry => ShowsUnescaped entry.shown v) items entries := by
  obtain ⟨members, hraw, rfl⟩ := ManifestSource.exists_members hloaded
  have hscalar (key : Text) (v : Json) (hv : Json.member? key members = some v) :
      ∃ field, (Json.member? key members).map Scalar.ofJson = some field ∧
        ShowsUnescaped field.shown v := by
    refine ⟨Scalar.ofJson v, by rw [hv, Option.map_some], ?_⟩
    rw [Scalar.shown_ofJson]
    exact (Json.regular_member hraw hv).showsUnescaped
  refine ⟨members, hraw, hscalar _, hscalar _, fun items hitems => ?_⟩
  refine ⟨items.map CommandEntry.ofJson, ?_, ?_⟩
  · exact congrArg (Option.map Manifest.commandsOf) hitems
  · rw [List.forall₂_map_right_iff]
    refine List.forall₂_same.mpr fun v hv => ?_
    rw [CommandEntry.shown_ofJson]
    exact ((Json.regular_member hraw hitems).item hv).showsUnescaped

/-- One and a half, three times `2^51` over `2^52`. -/
def oneAndHalf : Json.Number := .binary false ⟨6755399441055744, -52⟩

theorem readsBack_oneAndHalf : oneAndHalf.ReadsBack :=
  .inr ⟨⟨'1', by decide +kernel, rfl⟩, by decide +kernel⟩

theorem printsNumbers_oneAndHalf {v : Json} (h : ∀ x ∈ v.numbers, x = oneAndHalf) :
    v.PrintsNumbers := by
  intro negative magnitude hx
  rw [h _ hx]
  exact Json.readsBack_iff.mp readsBack_oneAndHalf

/-- The members of a manifest with a string, a number and an array among what is shown. -/
def mixedMembers : List (Text × Json) :=
  [("commands".toList, .array [.string "./a/".toList, .number oneAndHalf]),
    ("name".toList, .string "My plugin".toList),
    ("version".toList, .array [.number oneAndHalf, .null])]

def mixedManifest : Text :=
  "\x7b\"commands\":[\"./a/\",1.5],\"name\":\"My plugin\",\"version\":[1.5,null]\x7d".toList

theorem parse_mixedManifest : Json.parse mixedManifest = .ok (.object mixedMembers) := by
  have hprinted : mixedManifest = (Json.object mixedMembers).compact := by decide +kernel
  have hcommands : ∀ v ∈ [.string "./a/".toList, .number oneAndHalf],
      Json.Regular Json.Number.ReadsBack 125 v :=
    List.forall_mem_cons.mpr ⟨.string, List.forall_mem_singleton.mpr (.number readsBack_oneAndHalf)⟩
  have hversion : ∀ v ∈ [.number oneAndHalf, .null],
      Json.Regular Json.Number.ReadsBack 125 v :=
    List.forall_mem_cons.mpr ⟨.number readsBack_oneAndHalf, List.forall_mem_singleton.mpr .null⟩
  rw [hprinted]
  refine Json.parse_compact (.object (by decide) (List.forall_mem_cons.mpr ⟨.array hcommands, ?_⟩))
  exact List.forall_mem_cons.mpr ⟨.string, List.forall_mem_singleton.mpr (.array hversion)⟩

theorem mixed_manifest_values_shown :
    ∃ m, ManifestSource.parse mixedManifest = .loaded m ∧
      (∃ field, m.name = some field ∧
        Json.parse field.shown = .ok (.string "My plugin".toList)) ∧
      (∃ field, m.version = some field ∧
        Json.parse field.shown = .ok (.array [.number oneAndHalf, .null])) ∧
      ∃ entries, m.commands = some (.entries entries) ∧
        List.Forall₂ (fun v entry => Json.parse entry.shown = .ok v)
          [.string "./a/".toList, .number oneAndHalf] entries := by
  have hloaded : ManifestSource.parse mixedManifest =
      .loaded (.ofMembers mixedMembers mixedManifest) := by
    rw [ManifestSource.parse, parse_mixedManifest]
  obtain ⟨members, hraw, hname, hversion, hcommands⟩ := manifest_values_shown_unescaped hloaded
  obtain rfl : mixedMembers = members := by
    rw [parse_mixedManifest] at hraw
    exact Json.object.inj (Except.ok.inj hraw)
  have hnone {s : Text} : ∀ x ∈ (Json.string s).numbers, x = oneAndHalf := List.forall_mem_nil _
  have hone : ∀ x ∈ [oneAndHalf], x = oneAndHalf := List.forall_mem_singleton.mpr rfl
  refine ⟨_, hloaded, ?_, ?_, ?_⟩
  · obtain ⟨name, hfield, hshown⟩ := hname _ rfl
    refine ⟨name, hfield, (hshown (printsNumbers_oneAndHalf hnone)).mpr ?_⟩
    rintro ⟨_, ⟨⟩, c, hc, hneeds⟩
    exact Json.not_needsEscape_of_all (by decide) c hc hneeds
  · obtain ⟨version, hfield, hshown⟩ := hversion _ rfl
    refine ⟨version, hfield, (hshown (printsNumbers_oneAndHalf hone)).mpr ?_⟩
    rintro ⟨_, ⟨⟩, -⟩
  · obtain ⟨entries, hfield, hshown⟩ := hcommands _ rfl
    refine ⟨entries, hfield, ?_⟩
    obtain ⟨path, rest, hpath, hrest, rfl⟩ := List.forall₂_cons_left_iff.mp hshown
    obtain ⟨number, others, hnumber, hothers, rfl⟩ := List.forall₂_cons_left_iff.mp hrest
    obtain rfl := List.forall₂_nil_left_iff.mp hothers
    refine .cons ((hpath (printsNumbers_oneAndHalf hnone)).mpr ?_)
      (.cons ((hnumber (printsNumbers_oneAndHalf hone)).mpr ?_) .nil)
    · rintro ⟨_, ⟨⟩, c, hc, hneeds⟩
      exact Json.not_needsEscape_of_all (by decide) c hc hneeds
    · rintro ⟨_, ⟨⟩, -⟩

/-- A name with a quotation mark in it. -/
def quotingName : Text := "a\"b".toList

/-- A manifest with that name. -/
def quotingManifest : Text := "\x7b\"name\": \"a\\\"b\"\x7d".toList

theorem parse_quotingManifest :
    Json.parse quotingManifest = .ok (.object [("name".toList, .string quotingName)]) := by decide +kernel

/-- The quotation mark stands bare in the text that shows the name, which is not read as the name
any more; what is printed of the name is. -/
theorem quoting_name_shown_bare :
    ∃ m, ManifestSource.parse quotingManifest = .loaded m ∧
      m.name = some (.ofJson (.string quotingName)) ∧
      Json.parse (Json.string quotingName).compact = .ok (.string quotingName) ∧
      Json.parse (Scalar.ofJson (.string quotingName)).shown ≠ .ok (.string quotingName) := by
  have hloaded : ManifestSource.parse quotingManifest =
      .loaded (.ofMembers [("name".toList, .string quotingName)] quotingManifest) := by
    rw [ManifestSource.parse, parse_quotingManifest]
  refine ⟨_, hloaded, rfl, Json.parse_compact .string, ?_⟩
  intro hshown
  exact (Json.parse_plain_iff quotingName).mp hshown '"' (by decide) (.inl rfl)

end PluginLint
