/-!
# Text: the characters of a document

Everything the checks read (documents, manifests, names, paths) is a list of characters, so that
splitting and searching are recursions on the list. `cut?` is the one search: it finds the first
place where a mark occurs, and `occurs` asks only whether there is one.
-/
namespace PluginLint

/-- The characters of a document, a name or a path. -/
abbrev Text := List Char

namespace Text

/-- The text before and after the first place where `mark` stands. -/
def cut? (mark : Text) : Text → Option (Text × Text)
  | [] => if mark = [] then some ([], []) else none
  | c :: rest =>
    if mark.isPrefixOf (c :: rest) then some ([], (c :: rest).drop mark.length)
    else (cut? mark rest).map fun found => (c :: found.1, found.2)

/-- Whether `mark` stands somewhere in `s`. -/
def occurs (mark s : Text) : Bool := (cut? mark s).isSome

/-- How many bytes a text takes. -/
def byteCount (s : Text) : Nat := s.foldr (fun c total => c.utf8Size + total) 0

/-- What `cut?` returns is the text again, with the mark between the two parts. -/
theorem append_of_cut? {mark s before after : Text} (h : cut? mark s = some (before, after)) :
    before ++ mark ++ after = s := by
  induction s generalizing before with
  | nil =>
    by_cases hm : mark = []
    · simp_all [cut?]
    · simp [cut?, hm] at h
  | cons c rest ih =>
    by_cases hp : mark.isPrefixOf (c :: rest)
    · obtain ⟨t, ht⟩ := List.isPrefixOf_iff_prefix.mp hp
      simp only [cut?, hp, if_true, Option.some.injEq, Prod.mk.injEq] at h
      obtain ⟨rfl, rfl⟩ := h
      simp [← ht]
    · simp only [cut?, hp] at h
      obtain ⟨⟨b, a⟩, hb, he⟩ := Option.map_eq_some_iff.mp h
      obtain ⟨rfl, rfl⟩ := Prod.mk.inj he
      simpa using ih hb

end Text
end PluginLint
