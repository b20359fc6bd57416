import PluginLint.FileTree.Edit
import PluginLint.Proofs.FileTree.Order

/-!
# Rewriting a file

A file that is rewritten stays a file where it is. So every path leads where it led before, listings
stay what they are (`DiffersInFile.entries_eq`), and what is read at a path is what was read there
before, or the new text where the old one was read (`readText_rewrite`).
-/
namespace PluginLint.FileTree

/-- Whether two trees differ at most in what the file at a location holds. -/
structure DiffersInFile (t t' : FileTree) (place : Location) : Prop where
  base : t'.base = t.base
  elsewhere : ∀ other, other ≠ place → t'.node? other = t.node? other
  file : ∃ content, t.node? place = some (.file content)
  file' : ∃ content, t'.node? place = some (.file content)

namespace DiffersInFile

variable {t t' : FileTree} {place : Location} (h : DiffersInFile t t' place)
include h

/-- What lies at a location is the same, or a file in both trees. -/
theorem node?_cases (other : Location) : t'.node? other = t.node? other ∨
    ∃ content content', t.node? other = some (.file content) ∧
      t'.node? other = some (.file content') := by
  by_cases hother : other = place
  · obtain ⟨content, hfile⟩ := h.file
    obtain ⟨content', hfile'⟩ := h.file'
    exact .inr ⟨content, content', hother ▸ hfile, hother ▸ hfile'⟩
  · exact .inl (h.elsewhere other hother)

theorem directory_iff (other : Location) :
    t'.node? other = some .directory ↔ t.node? other = some .directory := by
  rcases h.node?_cases other with hsame | ⟨content, content', hfile, hfile'⟩
  · rw [hsame]
  · simp [hfile, hfile']

theorem isSome_eq (other : Location) : (t'.node? other).isSome = (t.node? other).isSome := by
  rcases h.node?_cases other with hsame | ⟨content, content', hfile, hfile'⟩
  · rw [hsame]
  · rw [hfile, hfile']
    rfl

/-! ## Following -/

theorem descend_eq (directory : Location) (segments : List Text) :
    t'.descend directory segments = t.descend directory segments := by
  induction segments generalizing directory with
  | nil => rfl
  | cons segment rest ih =>
    rw [descend, descend]
    simp only [h.directory_iff, ih]
    rcases h.node?_cases (directory ++ [segment]) with hsame | ⟨content, content', hfile, hfile'⟩
    · rw [hsame]
    · rw [hfile, hfile']

theorem follow_eq (links : Nat) (directory : Location) (segments : List Text) :
    t'.follow links directory segments = t.follow links directory segments := by
  induction links generalizing directory segments with
  | zero =>
    rw [follow, follow, h.descend_eq]
  | succ links ih =>
    rw [follow, follow, h.descend_eq]
    simp only [ih]

theorem locate_eq (p : Path) : t'.locate p = t.locate p := by
  rw [locate, locate, h.base, h.follow_eq]

/-- A path leads to a file in both trees or in none. -/
theorem isFile_eq (p : Path) : t'.isFile p = t.isFile p := by
  rw [isFile, isFile, find?, find?, h.locate_eq]
  cases t.locate p with
  | error fault => rfl
  | ok location =>
    dsimp only
    rcases h.node?_cases location with hsame | ⟨content, content', hfile, hfile'⟩
    · rw [hsame]
    · rw [hfile, hfile']

theorem isDirectory_eq (p : Path) : t'.isDirectory p = t.isDirectory p := by
  rw [Bool.eq_iff_iff, isDirectory, isDirectory, find?, find?, h.locate_eq]
  cases t.locate p with
  | error fault => rfl
  | ok location => simp only [beq_iff_eq, h.directory_iff]

/-! ## Listing -/

theorem names_eq (directory : Location) : t'.names directory = t.names directory := by
  refine eq_of_mem_iff (t'.names_pairwise directory) (t.names_pairwise directory) fun name => ?_
  rw [mem_names_iff, mem_names_iff, h.isSome_eq]

theorem entry?_eq (directory : Path) (listed : Location) (name : Text) :
    t'.entry? directory listed name = t.entry? directory listed name := by
  unfold entry?
  rw [h.locate_eq]
  rcases h.node?_cases (listed ++ [name]) with hsame | ⟨content, content', hfile, hfile'⟩
  · rw [hsame]
  · rw [hfile, hfile']

theorem entries_eq (directory : Path) : t'.entries directory = t.entries directory := by
  rw [entries, entries, h.locate_eq]
  cases t.locate directory with
  | error fault => rfl
  | ok listed =>
    have hentry : t'.entry? directory listed = t.entry? directory listed :=
      funext fun name => h.entry?_eq directory listed name
    simp only [h.directory_iff, h.names_eq, hentry]

theorem entry_isDirectory_eq (entry : Entry) : entry.isDirectory t' = entry.isDirectory t := by
  rw [Bool.eq_iff_iff, Entry.isDirectory, Entry.isDirectory, beq_iff_eq, beq_iff_eq,
    h.directory_iff]

theorem subdirectoryNames_eq (directory : Path) :
    t'.subdirectoryNames directory = t.subdirectoryNames directory := by
  rw [subdirectoryNames, subdirectoryNames, h.entries_eq]
  simp only [h.entry_isDirectory_eq]

end DiffersInFile

/-! ## Another text in a file -/

/-- Entries for one location make no difference at another. -/
theorem lookup_filter_of_ne {place other : Location} (h : other ≠ place)
    (nodes : List (Location × Node)) :
    (nodes.filter (·.1 ≠ place)).lookup other = nodes.lookup other := by
  induction nodes with
  | nil => rfl
  | cons entry rest ih =>
    by_cases hentry : entry.1 = place
    · have hno : (other == entry.1) = false := beq_eq_false_iff_ne.mpr (hentry ▸ h)
      rw [List.filter_cons_of_neg (by simp [hentry]), ih, List.lookup_cons, hno]
    · rw [List.filter_cons_of_pos (by simp [hentry]), List.lookup_cons, List.lookup_cons, ih]

theorem node?_put_of_ne (t : FileTree) {place other : Location} (h : other ≠ place) (node : Node) :
    (t.put place node).node? other = t.node? other := by
  have hno : (other == place) = false := beq_eq_false_iff_ne.mpr h
  have hlookup : ((place, node) :: t.nodes.filter (·.1 ≠ place)).lookup other =
      t.nodes.lookup other := by
    rw [List.lookup_cons, hno, lookup_filter_of_ne h]
  rw [node?, node?, put, hlookup]

/-- The tree with another text in the file that a path leads to. -/
def rewrite (t : FileTree) (p : Path) (text : Text) : FileTree :=
  match t.locate p with
  | .ok place => t.put place (.file (.text text))
  | .error _ => t

variable {t : FileTree} {p : Path} {raw : Text}

theorem readText_eq_ok_iff {q : Path} {text : Text} : t.readText q = .ok text ↔
    ∃ place, t.locate q = .ok place ∧ t.node? place = some (.file (.text text)) := by
  unfold readText
  cases t.locate q with
  | error fault => simp
  | ok place =>
    simp only [Except.ok.injEq, exists_eq_left']
    split
    · next hnode => simp [hnode]
    · next hnode => simp [hnode]
    · next hnode => simp [hnode]
    · next hnode => simp [hnode]
    · next hno _ _ _ => simpa using fun hnode => hno text hnode

/-- Where a text is read, its file can be rewritten and stays the only thing that differs. -/
theorem exists_differsInFile_rewrite (h : t.readText p = .ok raw) (text : Text) :
    ∃ place, t.locate p = .ok place ∧ t.node? place = some (.file (.text raw)) ∧
      (t.rewrite p text).node? place = some (.file (.text text)) ∧
      DiffersInFile t (t.rewrite p text) place := by
  obtain ⟨place, hplace, hfile⟩ := readText_eq_ok_iff.mp h
  have hrewrite : t.rewrite p text = t.put place (.file (.text text)) := by
    rw [rewrite, hplace]
  have hne : place ≠ [] := by
    rintro rfl
    simp [node?] at hfile
  have hnode : (t.rewrite p text).node? place = some (.file (.text text)) := by
    rw [hrewrite, node?_put t place _ hne]
  refine ⟨place, hplace, hfile, hnode, ⟨?_, ?_, ⟨_, hfile⟩, ⟨_, hnode⟩⟩⟩
  · rw [hrewrite]
    rfl
  · intro other hother
    rw [hrewrite, node?_put_of_ne t hother]

/-- What is read anywhere is what was read there, or the new text for the old one. -/
theorem readText_rewrite (h : t.readText p = .ok raw) (text : Text) (q : Path) :
    (t.rewrite p text).readText q = t.readText q ∨
      t.readText q = .ok raw ∧ (t.rewrite p text).readText q = .ok text := by
  obtain ⟨place, -, hfile, hfile', hdiffers⟩ := exists_differsInFile_rewrite h text
  cases hlocate : t.locate q with
  | error fault =>
    refine .inl ?_
    rw [readText, readText, hdiffers.locate_eq, hlocate]
  | ok other =>
    by_cases hother : other = place
    · rw [hother] at hlocate
      refine .inr ⟨readText_eq_ok_iff.mpr ⟨place, hlocate, hfile⟩, readText_eq_ok_iff.mpr ?_⟩
      exact ⟨place, (hdiffers.locate_eq q).trans hlocate, hfile'⟩
    · refine .inl ?_
      rw [readText, readText, hdiffers.locate_eq, hlocate]
      simp only [hdiffers.elsewhere other hother]

/-- The new text is read where it was written. -/
theorem readText_rewrite_self (h : t.readText p = .ok raw) (text : Text) :
    (t.rewrite p text).readText p = .ok text := by
  obtain ⟨place, hplace, -, hfile', hdiffers⟩ := exists_differsInFile_rewrite h text
  exact readText_eq_ok_iff.mpr ⟨place, (hdiffers.locate_eq p).trans hplace, hfile'⟩

end PluginLint.FileTree
