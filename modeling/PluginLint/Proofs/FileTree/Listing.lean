import Mathlib.Data.List.Sort
import PluginLint.FileTree.Listing
import PluginLint.Proofs.FileTree.Path

/-!
# Laws of listings

The names in a directory are listed in strictly increasing order, each once (`names_pairwise`), and
so are the children (`entries_pairwise`). The children that are directories are the subdirectories
with links followed, but for a link back to the listed directory itself
(`mem_subdirectoryNames_iff`); the children that are regular files are all that a name leads to
(`mem_entries_isFile_iff`).
-/
namespace PluginLint

theorem nodup_eraseDups {α : Type} [BEq α] [LawfulBEq α] (l : List α) : l.eraseDups.Nodup := by
  match l with
  | [] => simp
  | a :: rest =>
    rw [List.eraseDups_cons, List.nodup_cons]
    refine ⟨?_, nodup_eraseDups (rest.filter fun b => !b == a)⟩
    rw [List.mem_eraseDups, List.mem_filter]
    simp
termination_by l.length
decreasing_by
  have hle := List.length_filter_le (fun b => !b == a) rest
  simp only [List.length_cons]
  omega

namespace FileTree

section Sorting

variable {α : Type} [LE α] [LT α] [Std.IsLinearOrder α] [Std.LawfulOrderLT α] [DecidableLT α]

theorem inOrder_iff {a b : α} : inOrder a b = true ↔ a ≤ b := by
  rw [inOrder, Bool.not_eq_true', decide_eq_false_iff_not, Std.not_lt]

instance : Std.Total (α := α) fun a b => inOrder a b = true where
  total a b := by
    rw [inOrder_iff, inOrder_iff]
    exact Std.le_total

instance : IsTrans α fun a b => inOrder a b = true where
  trans _ _ _ hab hbc := inOrder_iff.mpr (Std.le_trans (inOrder_iff.mp hab) (inOrder_iff.mp hbc))

instance : Std.Antisymm (α := α) fun a b => inOrder a b = true where
  antisymm _ _ hab hba := Std.le_antisymm (inOrder_iff.mp hab) (inOrder_iff.mp hba)

/-- Sorting by insertion gives the same list and computes by itself. -/
theorem mergeSort_inOrder (l : List α) :
    l.mergeSort inOrder = l.insertionSort fun a b => inOrder a b = true := by
  simpa using List.mergeSort_eq_insertionSort (fun a b : α => inOrder a b = true) l

/-- What is listed in order comes in strictly increasing order. -/
theorem pairwise_sorted [BEq α] [LawfulBEq α] (l : List α) :
    (l.eraseDups.mergeSort inOrder).Pairwise (· < ·) := by
  have hsorted : (l.eraseDups.mergeSort inOrder).Pairwise fun a b => inOrder a b = true := by
    rw [mergeSort_inOrder]
    exact List.pairwise_insertionSort _ _
  have hnodup : (l.eraseDups.mergeSort inOrder).Nodup :=
    (List.mergeSort_perm _ _).nodup_iff.mpr (nodup_eraseDups l)
  refine (hsorted.and hnodup).imp ?_
  rintro a b ⟨hsorted, hne⟩
  exact Std.not_le.mp fun hge => hne (Std.le_antisymm (inOrder_iff.mp hsorted) hge)

end Sorting

/-! ## Names -/

theorem childName?_eq_some_iff {directory location : Location} {name : Text} :
    childName? directory location = some name ↔ location = directory ++ [name] := by
  induction directory generalizing location with
  | nil =>
    cases location with
    | nil => simp [childName?]
    | cons l rest => cases rest <;> simp [childName?]
  | cons d directory ih =>
    cases location with
    | nil => simp [childName?]
    | cons l rest =>
      by_cases h : d = l
      · simp [childName?, h, ih]
      · simp [childName?, h, Ne.symm h]

variable (t : FileTree)

theorem mem_names_iff {place : Location} {name : Text} :
    name ∈ t.names place ↔ (t.node? (place ++ [name])).isSome = true := by
  rw [names, List.mem_mergeSort, List.mem_eraseDups, List.mem_filterMap, node?,
    if_neg (by simp), List.lookup_isSome_iff]
  simp only [childName?_eq_some_iff, beq_iff_eq]
  constructor
  · rintro ⟨entry, hentry, hplace⟩
    exact ⟨entry, hentry, hplace.symm⟩
  · rintro ⟨entry, hentry, hplace⟩
    exact ⟨entry, hentry, hplace.symm⟩

theorem names_pairwise (place : Location) : (t.names place).Pairwise (· < ·) := pairwise_sorted _

theorem below_pairwise (place : Location) : (t.below place).Pairwise (· < ·) := pairwise_sorted _

/-- Whether every name in a tree is one that a file system could hold. -/
def WellNamed : Prop := ∀ entry ∈ t.nodes, ∀ name ∈ entry.1, Path.IsName name

/-- Whether every name in a tree is text, so that each is shown as it is. -/
def NamesAreText : Prop := ∀ entry ∈ t.nodes, ∀ name ∈ entry.1, Path.isText ⟨name⟩ = true

variable {t}

theorem exists_mem_nodes_of_isSome {place : Location} {name : Text}
    (h : (t.node? (place ++ [name])).isSome = true) : ∃ entry ∈ t.nodes, name ∈ entry.1 := by
  rw [node?, if_neg (by simp), List.lookup_isSome_iff] at h
  obtain ⟨entry, hentry, hplace⟩ := h
  exact ⟨entry, hentry, by simp [← eq_of_beq hplace]⟩

theorem WellNamed.isName {place : Location} {name : Text} (h : t.WellNamed)
    (hname : (t.node? (place ++ [name])).isSome = true) : Path.IsName name := by
  obtain ⟨entry, hentry, hmem⟩ := exists_mem_nodes_of_isSome hname
  exact h entry hentry name hmem

theorem NamesAreText.isText {place : Location} {name : Text} (h : t.NamesAreText)
    (hname : (t.node? (place ++ [name])).isSome = true) : Path.isText ⟨name⟩ = true := by
  obtain ⟨entry, hentry, hmem⟩ := exists_mem_nodes_of_isSome hname
  exact h entry hentry name hmem

/-! ## Children -/

theorem entry?_name {directory : Path} {place : Location} {name : Text} {entry : Entry}
    (h : t.entry? directory place name = some entry) :
    entry.name = name ∧ entry.path = directory.join name := by
  unfold entry? at h
  split at h
  · split at h
    · split at h
      · cases h
      · obtain rfl := Option.some.inj h
        exact ⟨rfl, rfl⟩
    · cases h
  · obtain rfl := Option.some.inj h
    exact ⟨rfl, rfl⟩

theorem entries_of_located {directory : Path} {place : Location}
    (hlocated : t.locate directory = .ok place) (hlisted : t.node? place = some .directory) :
    t.entries directory = (t.names place).filterMap (t.entry? directory place) := by
  simp only [entries, hlocated, if_pos hlisted]

variable (t)

theorem mem_entries_iff {directory : Path} {entry : Entry} :
    entry ∈ t.entries directory ↔ ∃ place, t.locate directory = .ok place ∧
      t.node? place = some .directory ∧ entry.name ∈ t.names place ∧
      t.entry? directory place entry.name = some entry := by
  unfold entries
  cases hlocate : t.locate directory with
  | error fault => simp
  | ok place =>
    simp only
    by_cases hdirectory : t.node? place = some .directory
    · rw [if_pos hdirectory, List.mem_filterMap]
      constructor
      · rintro ⟨name, hname, hentry⟩
        obtain rfl := (entry?_name hentry).1
        exact ⟨place, rfl, hdirectory, hname, hentry⟩
      · rintro ⟨_, hplace, -, hname, hentry⟩
        obtain rfl := Except.ok.inj hplace
        exact ⟨entry.name, hname, hentry⟩
    · rw [if_neg hdirectory]
      constructor
      · intro hmem
        cases hmem
      · rintro ⟨_, hplace, hlisted, -⟩
        obtain rfl := Except.ok.inj hplace
        exact absurd hlisted hdirectory

/-- What is listed in a directory has a name that a file system could hold. -/
theorem WellNamed.isName_of_mem_entries {t : FileTree} (h : t.WellNamed) {directory : Path}
    {entry : Entry} (hentry : entry ∈ t.entries directory) :
    Path.IsName entry.name ∧ entry.path = directory.join entry.name := by
  obtain ⟨place, -, -, hname, hentry⟩ := t.mem_entries_iff.mp hentry
  exact ⟨h.isName (t.mem_names_iff.mp hname), (entry?_name hentry).2⟩

theorem entries_pairwise (directory : Path) :
    (t.entries directory).Pairwise fun a b => a.name < b.name := by
  unfold entries
  split
  · exact List.Pairwise.nil
  · split
    · rw [List.pairwise_filterMap]
      refine (t.names_pairwise _).imp fun {a b} hlt first hfirst second hsecond => ?_
      rw [(entry?_name hfirst).1, (entry?_name hsecond).1]
      exact hlt
    · exact List.Pairwise.nil

/-- Whether a link lies at a location. -/
def IsLink (place : Location) : Prop := ∃ target, t.node? place = some (.link target)

/-! ## Subdirectories -/

/-- A subdirectory with a name in the directory that a path leads to, links followed: where the one
lies and where the other. A link is followed by its whole path. -/
structure IsSubdirectory (directory : Path) (name : Text) (place location : Location) : Prop where
  located : t.locate directory = .ok place
  listed : t.node? place = some .directory
  followed : t.node? (place ++ [name]) = some .directory ∧ location = place ++ [name] ∨
    (∃ target, t.node? (place ++ [name]) = some (.link target)) ∧
      t.locate (directory.join name) = .ok location ∧ t.node? location = some .directory

theorem IsSubdirectory.isSome {t : FileTree} {directory : Path} {name : Text}
    {place location : Location} (h : t.IsSubdirectory directory name place location) :
    (t.node? (place ++ [name])).isSome = true := by
  rcases h.followed with ⟨hchild, -⟩ | ⟨⟨target, hchild⟩, -⟩
  · rw [hchild]
    rfl
  · rw [hchild]
    rfl

/-- The names of the children that are directories. -/
def subdirectoryNames (directory : Path) : List Text :=
  ((t.entries directory).filter (·.isDirectory t)).map (·.name)

theorem subdirectoryNames_pairwise (directory : Path) :
    (t.subdirectoryNames directory).Pairwise (· < ·) := by
  rw [subdirectoryNames, List.pairwise_map]
  exact (t.entries_pairwise directory).filter _

variable {t}

theorem entry?_of_no_link {directory : Path} {place : Location} {name : Text}
    (h : ¬ t.IsLink (place ++ [name])) :
    t.entry? directory place name = some ⟨name, directory.join name, place ++ [name]⟩ := by
  unfold entry?
  split
  · next target hlink => exact absurd ⟨target, hlink⟩ h
  · rfl

theorem entry?_of_link {directory : Path} {place : Location} {name : Text}
    (h : t.IsLink (place ++ [name])) {entry : Entry} :
    t.entry? directory place name = some entry ↔
      ∃ location, t.locate (directory.join name) = .ok location ∧ location ≠ place ∧
        entry = ⟨name, directory.join name, location⟩ := by
  obtain ⟨target, htarget⟩ := h
  unfold entry?
  simp only [htarget]
  cases t.locate (directory.join name) with
  | error fault => simp
  | ok location =>
    by_cases hback : location = place
    · simp [hback]
    · simp only [hback, if_false, Option.some.injEq, Except.ok.injEq, exists_eq_left', ne_eq,
        not_false_eq_true, true_and]
      exact eq_comm

/-- A child whose location has a property: its name leads there or, if that is a link, the whole
path does, elsewhere than back to the listed directory. -/
theorem entry?_and_iff {P : Location → Prop} {directory : Path} {place : Location} {name : Text}
    {entry : Entry} : t.entry? directory place name = some entry ∧ P entry.location ↔
      ∃ location, entry = ⟨name, directory.join name, location⟩ ∧ P location ∧
        location ≠ place ∧ (¬ t.IsLink (place ++ [name]) ∧ location = place ++ [name] ∨
          t.IsLink (place ++ [name]) ∧ t.locate (directory.join name) = .ok location) := by
  by_cases hlink : t.IsLink (place ++ [name])
  · rw [entry?_of_link hlink]
    constructor
    · rintro ⟨⟨location, hfollowed, hne, rfl⟩, hholds⟩
      exact ⟨location, rfl, hholds, hne, .inr ⟨hlink, hfollowed⟩⟩
    · rintro ⟨location, rfl, hholds, hne, ⟨hno, -⟩ | ⟨-, hfollowed⟩⟩
      · exact absurd hlink hno
      · exact ⟨⟨location, hfollowed, hne, rfl⟩, hholds⟩
  · rw [entry?_of_no_link hlink]
    constructor
    · rintro ⟨heq, hholds⟩
      obtain rfl := Option.some.inj heq
      exact ⟨_, rfl, hholds, by simp, .inl ⟨hlink, rfl⟩⟩
    · rintro ⟨location, rfl, hholds, -, ⟨-, rfl⟩ | ⟨hin, -⟩⟩
      · exact ⟨rfl, hholds⟩
      · exact absurd hin hlink

/-- A child is a directory when its name is that of a subdirectory elsewhere than the listed
directory. -/
theorem entry?_isDirectory_iff {directory : Path} {place : Location} {name : Text} {entry : Entry}
    (hlocated : t.locate directory = .ok place) (hlisted : t.node? place = some .directory) :
    t.entry? directory place name = some entry ∧ entry.isDirectory t = true ↔
      ∃ location, t.IsSubdirectory directory name place location ∧ location ≠ place ∧
        entry = ⟨name, directory.join name, location⟩ := by
  rw [Entry.isDirectory, beq_iff_eq,
    entry?_and_iff (P := fun location => t.node? location = some .directory)]
  constructor
  · rintro ⟨location, heq, hdirectory, hne, ⟨-, rfl⟩ | ⟨hlink, hfollowed⟩⟩
    · exact ⟨_, ⟨hlocated, hlisted, .inl ⟨hdirectory, rfl⟩⟩, hne, heq⟩
    · exact ⟨_, ⟨hlocated, hlisted, .inr ⟨hlink, hfollowed, hdirectory⟩⟩, hne, heq⟩
  · rintro ⟨location, hsub, hne, heq⟩
    rcases hsub.followed with ⟨hchild, rfl⟩ | ⟨hlink, hfollowed, hdirectory⟩
    · refine ⟨_, heq, hchild, hne, .inl ⟨?_, rfl⟩⟩
      rintro ⟨target, htarget⟩
      cases hchild.symm.trans htarget
    · exact ⟨_, heq, hdirectory, hne, .inr ⟨hlink, hfollowed⟩⟩

theorem mem_subdirectoryNames_iff {directory : Path} {name : Text} :
    name ∈ t.subdirectoryNames directory ↔
      ∃ place location, t.IsSubdirectory directory name place location ∧ location ≠ place := by
  simp only [subdirectoryNames, List.mem_map, List.mem_filter, mem_entries_iff]
  constructor
  · rintro ⟨entry, ⟨⟨place, hlocated, hlisted, -, hentry⟩, hdirectory⟩, rfl⟩
    obtain ⟨location, hsub, hne, -⟩ :=
      (entry?_isDirectory_iff hlocated hlisted).mp ⟨hentry, hdirectory⟩
    exact ⟨place, location, hsub, hne⟩
  · rintro ⟨place, location, hsub, hne⟩
    obtain ⟨hentry, hdirectory⟩ :=
      (entry?_isDirectory_iff hsub.located hsub.listed).mpr ⟨location, hsub, hne, rfl⟩
    exact ⟨_, ⟨⟨place, hsub.located, hsub.listed, t.mem_names_iff.mpr hsub.isSome, hentry⟩,
      hdirectory⟩, rfl⟩

/-- The paths of the children that are directories are those of their names. -/
theorem map_path_entries (directory : Path) :
    ((t.entries directory).filter (·.isDirectory t)).map (·.path) =
      (t.subdirectoryNames directory).map directory.join := by
  rw [subdirectoryNames, List.map_map]
  apply List.map_congr_left
  intro entry hentry
  obtain ⟨place, -, -, -, hentry⟩ := t.mem_entries_iff.mp (List.mem_of_mem_filter hentry)
  exact (entry?_name hentry).2

/-! ## Regular files in a directory -/

/-- A regular file with a name in the directory that a path leads to, links followed: where the
directory lies and where the file. A link is followed by its whole path. -/
structure IsFileIn (t : FileTree) (directory : Path) (name : Text) (place location : Location) :
    Prop where
  located : t.locate directory = .ok place
  listed : t.node? place = some .directory
  followed : t.holdsFile (place ++ [name]) = true ∧ location = place ++ [name] ∨
    t.IsLink (place ++ [name]) ∧
      t.locate (directory.join name) = .ok location ∧ t.holdsFile location = true

theorem holdsFile_iff {place : Location} :
    t.holdsFile place = true ↔ ∃ content, t.node? place = some (.file content) := by
  unfold holdsFile
  split <;> simp_all

theorem IsFileIn.isSome {directory : Path} {name : Text} {place location : Location}
    (h : t.IsFileIn directory name place location) :
    (t.node? (place ++ [name])).isSome = true := by
  rcases h.followed with ⟨hchild, -⟩ | ⟨⟨target, hchild⟩, -⟩
  · obtain ⟨content, hchild⟩ := holdsFile_iff.mp hchild
    rw [hchild]
    rfl
  · rw [hchild]
    rfl

/-- A child is a regular file when its name is that of one. -/
theorem entry?_isFile_iff {directory : Path} {place : Location} {name : Text} {entry : Entry}
    (hlocated : t.locate directory = .ok place) (hlisted : t.node? place = some .directory) :
    t.entry? directory place name = some entry ∧ entry.isFile t = true ↔
      ∃ location, t.IsFileIn directory name place location ∧
        entry = ⟨name, directory.join name, location⟩ := by
  refine entry?_and_iff (P := fun location => t.holdsFile location = true) |>.trans ?_
  constructor
  · rintro ⟨location, heq, hfile, -, ⟨-, rfl⟩ | ⟨hlink, hfollowed⟩⟩
    · exact ⟨_, ⟨hlocated, hlisted, .inl ⟨hfile, rfl⟩⟩, heq⟩
    · exact ⟨_, ⟨hlocated, hlisted, .inr ⟨hlink, hfollowed, hfile⟩⟩, heq⟩
  · rintro ⟨location, hin, heq⟩
    have hfile : t.holdsFile location = true := hin.followed.elim (fun h => h.2 ▸ h.1) (·.2.2)
    have hne : location ≠ place := by
      rintro rfl
      obtain ⟨content, hfile⟩ := holdsFile_iff.mp hfile
      cases hin.listed.symm.trans hfile
    refine ⟨location, heq, hfile, hne, ?_⟩
    rcases hin.followed with ⟨hchild, rfl⟩ | ⟨hlink, hfollowed, -⟩
    · refine .inl ⟨?_, rfl⟩
      rintro ⟨target, htarget⟩
      obtain ⟨content, hchild⟩ := holdsFile_iff.mp hchild
      cases hchild.symm.trans htarget
    · exact .inr ⟨hlink, hfollowed⟩

/-- The children that are regular files are those that a name leads to. -/
theorem mem_entries_isFile_iff {directory : Path} {entry : Entry} :
    entry ∈ t.entries directory ∧ entry.isFile t = true ↔
      ∃ place, t.IsFileIn directory entry.name place entry.location ∧
        entry.path = directory.join entry.name := by
  rw [mem_entries_iff]
  constructor
  · rintro ⟨⟨place, hlocated, hlisted, -, hentry⟩, hfile⟩
    obtain ⟨location, hin, heq⟩ := (entry?_isFile_iff hlocated hlisted).mp ⟨hentry, hfile⟩
    refine ⟨place, ?_, congrArg Entry.path heq⟩
    rwa [congrArg Entry.location heq]
  · rintro ⟨place, hin, hpath⟩
    have heq : entry = ⟨entry.name, directory.join entry.name, entry.location⟩ := by
      rw [← hpath]
    obtain ⟨hentry, hfile⟩ :=
      (entry?_isFile_iff hin.located hin.listed).mpr ⟨entry.location, hin, heq⟩
    exact ⟨⟨place, hin.located, hin.listed, t.mem_names_iff.mpr hin.isSome, hentry⟩, hfile⟩

end FileTree
end PluginLint
