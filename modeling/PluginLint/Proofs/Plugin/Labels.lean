import PluginLint.Plugin.Component
import PluginLint.Proofs.FileTree.Listing

/-!
# Labels of components

Issues name a component by its label. Joined to the root the label of a discovered component is the
path at which the component was read, letter by letter (`join_label_of_mem`), so what an issue says
of a file can be looked up in the tree (`readText_label_of_mem`).
-/
namespace PluginLint

namespace Path

/-- A text with something other than a slash at either end. -/
def Unslashed (child : Text) : Prop :=
  child ≠ [] ∧ child.head? ≠ some '/' ∧ child.getLast? ≠ some '/'

theorem IsName.unslashed {name : Text} (h : IsName name) : Unslashed name :=
  ⟨h.1, h.head?_ne_slash, fun hc => h.2.1 (List.mem_of_getLast? hc)⟩

/-- What is joined behind a text without outer slashes comes behind a slash. -/
theorem join_join (p : Path) {inner child : Text} (h : Unslashed inner)
    (hchild : child.head? ≠ some '/') :
    (p.join inner).join child = p.join (inner ++ '/' :: child) := by
  obtain ⟨hne, hhead, hlast⟩ := h
  have hlong : (inner ++ '/' :: child).head? ≠ some '/' := by
    rwa [List.head?_append_of_ne_nil inner hne]
  have hopen (front : Text) :
      ¬ (front ++ inner = [] ∨ (front ++ inner).getLast? = some '/') := by
    rw [List.getLast?_append_of_ne_nil front hne]
    simp [hne, hlast]
  unfold join
  rw [if_neg hhead, if_neg hchild, if_neg hlong]
  by_cases hslash : p.text = [] ∨ p.text.getLast? = some '/'
  · rw [if_pos hslash, if_pos hslash, if_neg (hopen p.text)]
    simp
  · rw [if_neg hslash, if_neg hslash, List.append_cons, if_neg (hopen (p.text ++ ['/']))]
    simp

variable (root : Path) {first second : Text} (hfirst : IsName first) (hsecond : IsName second)
include hfirst hsecond

theorem parts_join_join :
    ((root.join first).join second).parts = root.parts ++ [.name first, .name second] := by
  rw [parts_join _ hsecond, parts_join _ hfirst, List.append_assoc]
  rfl

theorem join_label_join_join :
    root.join (label root ((root.join first).join second)) = (root.join first).join second := by
  rw [label_of_parts (parts_join_join root hfirst hsecond),
    join_join root hfirst.unslashed hsecond.head?_ne_slash]
  simp [List.intercalate, Part.text]

theorem join_label_join_join_join {third : Text} (hthird : IsName third) :
    root.join (label root (((root.join first).join second).join third)) =
      ((root.join first).join second).join third := by
  have hparts : (((root.join first).join second).join third).parts =
      root.parts ++ [.name first, .name second, .name third] := by
    rw [parts_join _ hthird, parts_join_join root hfirst hsecond, List.append_assoc]
    rfl
  have hrest : (second ++ '/' :: third).head? ≠ some '/' := by
    rw [List.head?_append_of_ne_nil second hsecond.1]
    exact hsecond.head?_ne_slash
  rw [label_of_parts hparts, join_join _ hsecond.unslashed hthird.head?_ne_slash,
    join_join root hfirst.unslashed hrest]
  simp [List.intercalate, Part.text]

end Path

theorem ComponentKind.isName_directory (kind : ComponentKind) :
    Path.IsName kind.directory.toList := by
  cases kind <;> decide

variable {t : FileTree} {root : Path}

theorem join_label_of_mem_flatDocuments (h : t.WellNamed) {kind : ComponentKind} {c : Component}
    (hc : c ∈ flatDocuments t root kind) :
    root.join c.label = c.path ∧ c.content = t.readText c.path := by
  obtain ⟨entry, hentry, rfl⟩ := List.mem_map.mp hc
  obtain ⟨hname, hpath⟩ := h.isName_of_mem_entries (List.mem_of_mem_filter hentry)
  refine ⟨?_, rfl⟩
  simp only [Component.load, hpath, kindDirectory]
  exact Path.join_label_join_join root kind.isName_directory hname

theorem join_label_of_mem_skillDocuments (h : t.WellNamed) {c : Component}
    (hc : c ∈ skillDocuments t root) :
    root.join c.label = c.path ∧ c.content = t.readText c.path := by
  obtain ⟨path, hpath, rfl⟩ := List.mem_map.mp hc
  obtain ⟨directory, hdirectory, rfl⟩ := List.mem_map.mp (List.mem_of_mem_filter hpath)
  obtain ⟨entry, hentry, rfl⟩ := List.mem_map.mp hdirectory
  obtain ⟨hname, hjoin⟩ := h.isName_of_mem_entries (List.mem_of_mem_filter hentry)
  refine ⟨?_, rfl⟩
  simp only [Component.load, hjoin, kindDirectory, entryPath]
  exact Path.join_label_join_join_join root ComponentKind.skill.isName_directory hname (by decide)

/-- The label of a discovered component leads from the root to where it was read. -/
theorem join_label_of_mem (h : t.WellNamed) {c : Component} (hc : c ∈ (discover t root).toList) :
    root.join c.label = c.path ∧ c.content = t.readText c.path := by
  simp only [discover, Components.toList, List.mem_append] at hc
  rcases hc with (hcommand | hagent) | hskill
  · exact join_label_of_mem_flatDocuments h hcommand
  · exact join_label_of_mem_flatDocuments h hagent
  · exact join_label_of_mem_skillDocuments h hskill

theorem readText_label_of_mem (h : t.WellNamed) {c : Component}
    (hc : c ∈ (discover t root).toList) : t.readText (root.join c.label) = c.content := by
  obtain ⟨hlabel, hcontent⟩ := join_label_of_mem h hc
  rw [hlabel, hcontent]

end PluginLint
