import PluginLint.Proofs.FileTree.Listing

/-!
# The order of listed paths

Both listings of a directory give paths in the order of their parts, each once
(`filesBelow_pairwise`, `entries_path_pairwise`). What comes in such an order is known from its
members (`eq_of_mem_iff`), so two trees list the same in the same order when they list the same at
all.
-/
namespace PluginLint

namespace Path

/-- The parts of a path as they are written. Listed paths are in the order of these. -/
def steps (p : Path) : List Text := p.parts.map Part.text

theorem steps_join (p : Path) {name : Text} (h : IsName name) :
    (p.join name).steps = p.steps ++ [name] := by
  rw [steps, parts_join p h, List.map_append]
  rfl

theorem steps_foldl_join (p : Path) {names : List Text} (h : ∀ name ∈ names, IsName name) :
    (names.foldl join p).steps = p.steps ++ names := by
  rw [steps, parts_foldl_join p h, List.map_append, List.map_map]
  exact congrArg (p.steps ++ ·) (List.map_id names)

end Path

/-- Lists in strictly increasing order are the same when they have the same members. -/
theorem eq_of_mem_iff {α β : Type} [LT β] [Std.Irrefl (α := β) (· < ·)]
    [Std.Asymm (α := β) (· < ·)] {key : α → List β} {first second : List α}
    (hfirst : first.Pairwise fun a b => key a < key b)
    (hsecond : second.Pairwise fun a b => key a < key b)
    (h : ∀ a, a ∈ first ↔ a ∈ second) : first = second := by
  have : Std.Irrefl fun a b => key a < key b := ⟨fun a => List.lt_irrefl (key a)⟩
  have : Std.Antisymm fun a b => key a < key b :=
    ⟨fun _ _ hab hba => absurd hba (List.lt_asymm hab)⟩
  exact hfirst.eq_of_mem_iff hsecond h

namespace FileTree

variable {t : FileTree} (h : t.WellNamed)
include h

theorem WellNamed.isName_of_mem_below {place relative : Location}
    (hrelative : relative ∈ t.below place) : ∀ name ∈ relative, Path.IsName name := by
  rw [below, List.mem_mergeSort, List.mem_eraseDups] at hrelative
  obtain ⟨entry, hentry, hdrop⟩ := List.mem_filterMap.mp (List.mem_of_mem_filter hrelative)
  split at hdrop
  · obtain rfl := Option.some.inj hdrop
    exact fun name hname => h entry hentry name (List.mem_of_mem_drop hname)
  · cases hdrop

theorem filesBelow_pairwise (directory : Path) :
    (t.filesBelow directory).Pairwise fun p q => p.steps < q.steps := by
  unfold filesBelow
  split
  · exact List.Pairwise.nil
  · split
    · rw [List.pairwise_map]
      refine ((t.below_pairwise _).filter _).imp_of_mem fun {a b} ha hb hlt => ?_
      rw [Path.steps_foldl_join _ (h.isName_of_mem_below (List.mem_of_mem_filter ha)),
        Path.steps_foldl_join _ (h.isName_of_mem_below (List.mem_of_mem_filter hb))]
      exact List.append_left_lt hlt
    · exact List.Pairwise.nil

theorem entries_path_pairwise (directory : Path) :
    (t.entries directory).Pairwise fun a b => a.path.steps < b.path.steps := by
  refine (t.entries_pairwise directory).imp_of_mem fun {a b} ha hb hlt => ?_
  obtain ⟨haName, haPath⟩ := h.isName_of_mem_entries ha
  obtain ⟨hbName, hbPath⟩ := h.isName_of_mem_entries hb
  rw [haPath, hbPath, Path.steps_join _ haName, Path.steps_join _ hbName]
  exact List.append_left_lt (List.cons_lt_cons_iff.mpr (.inl hlt))

end FileTree
end PluginLint
