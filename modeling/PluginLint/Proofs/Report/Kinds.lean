import Mathlib.Data.List.Sort
import PluginLint.Report.CheckKind

/-!
# Kinds in a selection

The kinds that a selection names are sorted, and then repetitions, which stand next to each other,
are dropped. What is left is a filter of all kinds (`ordered_eq_filter`), so how the kinds were
named does not show in it.
-/
namespace PluginLint.CheckKind

theorem mem_all (kind : CheckKind) : kind ∈ all := by cases kind <;> decide

theorem rank_injective : Function.Injective rank := by
  intro kind other h
  cases kind <;> cases other <;> first | rfl | cases h

theorem all_pairwise : all.Pairwise fun kind later => kind.rank < later.rank := by decide

/-- In a row that does not fall, the first of each run of one kind makes a row that rises. -/
theorem exists_eraseReps_loop {first : CheckKind} {rest : List CheckKind} (passed : List CheckKind)
    (h : (first :: rest).Pairwise fun kind later => kind.rank ≤ later.rank) :
    ∃ kept, List.eraseRepsBy.loop (· == ·) first rest passed = passed.reverse ++ kept ∧
      (kept.Pairwise fun kind later => kind.rank < later.rank) ∧
      ∀ kind, kind ∈ kept ↔ kind ∈ first :: rest := by
  induction rest generalizing first passed with
  | nil => exact ⟨[first], by simp [List.eraseRepsBy.loop], by simp, by simp⟩
  | cons second rest ih =>
    obtain ⟨hfirst, hrest⟩ := List.pairwise_cons.mp h
    by_cases hsame : first = second
    · subst hsame
      obtain ⟨kept, hloop, hrises, hmem⟩ := ih passed hrest
      exact ⟨kept, by simpa [List.eraseRepsBy.loop] using hloop, hrises, by simp [hmem]⟩
    · obtain ⟨kept, hloop, hrises, hmem⟩ := ih (first :: passed) hrest
      have hlt : first.rank < second.rank :=
        lt_of_le_of_ne (hfirst second List.mem_cons_self) (rank_injective.ne hsame)
      have hsecond := (List.pairwise_cons.mp hrest).1
      refine ⟨first :: kept, ?_, List.pairwise_cons.mpr ⟨?_, hrises⟩, by simp [hmem]⟩
      · rw [List.eraseRepsBy.loop, beq_eq_false_iff_ne.mpr hsame]
        simpa using hloop
      · intro kind hkind
        rcases List.mem_cons.mp ((hmem kind).mp hkind) with rfl | hlater
        · exact hlt
        · exact hlt.trans_le (hsecond kind hlater)

/-- Sorted and without repetitions, some kinds are a filter of all kinds. -/
theorem ordered_eq_filter (kinds : List CheckKind) : ordered kinds = all.filter (· ∈ kinds) := by
  have hsorted : (kinds.mergeSort fun kind later => kind.rank ≤ later.rank).Pairwise
      fun kind later => kind.rank ≤ later.rank := by
    refine (List.pairwise_mergeSort ?_ ?_ kinds).imp of_decide_eq_true
    · intro a b c hab hbc
      exact decide_eq_true ((of_decide_eq_true hab).trans (of_decide_eq_true hbc))
    · intro a b
      simpa using Nat.le_total a.rank b.rank
  have hordered : (ordered kinds).Pairwise (fun kind later => kind.rank < later.rank) ∧
      ∀ kind, kind ∈ ordered kinds ↔ kind ∈ kinds := by
    have hmem (kind : CheckKind) :
        kind ∈ (kinds.mergeSort fun kind later => kind.rank ≤ later.rank) ↔ kind ∈ kinds :=
      List.mem_mergeSort
    unfold ordered
    cases hlist : kinds.mergeSort fun kind later => kind.rank ≤ later.rank with
    | nil =>
      rw [hlist] at hmem
      exact ⟨List.Pairwise.nil, hmem⟩
    | cons first rest =>
      rw [hlist] at hmem hsorted
      obtain ⟨kept, hloop, hrises, hkept⟩ := exists_eraseReps_loop [] hsorted
      have heq : (first :: rest).eraseReps = kept := hloop
      rw [heq]
      exact ⟨hrises, fun kind => (hkept kind).trans (hmem kind)⟩
  refine List.Pairwise.eq_of_mem_iff (r := fun kind later => kind.rank < later.rank) hordered.1
    (all_pairwise.filter _) fun kind => ?_
  rw [hordered.2, List.mem_filter, decide_eq_true_eq, and_iff_right (mem_all kind)]

/-- What a selection stands for, its kinds as a filter of all kinds. -/
theorem parseList_eq (s : Text) : parseList s =
    if isAll s then .ok all
    else
      let unknown := (names s).filter fun name => (ofText? name).isNone
      let selected := (names s).filterMap ofText?
      if unknown ≠ [] then .error (.unknownChecks unknown)
      else if selected = [] then .error .nothing
      else .ok (all.filter (· ∈ selected)) := by
  simp only [parseList, ordered_eq_filter]

/-- A selection that can be read names some kinds, and they come in the order in which they run. -/
theorem of_parseList_eq_ok {s : Text} {kinds : List CheckKind} (h : parseList s = .ok kinds) :
    kinds ≠ [] ∧ (all.filter fun kind => kind ∈ kinds) = kinds := by
  rw [parseList_eq] at h
  split at h
  · obtain rfl := Except.ok.inj h
    exact ⟨by decide, by decide⟩
  · simp only at h
    split at h
    · cases h
    · split at h
      · cases h
      · next hsome =>
        obtain rfl := Except.ok.inj h
        refine ⟨?_, ?_⟩
        · obtain ⟨kind, hkind⟩ := List.exists_mem_of_ne_nil _ hsome
          exact List.ne_nil_of_mem (List.mem_filter.mpr ⟨mem_all kind, decide_eq_true hkind⟩)
        · simp [mem_all]

/-- The word of a kind selects that kind alone. -/
theorem parseList_word (kind : CheckKind) : parseList kind.word.toList = .ok [kind] := by
  rw [parseList_eq]
  cases kind <;> decide

end PluginLint.CheckKind
