import Mathlib.Data.List.Basic
import PluginLint.Proofs.Check.Engine
import PluginLint.Proofs.Report.Kinds

/-!
# Registering and selecting checks

Checks are registered in any order, several of one kind among them, and selections may come in
between. An engine holds its checks sorted all along: they are the stable sort by kind of the checks
that were registered and are in every selection made after that
(`checks_sorted_after_every_step`). An insertion keeps the order of kinds and puts the new check
behind all others of its kind (`insert_inKindOrder`, `ofKind_insert`); checks in the order of kinds
are known from the checks of every kind (`eq_of_ofKind`), so there is one list that fits.
-/
namespace PluginLint

/-! ## Stable sorting -/

namespace Check

/-- Whether checks come in the order of their kinds. -/
def InKindOrder (checks : List Check) : Prop :=
  checks.Pairwise fun c d => c.kind.rank ≤ d.kind.rank

/-- The checks of one kind. -/
def ofKind (kind : CheckKind) (checks : List Check) : List Check :=
  checks.filter fun c => c.kind = kind

theorem mem_ofKind_self {c : Check} {checks : List Check} :
    c ∈ ofKind c.kind checks ↔ c ∈ checks := by
  simp [ofKind]

theorem ofKind_append (kind : CheckKind) (first second : List Check) :
    ofKind kind (first ++ second) = ofKind kind first ++ ofKind kind second :=
  List.filter_append ..

theorem ofKind_cons_self (c : Check) (checks : List Check) :
    ofKind c.kind (c :: checks) = c :: ofKind c.kind checks := by
  simp [ofKind]

theorem ofKind_cons_of_ne {kind : CheckKind} {c : Check} (h : c.kind ≠ kind) (checks : List Check) :
    ofKind kind (c :: checks) = ofKind kind checks := by
  simp [ofKind, h]

/-- Two lists in order with the same checks of every kind start with the same check: the first of
either is somewhere in the other, so neither kind comes before the other. -/
theorem eq_of_ofKind {first second : List Check} (hfirst : InKindOrder first)
    (hsecond : InKindOrder second) (h : ∀ kind, ofKind kind first = ofKind kind second) :
    first = second := by
  induction first generalizing second with
  | nil =>
    cases second with
    | nil => rfl
    | cons d more =>
      have hd : d ∈ ofKind d.kind [] := by
        rw [h d.kind]
        exact mem_ofKind_self.mpr List.mem_cons_self
      cases hd
  | cons c rest ih =>
    have hc : c ∈ second := by
      rw [← mem_ofKind_self, ← h c.kind]
      exact mem_ofKind_self.mpr List.mem_cons_self
    cases second with
    | nil => cases hc
    | cons d more =>
      have hd : d ∈ c :: rest := by
        rw [← mem_ofKind_self, h d.kind]
        exact mem_ofKind_self.mpr List.mem_cons_self
      obtain ⟨hrest, hrestOrder⟩ := List.pairwise_cons.mp hfirst
      obtain ⟨hmore, hmoreOrder⟩ := List.pairwise_cons.mp hsecond
      have hdc : d.kind.rank ≤ c.kind.rank := by
        rcases List.mem_cons.mp hc with rfl | hc
        · exact Nat.le_refl _
        · exact hmore c hc
      have hcd : c.kind.rank ≤ d.kind.rank := by
        rcases List.mem_cons.mp hd with rfl | hd
        · exact Nat.le_refl _
        · exact hrest d hd
      have hkind : c.kind = d.kind := CheckKind.rank_injective (Nat.le_antisymm hcd hdc)
      have hown := h c.kind
      rw [ofKind_cons_self, hkind, ofKind_cons_self] at hown
      obtain ⟨hhead, htail⟩ := List.cons.inj hown
      subst hhead
      refine congrArg (c :: ·) (ih hrestOrder hmoreOrder fun kind => ?_)
      by_cases hother : c.kind = kind
      · rw [← hother]
        exact htail
      · have hothers := h kind
        rwa [ofKind_cons_of_ne hother, ofKind_cons_of_ne hother] at hothers

/-- Whether one check may run before another. -/
def mayPrecede (c d : Check) : Bool := decide (c.kind.rank ≤ d.kind.rank)

theorem mayPrecede_iff {c d : Check} : c.mayPrecede d = true ↔ c.kind.rank ≤ d.kind.rank :=
  decide_eq_true_iff

theorem mayPrecede_trans (a b c : Check) (hab : a.mayPrecede b = true)
    (hbc : b.mayPrecede c = true) : a.mayPrecede c = true :=
  mayPrecede_iff.mpr (Nat.le_trans (mayPrecede_iff.mp hab) (mayPrecede_iff.mp hbc))

theorem mayPrecede_total (a b : Check) : (a.mayPrecede b || b.mayPrecede a) = true := by
  rw [Bool.or_eq_true, mayPrecede_iff, mayPrecede_iff]
  exact Nat.le_total _ _

/-- Checks sorted by kind. The sort is stable, so checks of one kind keep their order. -/
def sortByKind (checks : List Check) : List Check := checks.mergeSort mayPrecede

theorem sortByKind_inKindOrder (checks : List Check) : InKindOrder (sortByKind checks) :=
  (List.pairwise_mergeSort mayPrecede_trans mayPrecede_total checks).imp mayPrecede_iff.mp

theorem ofKind_sortByKind (kind : CheckKind) (checks : List Check) :
    ofKind kind (sortByKind checks) = ofKind kind checks := by
  have hsorted : (ofKind kind checks).Pairwise fun c d => c.mayPrecede d = true := by
    refine List.pairwise_of_forall_mem_list fun c hc d hd => mayPrecede_iff.mpr (Nat.le_of_eq ?_)
    have hckind : c.kind = kind := of_decide_eq_true (List.mem_filter.mp hc).2
    have hdkind : d.kind = kind := of_decide_eq_true (List.mem_filter.mp hd).2
    rw [hckind, hdkind]
  have hkept : (ofKind kind checks).Sublist (sortByKind checks) :=
    List.sublist_mergeSort mayPrecede_trans mayPrecede_total hsorted List.filter_sublist
  have hall : (ofKind kind checks).Sublist (ofKind kind (sortByKind checks)) := by
    have hfiltered := hkept.filter fun c => c.kind = kind
    simpa only [ofKind, List.filter_filter, Bool.and_self] using hfiltered
  have hperm : (ofKind kind (sortByKind checks)).Perm (ofKind kind checks) :=
    (List.mergeSort_perm checks mayPrecede).filter _
  exact (hall.eq_of_length hperm.length_eq.symm).symm

/-- Choosing checks by their kinds does not depend on whether they were sorted before. -/
theorem filter_sortByKind (chosen : Check → Bool) (checks : List Check) :
    (sortByKind checks).filter chosen = sortByKind (checks.filter chosen) := by
  refine eq_of_ofKind ((sortByKind_inKindOrder checks).filter _) (sortByKind_inKindOrder _) ?_
  intro kind
  rw [ofKind_sortByKind, ofKind, List.filter_comm, ← ofKind, ofKind_sortByKind, ofKind,
    List.filter_comm]
  rfl

end Check

/-! ## Steps -/

namespace Engine

open Check

theorem mem_insert {c d : Check} {checks : List Check} :
    d ∈ insert c checks ↔ d = c ∨ d ∈ checks := by
  induction checks with
  | nil => simp [insert]
  | cons first rest ih =>
    unfold insert
    split
    · exact List.mem_cons
    · rw [List.mem_cons, ih, List.mem_cons]
      exact or_left_comm

theorem insert_inKindOrder (c : Check) {checks : List Check} (h : InKindOrder checks) :
    InKindOrder (insert c checks) := by
  induction checks with
  | nil => exact List.pairwise_singleton _ _
  | cons first rest ih =>
    obtain ⟨hfirst, hrest⟩ := List.pairwise_cons.mp h
    unfold insert
    split
    · next hearlier =>
      refine List.pairwise_cons.mpr ⟨fun d hd => ?_, h⟩
      rcases List.mem_cons.mp hd with rfl | hd
      · exact Nat.le_of_lt hearlier
      · exact Nat.le_trans (Nat.le_of_lt hearlier) (hfirst d hd)
    · next hlater =>
      refine List.pairwise_cons.mpr ⟨fun d hd => ?_, ih hrest⟩
      rcases mem_insert.mp hd with rfl | hd
      · exact Nat.le_of_not_lt hlater
      · exact hfirst d hd

/-- Among checks in order a new one comes behind all others of its kind. -/
theorem ofKind_insert (kind : CheckKind) (c : Check) {checks : List Check}
    (h : InKindOrder checks) : ofKind kind (insert c checks) = ofKind kind (checks ++ [c]) := by
  induction checks with
  | nil => rfl
  | cons first rest ih =>
    obtain ⟨hfirst, hrest⟩ := List.pairwise_cons.mp h
    unfold insert
    split
    · next hearlier =>
      rw [ofKind_append]
      by_cases hkind : c.kind = kind
      · have hnone : ofKind kind (first :: rest) = [] := by
          refine List.filter_eq_nil_iff.mpr fun d hd => ?_
          have hle : first.kind.rank ≤ d.kind.rank := by
            rcases List.mem_cons.mp hd with rfl | hd
            · exact Nat.le_refl _
            · exact hfirst d hd
          have hlt : c.kind.rank < d.kind.rank := Nat.lt_of_lt_of_le hearlier hle
          rw [decide_eq_true_iff, ← hkind]
          intro hsame
          rw [hsame] at hlt
          exact Nat.lt_irrefl _ hlt
        subst hkind
        rw [ofKind_cons_self, hnone, ofKind_cons_self]
        rfl
      · rw [ofKind_cons_of_ne hkind, ofKind_cons_of_ne hkind]
        exact (List.append_nil _).symm
    · by_cases hkind : first.kind = kind
      · subst hkind
        rw [List.cons_append, ofKind_cons_self, ofKind_cons_self, ih hrest]
      · rw [List.cons_append, ofKind_cons_of_ne hkind, ofKind_cons_of_ne hkind, ih hrest]

theorem insert_sortByKind (c : Check) (checks : List Check) :
    insert c (sortByKind checks) = sortByKind (checks ++ [c]) := by
  have hsorted := sortByKind_inKindOrder checks
  refine eq_of_ofKind (insert_inKindOrder c hsorted) (sortByKind_inKindOrder _) fun kind => ?_
  rw [ofKind_insert kind c hsorted, ofKind_append, ofKind_sortByKind, ofKind_sortByKind,
    ofKind_append]

/-- What is done to an engine before it runs. -/
inductive Step where
  | register (check : Check)
  | select (kinds : List CheckKind)

def apply (e : Engine) : Step → Engine
  | .register check => e.register check
  | .select kinds => e.select kinds

/-- Whether a check is in every selection among some steps. -/
def outlasts (check : Check) : List Step → Bool
  | [] => true
  | .register _ :: later => outlasts check later
  | .select kinds :: later => decide (check.kind ∈ kinds) && outlasts check later

/-- The checks that are registered in some steps and are in every selection after that, in the order
in which they are registered. -/
def survivors : List Step → List Check
  | [] => []
  | .register check :: later =>
    if outlasts check later then check :: survivors later else survivors later
  | .select _ :: later => survivors later

/-- What a step does to the checks before they are sorted. -/
def Step.collect (held : List Check) : Step → List Check
  | .register check => held ++ [check]
  | .select kinds => held.filter fun c => c.kind ∈ kinds

/-- A step keeps the checks sorted. -/
theorem checks_apply {e : Engine} {held : List Check} (h : e.checks = sortByKind held)
    (step : Step) : (e.apply step).checks = sortByKind (step.collect held) := by
  cases step with
  | register check => rw [apply, register, h, insert_sortByKind, Step.collect]
  | select kinds => rw [apply, select, h, filter_sortByKind, Step.collect]

/-- The checks that were there before some steps stay if they are in every selection, and those that
survive from the steps come behind them. -/
theorem foldl_collect (held : List Check) (steps : List Step) :
    steps.foldl Step.collect held =
      (held.filter fun c => outlasts c steps) ++ survivors steps := by
  induction steps generalizing held with
  | nil => simp [outlasts, survivors]
  | cons step later ih =>
    rw [List.foldl_cons, ih]
    cases step with
    | register check =>
      simp only [Step.collect, List.filter_append, List.append_assoc, survivors, outlasts]
      by_cases h : outlasts check later = true
      · simp [h]
      · simp [h]
    | select kinds =>
      simp only [Step.collect, List.filter_filter, survivors, outlasts, Bool.and_comm]

theorem checks_foldl_apply {e : Engine} {held : List Check} (h : e.checks = sortByKind held)
    (steps : List Step) :
    (steps.foldl apply e).checks = sortByKind (steps.foldl Step.collect held) := by
  induction steps generalizing e held with
  | nil => exact h
  | cons step later ih => exact ih (checks_apply h step)

/-- No step changes what a validation is measured by. -/
theorem settings_foldl_apply (e : Engine) (steps : List Step) :
    (steps.foldl apply e).limits = e.limits ∧ (steps.foldl apply e).verbose = e.verbose := by
  induction steps generalizing e with
  | nil => exact ⟨rfl, rfl⟩
  | cons step later ih =>
    obtain ⟨hlimits, hverbose⟩ := ih (e.apply step)
    cases step with
    | register check => exact ⟨hlimits, hverbose⟩
    | select kinds => exact ⟨hlimits, hverbose⟩

/-- An engine with the built-in checks has gone through the steps that register them. -/
theorem standard_eq_foldl (limits : Limits) (verbose : Bool) :
    standard limits verbose =
      (builtinChecks.map Step.register).foldl apply (empty limits verbose) := rfl

/-- An engine that holds some checks, sorted by kind with those of one kind in their order, and that
runs each of them once in that order, with one result for each. -/
structure RunsSorted (e : Engine) (held : List Check) (limits : Limits) (verbose : Bool) :
    Prop where
  sorted : e.checks = sortByKind held
  ordered : InKindOrder e.checks
  stable : ∀ kind, ofKind kind e.checks = ofKind kind held
  listed : e.list = e.checks.map fun c => (c.kind, c.description)
  results : ∀ tree root counter, (e.validate tree root counter).results =
    e.checks.map fun c => c.run (Subject.ofRoot tree root limits counter verbose)
  kinds : ∀ tree root counter,
    (e.validate tree root counter).results.map (·.check) = e.checks.map (·.kind)

theorem runsSorted_of_steps (limits : Limits) (verbose : Bool) (steps : List Step) :
    RunsSorted (steps.foldl apply (empty limits verbose)) (survivors steps) limits verbose := by
  have hempty : (empty limits verbose).checks = sortByKind [] := List.mergeSort_nil.symm
  have hsorted : (steps.foldl apply (empty limits verbose)).checks =
      sortByKind (survivors steps) := by
    rw [checks_foldl_apply hempty, foldl_collect]
    rfl
  obtain ⟨hlimits, hverbose⟩ := settings_foldl_apply (empty limits verbose) steps
  generalize steps.foldl apply (empty limits verbose) = e at hsorted hlimits hverbose ⊢
  have hresults (tree : FileTree) (root : Path) (counter : Counter) :
      (e.validate tree root counter).results =
        e.checks.map fun c => c.run (Subject.ofRoot tree root limits counter verbose) := by
    rw [validate, inspect, hlimits, hverbose]
    rfl
  exact {
    sorted := hsorted
    ordered := by
      rw [hsorted]
      exact sortByKind_inKindOrder _
    stable := by
      intro kind
      rw [hsorted, ofKind_sortByKind]
    listed := rfl
    results := hresults
    kinds := by
      intro tree root counter
      rw [hresults, List.map_map]
      exact List.map_congr_left fun c _ => Check.record_check _ _ _ }

/-- Whatever is registered and selected in whatever order, an engine holds the stable sort by kind
of the checks that were registered and are in every selection made after that, and each validation
runs each of them once in that order. An engine that starts with the built-in checks behaves as one
in which they were registered before all else. -/
theorem checks_sorted_after_every_step (limits : Limits) (verbose : Bool) (steps : List Step) :
    RunsSorted (steps.foldl apply (empty limits verbose)) (survivors steps) limits verbose ∧
    RunsSorted (steps.foldl apply (standard limits verbose))
      (survivors (builtinChecks.map Step.register ++ steps)) limits verbose := by
  refine ⟨runsSorted_of_steps limits verbose steps, ?_⟩
  rw [standard_eq_foldl, ← List.foldl_append]
  exact runsSorted_of_steps limits verbose _

end Engine
end PluginLint
