import Mathlib.Data.List.Induction
import PluginLint.Document.Header

/-!
# Laws of setting header fields

A key that is set keeps its place and line if it was set before, and comes last if it was not. The
keys of many settings in a row (`keys_setAll`) and the field of each key (`field?_setAll`) follow.
-/
namespace PluginLint.Header

/-- The keys of a header, in order. -/
def keys (h : Header) : List Text := h.fields.map Prod.fst

/-- Sets values one after the other, each at its own line. -/
def setAll (h : Header) (given : List (Text × Field)) : Header :=
  given.foldl (fun h g => h.set g.1 g.2.value g.2.line) h

theorem setAll_append (h : Header) (first second : List (Text × Field)) :
    h.setAll (first ++ second) = (h.setAll first).setAll second :=
  List.foldl_append

theorem setAll_concat (h : Header) (given : List (Text × Field)) (g : Text × Field) :
    h.setAll (given ++ [g]) = (h.setAll given).set g.1 g.2.value g.2.line :=
  setAll_append h given [g]

theorem keys_setField (key value : Text) (line : Nat) (fields : List (Text × Field)) :
    (setField key value line fields).map Prod.fst =
      if key ∈ fields.map Prod.fst then fields.map Prod.fst else fields.map Prod.fst ++ [key] := by
  induction fields with
  | nil => simp [setField]
  | cons entry rest ih =>
    obtain ⟨k, f⟩ := entry
    by_cases hk : k = key
    · simp [setField, hk]
    · have hk' : key ≠ k := Ne.symm hk
      simp only [setField, if_neg hk, List.map_cons, ih, List.mem_cons, hk', false_or]
      split <;> rfl

theorem keys_set (h : Header) (key value : Text) (line : Nat) :
    (h.set key value line).keys = if key ∈ h.keys then h.keys else h.keys ++ [key] :=
  keys_setField key value line h.fields

theorem lookup_setField (key value : Text) (line : Nat) (fields : List (Text × Field)) (k : Text) :
    (setField key value line fields).lookup k =
      if k = key then some ⟨value, ((fields.lookup key).map (·.line)).getD line⟩
      else fields.lookup k := by
  induction fields with
  | nil => by_cases hk : k = key <;> simp [setField, hk]
  | cons entry rest ih =>
    obtain ⟨k₀, f⟩ := entry
    by_cases h₀ : k₀ = key
    · subst h₀
      by_cases hk : k = k₀
      · simp [setField, hk]
      · simp [setField, List.lookup_cons, hk, beq_eq_false_iff_ne.mpr hk]
    · have h₀' : key ≠ k₀ := Ne.symm h₀
      simp only [setField, if_neg h₀, List.lookup_cons, ih, beq_eq_false_iff_ne.mpr h₀']
      by_cases hk : k = k₀
      · subst hk
        simp [h₀]
      · simp [beq_eq_false_iff_ne.mpr hk]

theorem field?_set (h : Header) (key value : Text) (line : Nat) (k : Text) :
    (h.set key value line).field? k =
      if k = key then some ⟨value, ((h.field? key).map (·.line)).getD line⟩ else h.field? k :=
  lookup_setField key value line h.fields k

theorem setField_of_not_mem {key : Text} {fields : List (Text × Field)}
    (h : key ∉ fields.map Prod.fst) (value : Text) (line : Nat) :
    setField key value line fields = fields ++ [(key, ⟨value, line⟩)] := by
  induction fields with
  | nil => rfl
  | cons entry rest ih =>
    rw [List.map_cons, List.mem_cons, not_or] at h
    obtain ⟨k, f⟩ := entry
    have hk : k ≠ key := Ne.symm h.1
    simp [setField, hk, ih h.2]

/-- Settings of different keys are kept as they are given. -/
theorem setAll_of_nodup {given : List (Text × Field)} (h : (given.map Prod.fst).Nodup) :
    empty.setAll given = ⟨given⟩ := by
  induction given using List.reverseRecOn with
  | nil => rfl
  | append_singleton given g ih =>
    rw [List.map_append, List.map_singleton, (List.perm_append_singleton _ _).nodup_iff,
      List.nodup_cons] at h
    rw [setAll_concat, ih h.2]
    exact congrArg Header.mk (setField_of_not_mem h.1 g.2.value g.2.line)

/-- The keys of settings in a row are the keys given, each where it is given first. -/
theorem keys_setAll (given : List (Text × Field)) :
    (empty.setAll given).keys = (given.map Prod.fst).eraseDups := by
  induction given using List.reverseRecOn with
  | nil => rfl
  | append_singleton given g ih =>
    rw [setAll_concat, keys_set, ih, List.map_append, List.eraseDups_append]
    by_cases hg : g.1 ∈ given.map Prod.fst
    · rw [if_pos (List.mem_eraseDups.mpr hg)]
      simp only [List.map_cons, List.map_nil, List.removeAll, List.filter_cons, List.elem_eq_mem, hg]
      simp
    · rw [if_neg (mt List.mem_eraseDups.mp hg)]
      simp only [List.map_cons, List.map_nil, List.removeAll, List.filter_cons, List.elem_eq_mem, hg]
      rfl

theorem lookup_reverse_isSome (given : List (Text × Field)) (key : Text) :
    (given.reverse.lookup key).isSome = (given.lookup key).isSome := by
  rw [Bool.eq_iff_iff, List.lookup_isSome_iff, List.lookup_isSome_iff]
  simp

/-- The field of a key after settings in a row: its last value at its first line. -/
theorem field?_setAll (given : List (Text × Field)) (key : Text) :
    (empty.setAll given).field? key = do
      let first ← given.lookup key
      let last ← given.reverse.lookup key
      return ⟨last.value, first.line⟩ := by
  induction given using List.reverseRecOn with
  | nil => rfl
  | append_singleton given g ih =>
    obtain ⟨k, f⟩ := g
    rw [setAll_concat, field?_set, List.lookup_append, List.reverse_append,
      List.reverse_singleton, List.singleton_append]
    by_cases hk : key = k
    · subst hk
      rw [if_pos rfl, ih, List.lookup_cons_self, List.lookup_cons_self]
      cases hfirst : given.lookup key with
      | none => rfl
      | some first =>
        have hsome := lookup_reverse_isSome given key
        rw [hfirst] at hsome
        obtain ⟨last, hlast⟩ := Option.isSome_iff_exists.mp hsome
        rw [hlast]
        rfl
    · have hne : (key == k) = false := beq_eq_false_iff_ne.mpr hk
      simp only [if_neg hk, ih, List.lookup_cons, hne, List.lookup_nil, Option.or_none]

/-- A key has no field when none was set. -/
theorem field?_setAll_eq_none_iff (given : List (Text × Field)) (key : Text) :
    (empty.setAll given).field? key = none ↔ ∀ g ∈ given, g.1 ≠ key := by
  have hnone : given.lookup key = none ↔ ∀ g ∈ given, g.1 ≠ key := by
    simp only [List.lookup_eq_none_iff, bne_iff_ne, ne_comm]
  rw [field?_setAll, ← hnone]
  cases hfirst : given.lookup key with
  | none => simp
  | some first =>
    have hsome := lookup_reverse_isSome given key
    rw [hfirst] at hsome
    obtain ⟨last, hlast⟩ := Option.isSome_iff_exists.mp hsome
    simp [hlast]

/-- A setting in its place: the line of its key is that of the setting or of one before it, and its
value stays unless the key is set again. -/
theorem exists_field?_setAll (before behind : List (Text × Field)) (key : Text) (given : Field) :
    ∃ field, (empty.setAll (before ++ (key, given) :: behind)).field? key = some field ∧
      (field.line = given.line ∨ ∃ g ∈ before, g.2.line = field.line) ∧
      ((∀ g ∈ behind, g.1 ≠ key) → field.value = given.value) := by
  obtain ⟨earliest, hearliest, hplace⟩ : ∃ earliest,
      (before ++ (key, given) :: behind).lookup key = some earliest ∧
        (earliest.line = given.line ∨ ∃ g ∈ before, g.2.line = earliest.line) := by
    rw [List.lookup_append, List.lookup_cons_self]
    cases h : before.lookup key with
    | none => exact ⟨given, rfl, .inl rfl⟩
    | some field =>
      obtain ⟨front, back, rfl, -⟩ := List.lookup_eq_some_iff.mp h
      exact ⟨field, rfl, .inr ⟨(key, field), by simp, rfl⟩⟩
  obtain ⟨latest, hlatest, hvalue⟩ : ∃ latest,
      (before ++ (key, given) :: behind).reverse.lookup key = some latest ∧
        ((∀ g ∈ behind, g.1 ≠ key) → latest.value = given.value) := by
    rw [List.reverse_append, List.reverse_cons, List.append_assoc, List.lookup_append,
      List.singleton_append, List.lookup_cons_self]
    cases h : behind.reverse.lookup key with
    | none => exact ⟨given, rfl, fun _ => rfl⟩
    | some field =>
      refine ⟨field, rfl, fun hnone => ?_⟩
      obtain ⟨front, back, hmem, -⟩ := List.lookup_eq_some_iff.mp h
      have hbehind : (key, field) ∈ behind := by
        rw [← List.mem_reverse, hmem]
        simp
      exact absurd rfl (hnone _ hbehind)
  refine ⟨⟨latest.value, earliest.line⟩, ?_, hplace, hvalue⟩
  rw [field?_setAll, hearliest, hlatest]
  rfl

end PluginLint.Header
