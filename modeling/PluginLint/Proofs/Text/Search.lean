import Mathlib.Data.List.Infix
import PluginLint.Text.Basic

/-!
# Laws of searching

`occurs` finds a mark wherever it stands (`occurs_iff_isInfix`). In a text that is split at a
character a mark without that character is found in the whole exactly when it is found in one of
the parts (`occurs_iff_exists_splitOn`), so a search over a list of entries looks at every entry by
itself. In the same way the first place of a mark is found part by part (`cut?_append_cons`).
-/
namespace PluginLint.Text

theorem occurs_iff_isInfix {mark s : Text} : occurs mark s = true ↔ mark <:+: s := by
  constructor
  · intro h
    obtain ⟨⟨before, after⟩, hcut⟩ := Option.isSome_iff_exists.mp h
    exact ⟨before, after, append_of_cut? hcut⟩
  · intro h
    induction s with
    | nil =>
      obtain rfl := List.infix_nil.mp h
      rfl
    | cons c rest ih =>
      by_cases hp : mark.isPrefixOf (c :: rest) = true
      · simp [occurs, cut?, hp]
      · have hrest : mark <:+: rest := by
          rcases List.infix_cons_iff.mp h with hhead | hlater
          · exact absurd (List.isPrefixOf_iff_prefix.mpr hhead) hp
          · exact hlater
        simpa [occurs, cut?, hp] using ih hrest

/-- A fact about all texts, part by part between the places where a character stands. -/
@[elab_as_elim]
theorem splitInduction (mark : Char) {motive : Text → Prop}
    (whole : ∀ q, mark ∉ q → motive q)
    (part : ∀ q rest, mark ∉ q → motive rest → motive (q ++ mark :: rest)) (s : Text) :
    motive s := by
  by_cases hs : mark ∈ s
  · obtain ⟨q, rest, h, hq⟩ := List.eq_append_cons_of_mem hs
    rw [h]
    exact part q rest hq (splitInduction mark whole part rest)
  · exact whole s hs
termination_by s.length
decreasing_by
  rw [h, List.length_append, List.length_cons]
  omega

/-- What stands in front of the first place of a character is one piece. -/
theorem splitOn_append_cons {c : Char} {q : Text} (hq : c ∉ q) (rest : Text) :
    (q ++ c :: rest).splitOn c = q :: rest.splitOn c := by
  rw [List.splitOn_append_cons_self, List.splitOn_eq_singleton hq, List.singleton_append]

theorem eq_nil_of_prefix_cons {mark rest : Text} {c : Char} (hc : c ∉ mark)
    (h : mark <+: c :: rest) : mark = [] := by
  cases mark with
  | nil => rfl
  | cons d more =>
    obtain ⟨rfl, -⟩ := List.cons_prefix_cons.mp h
    simp at hc

/-- A mark does not reach over a character that it does not hold. -/
theorem infix_append_cons_iff {mark : Text} {c : Char} (hc : c ∉ mark) (q rest : Text) :
    mark <:+: q ++ c :: rest ↔ mark <:+: q ∨ mark <:+: rest := by
  rw [List.infix_append_iff, List.infix_cons_iff]
  constructor
  · rintro (hq | (hhead | hrest) | ⟨front, back, rfl, hfront, hback⟩)
    · exact .inl hq
    · exact .inl (eq_nil_of_prefix_cons hc hhead ▸ List.nil_infix)
    · exact .inr hrest
    · have hback : back = [] := eq_nil_of_prefix_cons (fun h => hc (by simp [h])) hback
      rw [hback, List.append_nil]
      exact .inl hfront.isInfix
  · rintro (hq | hrest)
    · exact .inl hq
    · exact .inr (.inl (.inr hrest))

theorem occurs_iff_exists_splitOn {mark : Text} {c : Char} (hc : c ∉ mark) (s : Text) :
    occurs mark s = true ↔ ∃ part ∈ s.splitOn c, occurs mark part = true := by
  simp only [occurs_iff_isInfix]
  induction s using splitInduction c with
  | whole q hq => simp [List.splitOn_eq_singleton hq]
  | part q rest hq ih =>
    rw [infix_append_cons_iff hc, ih, splitOn_append_cons hq]
    simp

/-! ## The first place -/

theorem cut?_eq_none_iff {mark s : Text} : cut? mark s = none ↔ occurs mark s = false := by
  simp [occurs]

theorem cut?_self_append (mark t : Text) : cut? mark (mark ++ t) = some ([], t) := by
  cases mark with
  | nil => cases t <;> rfl
  | cons c more =>
    have hp : (c :: more).isPrefixOf (c :: (more ++ t)) = true :=
      List.isPrefixOf_iff_prefix.mpr ⟨t, rfl⟩
    simp [cut?, hp]

/-- The first place of a mark stays where it is when more comes behind the text. -/
theorem cut?_append {mark q before after : Text} (h : cut? mark q = some (before, after))
    (t : Text) : cut? mark (q ++ t) = some (before, after ++ t) := by
  induction q generalizing before with
  | nil =>
    by_cases hm : mark = []
    · obtain ⟨rfl, rfl⟩ : before = [] ∧ after = [] := by simpa [cut?, hm, eq_comm] using h
      rw [hm]
      exact cut?_self_append [] t
    · simp [cut?, hm] at h
  | cons c rest ih =>
    by_cases hp : mark <+: c :: rest
    · obtain ⟨more, hmore⟩ := hp
      rw [← hmore, cut?_self_append, Option.some.injEq, Prod.mk.injEq] at h
      obtain ⟨rfl, rfl⟩ := h
      rw [← hmore, List.append_assoc]
      exact cut?_self_append mark (more ++ t)
    · have hhere : mark.isPrefixOf (c :: rest) = false := by
        rw [Bool.eq_false_iff, Ne, List.isPrefixOf_iff_prefix]
        exact hp
      simp only [cut?, hhere] at h
      obtain ⟨⟨b, a⟩, hb, he⟩ := Option.map_eq_some_iff.mp h
      obtain ⟨rfl, rfl⟩ := Prod.mk.inj he
      have hlength : mark.length ≤ (c :: rest).length := by
        have hparts := congrArg List.length (append_of_cut? hb)
        simp only [List.length_append, List.length_cons] at hparts ⊢
        omega
      have hthere : mark.isPrefixOf (c :: (rest ++ t)) = false := by
        rw [Bool.eq_false_iff, Ne, List.isPrefixOf_iff_prefix]
        intro hlong
        exact hp (List.prefix_of_prefix_length_le hlong (List.prefix_append (c :: rest) t) hlength)
      simp [cut?, hthere, ih hb]

/-- No other place of a mark comes before the first. -/
theorem length_le_of_cut? {mark s before after : Text} (h : cut? mark s = some (before, after))
    {x y : Text} (hs : s = x ++ mark ++ y) : before.length ≤ x.length := by
  have hthere : occurs mark (x ++ mark) = true :=
    occurs_iff_isInfix.mpr (List.suffix_append x mark).isInfix
  obtain ⟨⟨b, a⟩, hcut⟩ := Option.isSome_iff_exists.mp hthere
  have hwhole := cut?_append hcut y
  rw [← hs, h, Option.some.injEq, Prod.mk.injEq] at hwhole
  have hlength := congrArg List.length (append_of_cut? hcut)
  simp only [List.length_append] at hlength
  rw [hwhole.1]
  omega

theorem prefix_append_cons_iff {mark : Text} {c : Char} (hc : c ∉ mark) (q rest : Text) :
    mark <+: q ++ c :: rest ↔ mark <+: q := by
  induction mark generalizing q with
  | nil => simp
  | cons m more ih =>
    cases q with
    | nil =>
      have hne : m ≠ c := fun h => hc (by simp [h])
      simp [List.cons_prefix_cons, hne]
    | cons d q =>
      have hmore : c ∉ more := fun h => hc (List.mem_cons_of_mem m h)
      rw [List.cons_append, List.cons_prefix_cons, List.cons_prefix_cons, ih hmore]

/-- A mark that does not stand in the first part is looked for in the others. -/
theorem cut?_append_cons {mark : Text} {c : Char} (hc : c ∉ mark) (hne : mark ≠ []) {q : Text}
    (hq : occurs mark q = false) (rest : Text) :
    cut? mark (q ++ c :: rest) =
      (cut? mark rest).map fun found => (q ++ c :: found.1, found.2) := by
  induction q with
  | nil =>
    have hhere : mark.isPrefixOf (c :: rest) = false := by
      rw [Bool.eq_false_iff, Ne, List.isPrefixOf_iff_prefix]
      exact fun h => hne (eq_nil_of_prefix_cons hc h)
    simp [cut?, hhere]
  | cons d q ih =>
    have hall : ¬ mark <:+: d :: q := by
      rw [← occurs_iff_isInfix, hq]
      exact Bool.false_ne_true
    have hrest : occurs mark q = false := by
      rw [Bool.eq_false_iff, Ne, occurs_iff_isInfix]
      exact fun h => hall (List.infix_cons h)
    have hhere : mark.isPrefixOf (d :: (q ++ c :: rest)) = false := by
      rw [Bool.eq_false_iff, Ne, List.isPrefixOf_iff_prefix, ← List.cons_append,
        prefix_append_cons_iff hc]
      exact fun h => hall h.isInfix
    simp [cut?, hhere, ih hrest, Function.comp_def]

end PluginLint.Text
