import PluginLint.Proofs.FileTree.Walks

/-!
# Spellings of a path

A path can be written in many ways: with slashes in a row or at its end, with dots between them,
with a dot in front or without. Such spellings agree in the segments that count (`SpelledAlike`),
and so they stay when a name is joined to them. Segments that do not count are passed over on the way
(`follow_filter`), so a name joined to either spelling leads to the same location as long as both
paths are short enough (`locate_join_of_alike`), and both directories list the same children
(`IsFileIn.of_alike`, `IsSubdirectory.of_alike`).
-/
namespace PluginLint

namespace Path

/-- The segments of a path that stand for a part of their own. -/
def counted (p : Path) : List Text := p.segments.filter (Counts ·)

/-- Two spellings of one path: the same segments that count, behind a slash or not. -/
structure SpelledAlike (p q : Path) : Prop where
  absolute : p.isAbsolute = q.isAbsolute
  counted : p.counted = q.counted

/-- The segments in front of a joined name count as they did. -/
theorem exists_counted_join (p : Path) {name : Text} (h : IsName name) : ∃ before,
    (p.join name).segments = before ++ [name] ∧ before.filter (Counts ·) = p.counted := by
  obtain ⟨before, hjoin, hbefore⟩ := p.segments_join h.2.1
  refine ⟨before, hjoin, ?_⟩
  rcases hbefore with rfl | hlast
  · rfl
  · have hempty : [([] : Text)].filter (Counts ·) = [] := by decide
    rw [counted, ← hlast, List.filter_append, hempty, List.append_nil]

theorem counted_join (p : Path) {name : Text} (h : IsName name) :
    (p.join name).counted = p.counted ++ [name] := by
  obtain ⟨before, hjoin, hbefore⟩ := p.exists_counted_join h
  rw [counted, hjoin, List.filter_append, hbefore,
    List.filter_cons_of_pos (by simpa using h.counts), List.filter_nil]

theorem SpelledAlike.join {p q : Path} (h : SpelledAlike p q) {name : Text} (hname : IsName name) :
    SpelledAlike (p.join name) (q.join name) where
  absolute := by
    rw [p.isAbsolute_join hname.head?_ne_slash, q.isAbsolute_join hname.head?_ne_slash, h.absolute]
  counted := by rw [p.counted_join hname, q.counted_join hname, h.counted]

end Path

namespace FileTree

variable {t : FileTree} {p q : Path} {name child : Text}

/-- Segments that stand for no part are passed over on the way to others. -/
theorem follow_filter (links : Nat) (place : Location) (first segments : List Text)
    {rest : List Text} (hrest : rest ≠ []) :
    t.follow links place (first ++ (segments ++ rest)) =
      t.follow links place (first ++ (segments.filter (Path.Counts ·) ++ rest)) := by
  induction segments generalizing first with
  | nil => rfl
  | cons segment more ih =>
    by_cases hcounts : Path.Counts segment
    · rw [List.filter_cons_of_pos (by simpa using hcounts), List.cons_append, List.cons_append,
        List.append_cons, ih, ← List.append_cons]
    · rw [List.filter_cons_of_neg (by simpa using hcounts), List.cons_append,
        follow_idle hcounts _ _ _ (List.append_ne_nil_of_right_ne_nil _ hrest), ih]

/-- Where a name joined to a path leads depends on the segments of the path that count. -/
theorem locate_join_eq (hname : Path.IsName name)
    (hshort : Text.byteCount (p.join name).text < pathLimit) :
    t.locate (p.join name) = t.follow linkLimit (start p t.base) (p.counted ++ [name]) := by
  obtain ⟨before, hjoin, hbefore⟩ := p.exists_counted_join hname
  have hstart : start (p.join name) t.base = start p t.base := by
    rw [start, start, p.isAbsolute_join hname.head?_ne_slash]
  have hfilter := t.follow_filter linkLimit (start p t.base) [] before (List.cons_ne_nil name [])
  rw [locate, if_neg (Path.text_join_ne_nil p hname.1), if_neg (Nat.not_le.mpr hshort), hstart,
    hjoin, ← hbefore]
  exact hfilter

/-- A name joined to two spellings of a path leads to one place while both are short enough. -/
theorem locate_join_of_alike (halike : p.SpelledAlike q) (hname : Path.IsName name)
    (hp : Text.byteCount (p.join name).text < pathLimit)
    (hq : Text.byteCount (q.join name).text < pathLimit) :
    t.locate (p.join name) = t.locate (q.join name) := by
  have hstart : start p t.base = start q t.base := by rw [start, start, halike.absolute]
  rw [locate_join_eq hname hp, locate_join_eq hname hq, hstart, halike.counted]

/-- The same for a name in a directory and the directory itself. -/
theorem locate_join_join_of_alike (halike : p.SpelledAlike q) (hname : Path.IsName name)
    (hchild : Path.IsName child) (hp : Text.byteCount ((p.join name).join child).text < pathLimit)
    (hq : Text.byteCount ((q.join name).join child).text < pathLimit) :
    t.locate (p.join name) = t.locate (q.join name) ∧
      t.locate ((p.join name).join child) = t.locate ((q.join name).join child) := by
  have hhead := hchild.head?_ne_slash
  exact ⟨locate_join_of_alike halike hname
    (Nat.lt_of_le_of_lt ((p.join name).byteCount_le_join hhead) hp)
    (Nat.lt_of_le_of_lt ((q.join name).byteCount_le_join hhead) hq),
    locate_join_of_alike (halike.join hname) hchild hp hq⟩

/-! ## Children -/

variable {place location : Location}

theorem IsFileIn.of_alike (h : t.IsFileIn (p.join name) child place location)
    (halike : p.SpelledAlike q) (hname : Path.IsName name) (hchild : Path.IsName child)
    (hp : Text.byteCount ((p.join name).join child).text < pathLimit)
    (hq : Text.byteCount ((q.join name).join child).text < pathLimit) :
    t.IsFileIn (q.join name) child place location := by
  obtain ⟨hdirectory, hplace⟩ := t.locate_join_join_of_alike halike hname hchild hp hq
  exact ⟨hdirectory ▸ h.located, h.listed, hplace ▸ h.followed⟩

theorem IsSubdirectory.of_alike (h : t.IsSubdirectory (p.join name) child place location)
    (halike : p.SpelledAlike q) (hname : Path.IsName name) (hchild : Path.IsName child)
    (hp : Text.byteCount ((p.join name).join child).text < pathLimit)
    (hq : Text.byteCount ((q.join name).join child).text < pathLimit) :
    t.IsSubdirectory (q.join name) child place location := by
  obtain ⟨hdirectory, hplace⟩ := t.locate_join_join_of_alike halike hname hchild hp hq
  exact ⟨hdirectory ▸ h.located, h.listed, hplace ▸ h.followed⟩

end FileTree
end PluginLint
