import Mathlib.Data.List.DropRight
import PluginLint.FileTree.Path

/-!
# Laws of paths

A name joined to a path is the last segment of the result (`segments_join`) and its last part
(`parts_join`), however the path is written. A path whose last segment is a name has a parent
(`parent?_isSome`), which is written as the path to which that name was joined when this one ends in
a name as well (`parent?_join`).
-/
namespace PluginLint.Path

/-- A segment that stands for a part of its own: no empty segment and no dot. -/
def Counts (segment : Text) : Prop := segment ≠ [] ∧ segment ≠ ['.']

instance : DecidablePred Counts := fun segment =>
  inferInstanceAs (Decidable (segment ≠ [] ∧ segment ≠ ['.']))

/-- Whether a text can name something in a directory. -/
def IsName (name : Text) : Prop :=
  name ≠ [] ∧ '/' ∉ name ∧ name ≠ ['.'] ∧ name ≠ ['.', '.']

instance (name : Text) : Decidable (IsName name) := by
  unfold IsName
  infer_instance

theorem isText_join (p : Path) {child : Text} (hhead : child.head? ≠ some '/') :
    (p.join child).isText = (p.isText && child.all (· ≠ '\x00')) := by
  unfold join isText
  rw [if_neg hhead]
  split <;> simp [List.all_append]

theorem IsName.head?_ne_slash {name : Text} (h : IsName name) : name.head? ≠ some '/' :=
  fun hc => h.2.1 (List.mem_of_mem_head? hc)

theorem IsName.counts {name : Text} (h : IsName name) : Counts name := ⟨h.1, h.2.2.1⟩

theorem IsName.ofSegment? {name : Text} (h : IsName name) :
    Part.ofSegment? name = some (.name name) := by
  simp [Part.ofSegment?, h.1, h.2.2.1, h.2.2.2]

/-! ## Joining -/

/-- What is joined to a path is written behind it and, where one is missing, a slash. -/
theorem exists_text_join (p : Path) : ∃ slash,
    ∀ child, child.head? ≠ some '/' → (p.join child).text = p.text ++ (slash ++ child) := by
  unfold join
  by_cases hslash : p.text = [] ∨ p.text.getLast? = some '/'
  · exact ⟨[], fun child hchild => by rw [if_neg hchild, if_pos hslash]; rfl⟩
  · exact ⟨['/'], fun child hchild => by rw [if_neg hchild, if_neg hslash]; rfl⟩

/-- What is joined to a path comes behind its segments, or in the place of the empty one behind its
last slash. -/
theorem exists_segments_join (p : Path) : ∃ before,
    (before = p.segments ∨ before ++ [[]] = p.segments) ∧
      ∀ child, child.head? ≠ some '/' → (p.join child).segments = before ++ child.splitOn '/' := by
  unfold join segments
  by_cases hslash : p.text = [] ∨ p.text.getLast? = some '/'
  · rcases hslash with hnil | hlast
    · refine ⟨[], .inr (by simp [hnil]), fun child hchild => ?_⟩
      rw [if_neg hchild, if_pos (.inl hnil), hnil]
      rfl
    · obtain ⟨front, hfront⟩ := List.getLast?_eq_some_iff.mp hlast
      refine ⟨front.splitOn '/', .inr ?_, fun child hchild => ?_⟩
      · rw [hfront, List.splitOn_append_cons_self]
        rfl
      · rw [if_neg hchild, if_pos (.inr hlast), hfront, List.append_assoc, List.singleton_append,
          List.splitOn_append_cons_self]
  · refine ⟨p.text.splitOn '/', .inl rfl, fun child hchild => ?_⟩
    rw [if_neg hchild, if_neg hslash, List.splitOn_append_cons_self]

/-- A joined name is the last segment. -/
theorem segments_join (p : Path) {name : Text} (hslash : '/' ∉ name) :
    ∃ before, (p.join name).segments = before ++ [name] ∧
      (before = p.segments ∨ before ++ [[]] = p.segments) := by
  have hhead : name.head? ≠ some '/' := fun h => hslash (List.mem_of_mem_head? h)
  obtain ⟨before, hbefore, hjoin⟩ := exists_segments_join p
  exact ⟨before, by rw [hjoin name hhead, List.splitOn_eq_singleton hslash], hbefore⟩

theorem segments_ne_nil (p : Path) : p.segments ≠ [] := List.splitOn_ne_nil '/' p.text

theorem isAbsolute_join (p : Path) {child : Text} (hhead : child.head? ≠ some '/') :
    (p.join child).isAbsolute = p.isAbsolute := by
  unfold join isAbsolute
  rw [if_neg hhead]
  cases htext : p.text with
  | nil => simpa using hhead
  | cons c rest => split <;> rfl

theorem front_join (p : Path) {name : Text} (h : IsName name) :
    (p.join name).front = p.front := by
  obtain ⟨before, hjoin, hbefore⟩ := segments_join p h.2.1
  have hdot : (p.join name).segments.head? = some ['.'] ↔ p.segments.head? = some ['.'] := by
    rw [hjoin]
    rcases hbefore with rfl | hlast
    · rw [List.head?_append_of_ne_nil _ (segments_ne_nil p)]
    · rw [← hlast]
      cases before with
      | nil => simp [h.2.2.1]
      | cons first more => simp
  unfold front
  rw [isAbsolute_join p h.head?_ne_slash]
  simp only [hdot]

theorem parts_join (p : Path) {name : Text} (h : IsName name) :
    (p.join name).parts = p.parts ++ [.name name] := by
  obtain ⟨before, hjoin, hbefore⟩ := segments_join p h.2.1
  have hsame : before.filterMap Part.ofSegment? = p.segments.filterMap Part.ofSegment? := by
    rcases hbefore with rfl | hlast
    · rfl
    · rw [← hlast, List.filterMap_append]
      exact (List.append_nil _).symm
  rw [parts, parts, front_join p h, hjoin, List.filterMap_append, hsame, List.append_assoc]
  simp [h.ofSegment?]

theorem parts_foldl_join (p : Path) {names : List Text} (h : ∀ name ∈ names, IsName name) :
    (names.foldl join p).parts = p.parts ++ names.map .name := by
  induction names generalizing p with
  | nil => exact (List.append_nil _).symm
  | cons name rest ih =>
    obtain ⟨hname, hrest⟩ := List.forall_mem_cons.mp h
    rw [List.foldl_cons, ih _ hrest, parts_join p hname, List.append_assoc]
    rfl

theorem fileName?_join (p : Path) {name : Text} (h : IsName name) :
    (p.join name).fileName? = some name := by
  simp [fileName?, parts_join p h]

/-- Below a root a label is what comes behind the root. -/
theorem label_of_parts {root p : Path} {below : List Part} (h : p.parts = root.parts ++ below) :
    label root p = List.intercalate ['/'] (below.map Part.text) := by
  have hprefix : root.parts.isPrefixOf p.parts = true :=
    List.isPrefixOf_iff_prefix.mpr ⟨below, h.symm⟩
  rw [label, if_pos hprefix, h, List.drop_left]

/-! ## File names -/

/-- A file name with an extension is split at its last dot, with something in front of it. -/
theorem eq_of_nameExtension? {name extension : Text} (h : nameExtension? name = some extension) :
    name = nameStem name ++ '.' :: extension ∧ nameStem name ≠ [] ∧ '.' ∉ extension := by
  have hparts := List.takeWhile_append_dropWhile (p := (· ≠ '.')) (l := name.reverse)
  have hstop := List.head?_dropWhile_not (· ≠ '.') name.reverse
  unfold nameExtension? splitName at h
  unfold nameStem splitName
  cases hdrop : name.reverse.dropWhile (· ≠ '.') with
  | nil =>
    rw [hdrop] at h
    cases h
  | cons c before =>
    rw [hdrop] at h hparts hstop
    obtain rfl : c = '.' := by simpa using hstop
    dsimp only at h ⊢
    split at h
    · cases h
    · next hbefore =>
      obtain rfl := Option.some.inj h
      rw [if_neg hbefore]
      refine ⟨?_, by simpa using hbefore, fun hmem => ?_⟩
      · simpa using (congrArg List.reverse hparts).symm
      · simpa using List.mem_takeWhile_imp (List.mem_reverse.mp hmem)

/-! ## Parents -/

/-- A marker at the front of a path takes its first segment, which stands for no part. -/
theorem head_segments_of_front {p : Path} {marker : Part} (h : p.front = some marker) :
    marker = .root ∧ p.segments.head? = some [] ∨
      marker = .here ∧ p.segments.head? = some ['.'] := by
  unfold front at h
  split at h
  · next habs =>
    left
    obtain ⟨rest, hrest⟩ := List.head?_eq_some_iff.mp (beq_iff_eq.mp habs)
    rw [segments, hrest]
    exact ⟨(Option.some.inj h).symm, congrArg List.head? (List.splitOn_append_cons_self [] rest)⟩
  · split at h
    · next hhere => exact .inr ⟨(Option.some.inj h).symm, hhere⟩
    · cases h

/-- Before a last segment that counts the marker has a segment of its own. -/
theorem exists_marked_segments {p : Path} {marker : Part} {before : List Text} {last : Text}
    (hfront : p.front = some marker) (hp : p.segments = before ++ [last]) (h : Counts last) :
    ∃ more, marker = .root ∧ before = [] :: more ∨ marker = .here ∧ before = ['.'] :: more := by
  have hhead := head_segments_of_front hfront
  rw [hp] at hhead
  cases before with
  | nil => simp [h.1, h.2] at hhead
  | cons first more => exact ⟨more, by simpa using hhead⟩

theorem trimSegments_concat (before : List Text) {last : Text} (h : Counts last) :
    trimSegments (before ++ [last]) = before ++ [last] := by
  apply List.rdropWhile_concat_neg
  simpa [Counts] using h

theorem parent?_isSome {p : Path} {before : List Text} {last : Text}
    (hp : p.segments = before ++ [last]) (h : Counts last) : p.parent?.isSome = true := by
  have htrim : trimSegments (if p.front = none then p.segments else p.segments.tail) ≠ [] := by
    split
    · rw [hp, trimSegments_concat before h]
      simp
    · next hfront =>
      obtain ⟨marker, hmarker⟩ := Option.ne_none_iff_exists'.mp hfront
      obtain ⟨more, hmarked⟩ := exists_marked_segments hmarker hp h
      rcases hmarked with ⟨-, rfl⟩ | ⟨-, rfl⟩ <;>
        simp [hp, trimSegments_concat more h]
  unfold parent?
  simp only
  split
  · next hnil => exact absurd hnil htrim
  · next hnil _ => exact absurd hnil htrim
  · split <;> rfl

/-- Behind a path that ends in a name comes a slash. -/
theorem join_text_of_name {p : Path} {before : List Text} {last child : Text}
    (hp : p.segments = before ++ [last]) (hlast : last ≠ []) (hchild : '/' ∉ child) :
    (p.join child).text = p.text ++ '/' :: child := by
  have hhead : child.head? ≠ some '/' := fun h => hchild (List.mem_of_mem_head? h)
  have hend : ¬ (p.text = [] ∨ p.text.getLast? = some '/') := by
    rintro (hnil | hslash)
    · rw [segments, hnil] at hp
      have hempty : last = [] := by simpa using (congrArg List.getLast? hp).symm
      exact hlast hempty
    · obtain ⟨front, hfront⟩ := List.getLast?_eq_some_iff.mp hslash
      rw [segments, hfront, List.splitOn_append_cons_self] at hp
      have hempty : last = [] := by simpa using (congrArg List.getLast? hp).symm
      exact hlast hempty
  rw [join, if_neg hhead, if_neg hend]

/-- The parent of a path with a part that can be taken away. -/
theorem parent?_of_trimmed {p : Path} {kept : List Text} {last : Text}
    (h : trimSegments (if p.front = none then p.segments else p.segments.tail) = kept ++ [last]) :
    p.parent? = some (match p.front with
      | some .root => ⟨'/' :: List.intercalate ['/'] (trimSegments kept)⟩
      | some _ => ⟨List.intercalate ['/'] (['.'] :: trimSegments kept)⟩
      | none => ⟨List.intercalate ['/'] (trimSegments kept)⟩) := by
  have hdrop : (kept ++ [last]).dropLast = kept := List.dropLast_concat
  have hne : kept ++ [last] ≠ [] := by simp
  unfold parent?
  rw [h]
  generalize kept ++ [last] = trimmed at hdrop hne
  cases trimmed with
  | nil => exact absurd rfl hne
  | cons first more =>
    cases p.front with
    | none => simp only [hdrop]
    | some marker => cases marker <;> simp only [hdrop]

theorem parent?_join (q : Path) {name child : Text} (hname : IsName name) (hchild : IsName child) :
    ((q.join name).join child).parent? = some (q.join name) := by
  obtain ⟨before, hp, -⟩ := segments_join q hname.2.1
  generalize q.join name = p at hp ⊢
  have htext := join_text_of_name hp hname.1 hchild.2.1
  have hsegments : (p.join child).segments = p.segments ++ [child] := by
    rw [segments, htext, List.splitOn_append_cons_self, List.splitOn_eq_singleton hchild.2.1]
    rfl
  have hglue : List.intercalate ['/'] p.segments = p.text := List.intercalate_splitOn '/'
  have hfrontJoin := front_join p hchild
  have hkeep : ∀ front, trimSegments (front ++ [child]) = front ++ [child] :=
    fun front => trimSegments_concat front hchild.counts
  cases hfront : p.front with
  | none =>
    rw [parent?_of_trimmed (by rw [hfrontJoin, hfront, if_pos rfl, hsegments, hkeep]), hfrontJoin,
      hfront, hp, trimSegments_concat before hname.counts, ← hp, hglue]
  | some marker =>
    obtain ⟨more, hmarked⟩ := exists_marked_segments hfront hp hname.counts
    have hrest : ∀ first : Text, List.intercalate ['/'] (first :: (more ++ [name])) =
        first ++ '/' :: List.intercalate ['/'] (more ++ [name]) := by
      intro first
      rw [List.intercalate_cons_of_ne_nil (by simp), List.append_assoc]
      rfl
    have htrimmed : ∀ first, before = first :: more →
        trimSegments (if (p.join child).front = none then (p.join child).segments
          else (p.join child).segments.tail) = more ++ [name] ++ [child] := by
      rintro first rfl
      rw [hfrontJoin, hfront, if_neg (by simp), hsegments, hp, List.cons_append, List.cons_append,
        List.tail_cons, hkeep]
    rcases hmarked with ⟨rfl, rfl⟩ | ⟨rfl, rfl⟩
    · rw [hp, List.cons_append, hrest] at hglue
      rw [parent?_of_trimmed (htrimmed [] rfl), hfrontJoin, hfront,
        trimSegments_concat more hname.counts]
      exact congrArg (fun text => some (Path.mk text)) hglue
    · rw [hp, List.cons_append] at hglue
      rw [parent?_of_trimmed (htrimmed ['.'] rfl), hfrontJoin, hfront,
        trimSegments_concat more hname.counts]
      exact congrArg (fun text => some (Path.mk text)) hglue

end PluginLint.Path
