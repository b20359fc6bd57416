import PluginLint.Proofs.FileTree.Following
import PluginLint.Proofs.FileTree.Order

/-!
# Walks below a directory

A walk follows no link, so it lists a regular file when all that lies on the way to it is a
directory whose path is short enough to be opened (`mem_filesBelow_iff`, `opens_iff`). Names that
meet no link lead from a path to the location that they spell (`locate_foldl_join`): the files of a
walk lie where their paths say, and no two paths lead to one file (`eq_of_locate_filesBelow`).
-/
namespace PluginLint

/-! ## Names in a row -/

namespace Path

theorem label_foldl_join (p : Path) {names : List Text} (h : ∀ name ∈ names, IsName name) :
    label p (names.foldl join p) = List.intercalate ['/'] names := by
  rw [label_of_parts (parts_foldl_join p h), List.map_map]
  exact congrArg _ (List.map_id names)

/-- The names below a path are known from the label. -/
theorem eq_of_label_foldl_join (p : Path) {names names' : List Text}
    (h : ∀ name ∈ names, IsName name) (h' : ∀ name ∈ names', IsName name) (hne : names ≠ [])
    (hne' : names' ≠ []) (hlabel : label p (names.foldl join p) = label p (names'.foldl join p)) :
    names = names' := by
  rw [label_foldl_join p h, label_foldl_join p h'] at hlabel
  rw [← List.splitOn_intercalate '/' (fun name hname => (h name hname).2.1) hne, hlabel,
    List.splitOn_intercalate '/' (fun name hname => (h' name hname).2.1) hne']

theorem text_join_ne_nil (p : Path) {name : Text} (h : name ≠ []) : (p.join name).text ≠ [] := by
  unfold join
  split
  · exact h
  · split
    · exact List.append_ne_nil_of_right_ne_nil _ h
    · simp

theorem text_foldl_join_ne_nil {p : Path} (hp : p.text ≠ []) {names : List Text}
    (h : ∀ name ∈ names, IsName name) : (names.foldl join p).text ≠ [] := by
  induction names generalizing p with
  | nil => exact hp
  | cons name rest ih =>
    obtain ⟨hname, hrest⟩ := List.forall_mem_cons.mp h
    exact ih (text_join_ne_nil p hname.1) hrest

/-- A path gets longer with every name. -/
theorem byteCount_le_foldl_join (p : Path) {names : List Text} (h : ∀ name ∈ names, IsName name) :
    Text.byteCount p.text ≤ Text.byteCount (names.foldl join p).text := by
  induction names generalizing p with
  | nil => exact le_rfl
  | cons name rest ih =>
    obtain ⟨hname, hrest⟩ := List.forall_mem_cons.mp h
    exact (p.byteCount_le_join hname.head?_ne_slash).trans (ih (p.join name) hrest)

end Path

namespace FileTree

variable {t : FileTree}

/-! ## Where names lead -/

/-- A name that is no link leads to what lies under it. -/
theorem locate_join {p : Path} {name : Text} {place location : Location} (hname : Path.IsName name)
    (hlink : ¬ t.IsLink (place ++ [name])) (hp : t.locate p = .ok place)
    (h : t.locate (p.join name) = .ok location) : location = place ++ [name] := by
  obtain ⟨reached, left, hreached, hfollow⟩ :=
    exists_follow_of_locate_join (text_ne_nil_of_locate hp) hname.2.1 h
  obtain rfl := Except.ok.inj (hp.symm.trans hreached)
  have hdirectory := node?_of_follow_singleton hfollow
  have hhere : ¬ (name = [] ∨ name = ['.']) := fun hor => hor.elim hname.1 hname.2.2.1
  unfold follow descend at hfollow
  rw [if_pos hdirectory, if_neg hhere, if_neg hname.2.2.2] at hfollow
  cases hnode : t.node? (place ++ [name]) with
  | none =>
    rw [hnode] at hfollow
    cases hfollow
  | some node =>
    rw [hnode] at hfollow
    cases node with
    | link target => exact absurd ⟨target, hnode⟩ hlink
    | file content => exact (Except.ok.inj hfollow).symm
    | directory => exact (Except.ok.inj hfollow).symm

/-- Names that meet no link lead to the location that they spell. -/
theorem locate_foldl_join {p : Path} {names : List Text} {place location : Location}
    (hnames : ∀ name ∈ names, Path.IsName name)
    (hlinks : ∀ front, front <+: names → front ≠ [] → ¬ t.IsLink (place ++ front))
    (hp : t.locate p = .ok place) (h : t.locate (names.foldl Path.join p) = .ok location) :
    location = place ++ names := by
  induction names using List.reverseRecOn generalizing location with
  | nil => simpa using Except.ok.inj (h.symm.trans hp)
  | append_singleton init last ih =>
    have hlast : Path.IsName last := hnames last (by simp)
    have hinit : ∀ name ∈ init, Path.IsName name := fun name hname => hnames name (by simp [hname])
    rw [List.foldl_append, List.foldl_cons, List.foldl_nil] at h
    have htext : (init.foldl Path.join p).text ≠ [] :=
      Path.text_foldl_join_ne_nil (text_ne_nil_of_locate hp) hinit
    obtain ⟨reached, -, hreached, -⟩ := exists_follow_of_locate_join htext hlast.2.1 h
    obtain rfl := ih hinit
      (fun front hpre => hlinks front (hpre.trans (List.prefix_append init [last]))) hreached
    have hlink : ¬ t.IsLink (place ++ init ++ [last]) := by
      rw [List.append_assoc]
      exact hlinks _ List.prefix_rfl (by simp)
    rw [locate_join hlast hlink hreached h, List.append_assoc]

/-! ## What a walk lists -/

/-- A regular file below a directory with only directories on the way. -/
structure LiesBelow (t : FileTree) (place relative : Location) : Prop where
  below : relative ≠ []
  between : ∀ front, front <+: relative → front ≠ relative →
    t.node? (place ++ front) = some .directory
  file : t.holdsFile (place ++ relative) = true

theorem reaches_iff {place relative : Location} (hplace : t.node? place = some .directory) :
    t.reaches place relative = true ↔ relative ≠ [] ∧
      (∀ front, front <+: relative → front ≠ relative →
        t.node? (place ++ front) = some .directory) ∧
      (t.node? (place ++ relative)).isSome = true := by
  induction relative generalizing place with
  | nil => simp [reaches]
  | cons name rest ih =>
    cases rest with
    | nil =>
      simp only [reaches, ne_eq, reduceCtorEq, not_false_eq_true, true_and]
      refine (and_iff_right ?_).symm
      intro front hpre hne
      rcases List.prefix_cons_iff.mp hpre with rfl | ⟨more, rfl, hmore⟩
      · simpa using hplace
      · exact absurd (by rw [List.prefix_nil.mp hmore]) hne
    | cons second more =>
      have hreaches : t.reaches place (name :: second :: more) =
          (t.node? (place ++ [name]) == some .directory &&
            t.reaches (place ++ [name]) (second :: more)) := rfl
      rw [hreaches, Bool.and_eq_true, beq_iff_eq]
      constructor
      · rintro ⟨hname, hrest⟩
        obtain ⟨-, hbetween, hlast⟩ := (ih hname).mp hrest
        refine ⟨by simp, ?_, by simpa using hlast⟩
        intro front hpre hne
        rcases List.prefix_cons_iff.mp hpre with rfl | ⟨inner, rfl, hinner⟩
        · simpa using hplace
        · simpa using hbetween inner hinner (fun heq => hne (by rw [heq]))
      · rintro ⟨-, hbetween, hlast⟩
        have hname : t.node? (place ++ [name]) = some .directory :=
          hbetween [name] (by simp)
            (fun heq => List.cons_ne_nil second more (List.cons.inj heq).2.symm)
        refine ⟨hname, (ih hname).mpr ⟨by simp, ?_, by simpa using hlast⟩⟩
        intro inner hinner hne
        have hfront := hbetween (name :: inner) (List.cons_prefix_cons.mpr ⟨rfl, hinner⟩)
          (fun heq => hne (List.cons.inj heq).2)
        simpa using hfront

theorem isSome_of_holdsFile {place : Location} (h : t.holdsFile place = true) :
    (t.node? place).isSome = true := by
  obtain ⟨content, hnode⟩ := holdsFile_iff.mp h
  rw [hnode]
  rfl

theorem mem_below_iff {place relative : Location} (hplace : t.node? place = some .directory) :
    relative ∈ t.below place ↔ t.reaches place relative = true := by
  rw [below, List.mem_mergeSort, List.mem_eraseDups, List.mem_filter, List.mem_filterMap]
  constructor
  · exact fun h => h.2
  · intro h
    refine ⟨?_, h⟩
    obtain ⟨hne, -, hsome⟩ := (reaches_iff hplace).mp h
    rw [node?, if_neg (by simp [hne]), List.lookup_isSome_iff] at hsome
    obtain ⟨entry, hentry, heq⟩ := hsome
    have hpre : place.isPrefixOf entry.1 = true := by
      rw [← eq_of_beq heq]
      exact List.isPrefixOf_iff_prefix.mpr (List.prefix_append _ _)
    exact ⟨entry, hentry, by rw [if_pos hpre, ← eq_of_beq heq, List.drop_left]⟩

/-- Where a walk opens the last directory on the way to something, it has opened those before it. -/
theorem opens_iff {directory : Path} {relative : Location} (hne : relative ≠ [])
    (hnames : ∀ name ∈ relative, Path.IsName name) :
    opens directory relative = true ↔ ∀ front, front <+: relative → front ≠ relative →
      Text.byteCount (front.foldl Path.join directory).text < pathLimit := by
  rw [opens, decide_eq_true_eq]
  constructor
  · rintro hlast front ⟨rest, rfl⟩ hproper
    have hrest : rest ≠ [] := by
      rintro rfl
      exact hproper (List.append_nil front).symm
    rw [List.dropLast_append_of_ne_nil hrest, List.foldl_append] at hlast
    refine Nat.lt_of_le_of_lt (Path.byteCount_le_foldl_join _ fun name hname => ?_) hlast
    exact hnames name (List.mem_append_right front ((List.dropLast_subset rest) hname))
  · intro hall
    refine hall relative.dropLast (List.dropLast_prefix relative) fun heq => ?_
    have hlength := congrArg List.length heq
    have hpos := List.length_pos_iff.mpr hne
    rw [List.length_dropLast] at hlength
    omega

/-- A walk lists the regular files that it comes to through directories alone, those that it opens. -/
theorem mem_filesBelow_iff {directory p : Path} :
    p ∈ t.filesBelow directory ↔ ∃ place relative, t.locate directory = .ok place ∧
      t.LiesBelow place relative ∧ opens directory relative = true ∧
      p = relative.foldl Path.join directory := by
  unfold filesBelow
  cases hlocate : t.locate directory with
  | error fault => simp
  | ok place =>
    by_cases hplace : t.node? place = some .directory
    · simp only [if_pos hplace, List.mem_map, List.mem_filter, mem_below_iff hplace,
        reaches_iff hplace, Bool.and_eq_true]
      constructor
      · rintro ⟨relative, ⟨⟨hne, hbetween, -⟩, hopens, hfile⟩, rfl⟩
        exact ⟨place, relative, rfl, ⟨hne, hbetween, hfile⟩, hopens, rfl⟩
      · rintro ⟨_, relative, hplace', hbelow, hopens, rfl⟩
        obtain rfl := Except.ok.inj hplace'
        exact ⟨relative, ⟨⟨hbelow.below, hbelow.between, isSome_of_holdsFile hbelow.file⟩, hopens,
          hbelow.file⟩, rfl⟩
    · simp only [if_neg hplace, List.not_mem_nil, false_iff]
      rintro ⟨_, relative, hplace', hbelow, -⟩
      obtain rfl := Except.ok.inj hplace'
      have hroot := hbelow.between [] List.nil_prefix (Ne.symm hbelow.below)
      rw [List.append_nil] at hroot
      exact hplace hroot

theorem WellNamed.isName_of_isSome (h : t.WellNamed) {place : Location}
    (hplace : (t.node? place).isSome = true) : ∀ name ∈ place, Path.IsName name := by
  unfold node? at hplace
  split at hplace
  · next hnil => simp [hnil]
  · obtain ⟨entry, hentry, heq⟩ := List.lookup_isSome_iff.mp hplace
    rw [eq_of_beq heq]
    exact h entry hentry

/-- The names on the way to a file of a walk. -/
theorem LiesBelow.isName {place relative : Location} (h : t.LiesBelow place relative)
    (hnames : t.WellNamed) : ∀ name ∈ relative, Path.IsName name :=
  fun name hname => hnames.isName_of_isSome (isSome_of_holdsFile h.file) name (by simp [hname])

theorem LiesBelow.not_isLink {place relative front : Location} (h : t.LiesBelow place relative)
    (hfront : front <+: relative) : ¬ t.IsLink (place ++ front) := by
  rintro ⟨target, hlink⟩
  by_cases heq : front = relative
  · obtain ⟨content, hfile⟩ := holdsFile_iff.mp h.file
    rw [heq, hfile] at hlink
    cases hlink
  · rw [h.between front hfront heq] at hlink
    cases hlink

/-- A file of a walk lies where its path says, if the path leads anywhere. -/
theorem LiesBelow.eq_of_locate {place relative location : Location} {directory : Path}
    (h : t.LiesBelow place relative) (hnames : t.WellNamed)
    (hplace : t.locate directory = .ok place)
    (hlocate : t.locate (relative.foldl Path.join directory) = .ok location) :
    location = place ++ relative :=
  locate_foldl_join (h.isName hnames) (fun _ hfront _ => h.not_isLink hfront) hplace hlocate

/-- No two paths of a walk lead to one location. -/
theorem eq_of_locate_filesBelow (hnames : t.WellNamed) {directory p q : Path} {location : Location}
    (hp : p ∈ t.filesBelow directory) (hq : q ∈ t.filesBelow directory)
    (hlocate : t.locate p = .ok location) (hlocate' : t.locate q = .ok location) : p = q := by
  obtain ⟨place, relative, hplace, hbelow, -, rfl⟩ := mem_filesBelow_iff.mp hp
  obtain ⟨place', relative', hplace', hbelow', -, rfl⟩ := mem_filesBelow_iff.mp hq
  obtain rfl := Except.ok.inj (hplace.symm.trans hplace')
  have hlocation := hbelow.eq_of_locate hnames hplace hlocate
  have hlocation' := hbelow'.eq_of_locate hnames hplace hlocate'
  rw [List.append_cancel_left (hlocation.symm.trans hlocation')]

end FileTree
end PluginLint
