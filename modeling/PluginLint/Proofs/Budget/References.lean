import PluginLint.Budget.Skill
import PluginLint.Proofs.FileTree.Order

/-!
# The files of a skill that cannot be read

Of the references and scripts of a skill the budget keeps two things apart: the units of those that
can be read, and a list of those that cannot. A reference is listed once, however many paths lead to
it, and what else leads to it cannot be read either (`readText_eq_of_target`), so the files that can
be read take no file off the list (`unreadableFiles_distinctTargets`). The list is known from the
files that cannot be read, in whatever company they are (`unreadable_analyze_congr`).
-/
namespace PluginLint.SkillBudget

/-- The reference documents below `references/`. -/
def nestedReferences (t : FileTree) (directory : Path) : List Path :=
  (t.filesBelow (directory.join "references".toList)).filter (hasExtension ["md"])

/-- The reference documents beside the entry document. -/
def siblingReferences (t : FileTree) (directory : Path) : List Path :=
  (((t.entries directory).filter fun entry =>
    entry.isFile t && entry.name != skillEntry.toList).map (·.path)).filter (hasExtension ["md"])

/-- A file that cannot be read: its path, what this stands for, and why. -/
structure UnreadableFile where
  path : Path
  target : Target
  fault : Fault
  deriving DecidableEq, Repr

def unreadable? (t : FileTree) (p : Path) : Option UnreadableFile :=
  match t.readText p with
  | .ok _ => none
  | .error fault => some ⟨p, target t p, fault⟩

/-- The files at some paths that cannot be read. -/
def unreadableFiles (t : FileTree) (files : List Path) : List UnreadableFile :=
  files.filterMap (unreadable? t)

/-- Files that stand for something no earlier file stands for, `seen` among those. -/
def distinctFiles (seen : List Target) : List UnreadableFile → List UnreadableFile
  | [] => []
  | file :: rest =>
    if file.target ∈ seen then distinctFiles seen rest
    else file :: distinctFiles (file.target :: seen) rest

/-! ## Paths to one file -/

variable {t : FileTree}

theorem referenceFiles_eq (directory : Path) : referenceFiles t directory =
    distinctTargets t [] (nestedReferences t directory ++ siblingReferences t directory) := by
  rw [referenceFiles, List.filter_append]
  rfl

/-- Paths that stand for the same are read alike. -/
theorem readText_eq_of_target {p q : Path} (h : target t p = target t q) :
    t.readText p = t.readText q := by
  unfold target at h
  unfold FileTree.readText
  cases hp : t.locate p with
  | error fault =>
    rw [hp] at h
    cases hq : t.locate q with
    | error other =>
      rw [hq] at h
      obtain rfl := Target.unresolved.inj h
      obtain rfl := Except.error.inj (hp.symm.trans hq)
      rfl
    | ok location =>
      rw [hq] at h
      cases h
  | ok location =>
    rw [hp] at h
    cases hq : t.locate q with
    | error fault =>
      rw [hq] at h
      cases h
    | ok other =>
      rw [hq] at h
      rw [Target.location.inj h]

theorem unreadable?_eq_some_iff {p : Path} {file : UnreadableFile} :
    unreadable? t p = some file ↔
      file.path = p ∧ file.target = target t p ∧ t.readText p = .error file.fault := by
  obtain ⟨path, stands, fault⟩ := file
  unfold unreadable?
  cases t.readText p with
  | ok text => simp
  | error found => simp [eq_comm]

theorem mem_unreadableFiles_iff {files : List Path} {file : UnreadableFile} :
    file ∈ unreadableFiles t files ↔ file.path ∈ files ∧ file.target = target t file.path ∧
      t.readText file.path = .error file.fault := by
  rw [unreadableFiles, List.mem_filterMap]
  constructor
  · rintro ⟨p, hp, hfile⟩
    obtain ⟨rfl, hrest⟩ := unreadable?_eq_some_iff.mp hfile
    exact ⟨hp, hrest⟩
  · rintro ⟨hp, hrest⟩
    exact ⟨file.path, hp, unreadable?_eq_some_iff.mpr ⟨rfl, hrest⟩⟩

/-! ## Each file once -/

theorem distinctFiles_congr {seen seen' : List Target} {files : List UnreadableFile}
    (h : ∀ file ∈ files, file.target ∈ seen ↔ file.target ∈ seen') :
    distinctFiles seen files = distinctFiles seen' files := by
  induction files generalizing seen seen' with
  | nil => rfl
  | cons file rest ih =>
    obtain ⟨hfile, hrest⟩ := List.forall_mem_cons.mp h
    unfold distinctFiles
    by_cases hseen : file.target ∈ seen
    · rw [if_pos hseen, if_pos (hfile.mp hseen), ih hrest]
    · rw [if_neg hseen, if_neg fun hin => hseen (hfile.mpr hin)]
      refine congrArg (file :: ·) (ih fun other hother => ?_)
      rw [List.mem_cons, List.mem_cons, hrest other hother]

/-- What is kept of some paths and cannot be read is what is kept of those that cannot be read. A
path that can be read stands for nothing that one of them stands for. -/
theorem unreadableFiles_distinctTargets (seen : List Target) (files : List Path) :
    unreadableFiles t (distinctTargets t seen files) =
      distinctFiles seen (unreadableFiles t files) := by
  induction files generalizing seen with
  | nil => rfl
  | cons p rest ih =>
    unfold distinctTargets unreadableFiles
    cases hp : unreadable? t p with
    | some file =>
      obtain ⟨-, hstands, -⟩ := unreadable?_eq_some_iff.mp hp
      rw [List.filterMap_cons_some hp, distinctFiles, hstands]
      by_cases hseen : target t p ∈ seen
      · rw [if_pos hseen, if_pos hseen]
        exact ih seen
      · rw [if_neg hseen, if_neg hseen, List.filterMap_cons_some hp]
        exact congrArg (file :: ·) (ih (target t p :: seen))
    | none =>
      rw [List.filterMap_cons_none hp]
      by_cases hseen : target t p ∈ seen
      · rw [if_pos hseen]
        exact ih seen
      · rw [if_neg hseen, List.filterMap_cons_none hp]
        refine (ih (target t p :: seen)).trans (distinctFiles_congr fun file hfile => ?_)
        have hne : file.target ≠ target t p := by
          intro heq
          obtain ⟨-, hstands, hfault⟩ := mem_unreadableFiles_iff.mp hfile
          rw [readText_eq_of_target (hstands.symm.trans heq)] at hfault
          simp [unreadable?, hfault] at hp
        rw [List.mem_cons, or_iff_right hne]

/-! ## The list of a budget -/

theorem measure_unreadable (counter : Counter) (directory : Path) (role : FileRole)
    (files : List Path) : (measure t counter directory role files).2 =
      (unreadableFiles t files).map fun file => (Path.label directory file.path, file.fault) := by
  induction files with
  | nil => rfl
  | cons p rest ih =>
    unfold measure unreadableFiles
    cases hp : t.readText p with
    | ok text =>
      have hnone : unreadable? t p = none := by simp [unreadable?, hp]
      rw [List.filterMap_cons_none hnone]
      exact ih
    | error fault =>
      have hsome : unreadable? t p = some ⟨p, target t p, fault⟩ := by simp [unreadable?, hp]
      rw [List.filterMap_cons_some hsome]
      exact congrArg ((Path.label directory p, fault) :: ·) ih

/-- The files of a skill that cannot be read: nested references, siblings and scripts, the
references each once. -/
theorem unreadable_analyze (directory : Path) (entry : Text) (counter : Counter)
    (limits : Limits) : (analyze t directory entry counter limits).unreadable =
      (distinctFiles [] (unreadableFiles t (nestedReferences t directory) ++
          unreadableFiles t (siblingReferences t directory)) ++
        unreadableFiles t (scriptFiles t directory)).map
          fun file => (Path.label directory file.path, file.fault) := by
  have hreferences := unreadableFiles_distinctTargets (t := t) []
    (nestedReferences t directory ++ siblingReferences t directory)
  rw [← referenceFiles_eq, unreadableFiles, unreadableFiles, List.filterMap_append] at hreferences
  simp only [analyze, measure_unreadable, List.map_append]
  rw [unreadableFiles, hreferences]
  rfl

theorem unreadableFiles_pairwise {files : List Path}
    (h : files.Pairwise fun p q => p.steps < q.steps) :
    (unreadableFiles t files).Pairwise fun a b => a.path.steps < b.path.steps := by
  rw [unreadableFiles, List.pairwise_filterMap]
  refine h.imp fun {p q} hlt a ha b hb => ?_
  rw [(unreadable?_eq_some_iff.mp ha).1, (unreadable?_eq_some_iff.mp hb).1]
  exact hlt

/-- Whether the files of a skill directory that cannot be read are the same in two trees, each in
its place. Nothing is asked of those that can be read. -/
structure SameUnreadable (t t' : FileTree) (directory : Path) : Prop where
  nested : ∀ file, file ∈ unreadableFiles t (nestedReferences t directory) ↔
    file ∈ unreadableFiles t' (nestedReferences t' directory)
  siblings : ∀ file, file ∈ unreadableFiles t (siblingReferences t directory) ↔
    file ∈ unreadableFiles t' (siblingReferences t' directory)
  scripts : ∀ file, file ∈ unreadableFiles t (scriptFiles t directory) ↔
    file ∈ unreadableFiles t' (scriptFiles t' directory)

theorem nestedReferences_pairwise (h : t.WellNamed) (directory : Path) :
    (nestedReferences t directory).Pairwise fun p q => p.steps < q.steps :=
  (FileTree.filesBelow_pairwise h _).filter _

theorem siblingReferences_pairwise (h : t.WellNamed) (directory : Path) :
    (siblingReferences t directory).Pairwise fun p q => p.steps < q.steps := by
  refine List.Pairwise.filter _ ?_
  rw [List.pairwise_map]
  exact (FileTree.entries_path_pairwise h directory).filter _

theorem scriptFiles_pairwise (h : t.WellNamed) (directory : Path) :
    (scriptFiles t directory).Pairwise fun p q => p.steps < q.steps :=
  (FileTree.filesBelow_pairwise h _).filter _

/-- The list is the same, in the same order, where the files that cannot be read are. -/
theorem unreadable_analyze_congr {t' : FileTree} (hnames : t.WellNamed) (hnames' : t'.WellNamed)
    {directory : Path} (h : SameUnreadable t t' directory) (entry : Text) (counter : Counter)
    (limits : Limits) : (analyze t directory entry counter limits).unreadable =
      (analyze t' directory entry counter limits).unreadable := by
  have hnested := eq_of_mem_iff (unreadableFiles_pairwise (nestedReferences_pairwise hnames _))
    (unreadableFiles_pairwise (nestedReferences_pairwise hnames' _)) h.nested
  have hsiblings := eq_of_mem_iff (unreadableFiles_pairwise (siblingReferences_pairwise hnames _))
    (unreadableFiles_pairwise (siblingReferences_pairwise hnames' _)) h.siblings
  have hscripts := eq_of_mem_iff (unreadableFiles_pairwise (scriptFiles_pairwise hnames _))
    (unreadableFiles_pairwise (scriptFiles_pairwise hnames' _)) h.scripts
  rw [unreadable_analyze, unreadable_analyze, hnested, hsiblings, hscripts]

end PluginLint.SkillBudget
