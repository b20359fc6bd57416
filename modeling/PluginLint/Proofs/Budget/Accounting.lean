import Mathlib.Algebra.GroupWithZero.Nat
import PluginLint.Proofs.Budget.References
import PluginLint.Proofs.FileTree.Spelling
import PluginLint.Proofs.Plugin.Labels

/-!
# Every file of a skill is accounted for

The names of a path below the directory of a skill tell the entry document, the references below
`references/`, those beside the entry document and the scripts apart (`listed_pairwise`), so no two
files of a budget have the same label. Every path is either counted or listed as unreadable
(`measure_labels_perm`), and of the paths to one reference exactly one is kept
(`count_target_referenceFiles`).
-/
namespace PluginLint

/-! ## Paths below a directory -/

/-- A path that is written as a directory and names below it. -/
structure Path.Spells (directory : Path) (names : List Text) (p : Path) : Prop where
  isName : ∀ name ∈ names, Path.IsName name
  below : names ≠ []
  path : p = names.foldl Path.join directory

theorem Path.Spells.eq_of_steps {directory p q : Path} {names names' : List Text}
    (h : Path.Spells directory names p) (h' : Path.Spells directory names' q)
    (hsteps : p.steps = q.steps) : names = names' := by
  rw [h.path, h'.path, Path.steps_foldl_join _ h.isName,
    Path.steps_foldl_join _ h'.isName] at hsteps
  exact List.append_cancel_left hsteps

theorem Path.Spells.eq_of_label {directory p q : Path} {names names' : List Text}
    (h : Path.Spells directory names p) (h' : Path.Spells directory names' q)
    (hlabel : Path.label directory p = Path.label directory q) : names = names' := by
  rw [h.path, h'.path] at hlabel
  exact Path.eq_of_label_foldl_join directory h.isName h'.isName h.below h'.below hlabel

theorem Path.spells_join (directory : Path) {name : Text} (h : Path.IsName name) :
    Path.Spells directory [name] (directory.join name) :=
  ⟨by simpa using h, by simp, rfl⟩

namespace SkillBudget

variable {t : FileTree}

theorem mem_siblingReferences_iff {directory p : Path} : p ∈ siblingReferences t directory ↔
    ∃ name place location, t.IsFileIn directory name place location ∧ name ≠ skillEntry.toList ∧
      hasExtension ["md"] p = true ∧ p = directory.join name := by
  simp only [siblingReferences, List.mem_filter, List.mem_map, Bool.and_eq_true, bne_iff_ne]
  constructor
  · rintro ⟨⟨entry, ⟨hmem, hfile, hname⟩, rfl⟩, hextension⟩
    obtain ⟨place, hin, hpath⟩ := FileTree.mem_entries_isFile_iff.mp ⟨hmem, hfile⟩
    exact ⟨entry.name, place, entry.location, hin, hname, hextension, hpath⟩
  · rintro ⟨name, place, location, hin, hname, hextension, rfl⟩
    let entry : FileTree.Entry := ⟨name, directory.join name, location⟩
    have hentry : entry ∈ t.entries directory ∧ entry.isFile t = true :=
      FileTree.mem_entries_isFile_iff.mpr ⟨place, hin, rfl⟩
    exact ⟨⟨entry, ⟨hentry.1, hentry.2, hname⟩, rfl⟩, hextension⟩

theorem mem_nestedReferences_iff {directory p : Path} : p ∈ nestedReferences t directory ↔
    ∃ place relative, t.locate (directory.join "references".toList) = .ok place ∧
      t.LiesBelow place relative ∧
      FileTree.opens (directory.join "references".toList) relative = true ∧
      hasExtension ["md"] p = true ∧
      p = relative.foldl Path.join (directory.join "references".toList) := by
  rw [nestedReferences, List.mem_filter, FileTree.mem_filesBelow_iff]
  constructor
  · rintro ⟨⟨place, relative, hplace, hbelow, hopens, hp⟩, hextension⟩
    exact ⟨place, relative, hplace, hbelow, hopens, hextension, hp⟩
  · rintro ⟨place, relative, hplace, hbelow, hopens, hextension, hp⟩
    exact ⟨⟨place, relative, hplace, hbelow, hopens, hp⟩, hextension⟩

theorem spells_of_mem_filesBelow (h : t.WellNamed) {directory p : Path} {name : Text}
    (hname : Path.IsName name) (hp : p ∈ t.filesBelow (directory.join name)) :
    ∃ relative, relative ≠ [] ∧ Path.Spells directory (name :: relative) p := by
  obtain ⟨place, relative, -, hbelow, -, rfl⟩ := FileTree.mem_filesBelow_iff.mp hp
  exact ⟨relative, hbelow.below,
    ⟨List.forall_mem_cons.mpr ⟨hname, hbelow.isName h⟩, by simp, rfl⟩⟩

theorem spells_of_mem_siblingReferences (h : t.WellNamed) {directory p : Path}
    (hp : p ∈ siblingReferences t directory) :
    ∃ name, name ≠ skillEntry.toList ∧ Path.Spells directory [name] p := by
  obtain ⟨name, place, location, hin, hname, -, rfl⟩ := mem_siblingReferences_iff.mp hp
  exact ⟨name, hname, Path.spells_join directory (h.isName hin.isSome)⟩

/-- The paths that a budget may list: the entry document, the references and the scripts. -/
def candidates (t : FileTree) (directory : Path) : List Path :=
  entryPath directory ::
    (nestedReferences t directory ++ siblingReferences t directory ++ scriptFiles t directory)

theorem spells_of_mem_candidates (h : t.WellNamed) {directory p : Path}
    (hp : p ∈ candidates t directory) : ∃ names, Path.Spells directory names p := by
  simp only [candidates, List.mem_cons, List.mem_append] at hp
  rcases hp with rfl | (hnested | hsibling) | hscript
  · exact ⟨_, Path.spells_join directory (by decide)⟩
  · obtain ⟨relative, -, hspells⟩ :=
      spells_of_mem_filesBelow h (by decide) (List.mem_of_mem_filter hnested)
    exact ⟨_, hspells⟩
  · obtain ⟨name, -, hspells⟩ := spells_of_mem_siblingReferences h hsibling
    exact ⟨_, hspells⟩
  · obtain ⟨relative, -, hspells⟩ :=
      spells_of_mem_filesBelow h (by decide) (List.mem_of_mem_filter hscript)
    exact ⟨_, hspells⟩

/-- A path below a directory in the skill is no path to something in the skill itself. -/
theorem steps_ne_of_mem_filesBelow (h : t.WellNamed) {directory p q : Path} {name other : Text}
    (hname : Path.IsName name) (hp : p ∈ t.filesBelow (directory.join name))
    (hq : Path.Spells directory [other] q) : q.steps ≠ p.steps := by
  obtain ⟨relative, hne, hspells⟩ := spells_of_mem_filesBelow h hname hp
  intro hsteps
  exact hne (List.cons.inj (hq.eq_of_steps hspells hsteps)).2.symm

/-- No path is listed twice. -/
theorem candidates_pairwise (h : t.WellNamed) (directory : Path) :
    (candidates t directory).Pairwise fun p q => p.steps ≠ q.steps := by
  have hne {p q : Path} (hlt : p.steps < q.steps) : p.steps ≠ q.steps := by
    intro heq
    rw [heq] at hlt
    exact List.lt_irrefl _ hlt
  have hentry : Path.Spells directory [skillEntry.toList] (entryPath directory) :=
    Path.spells_join directory (by decide)
  refine List.pairwise_cons.mpr ⟨?entry, List.pairwise_append.mpr ⟨List.pairwise_append.mpr
    ⟨(nestedReferences_pairwise h directory).imp hne,
      (siblingReferences_pairwise h directory).imp hne, ?siblings⟩,
    (scriptFiles_pairwise h directory).imp hne, ?scripts⟩⟩
  case entry =>
    intro p hp
    simp only [List.mem_append] at hp
    rcases hp with (hnested | hsibling) | hscript
    · exact steps_ne_of_mem_filesBelow h (by decide) (List.mem_of_mem_filter hnested) hentry
    · obtain ⟨name, hname, hspells⟩ := spells_of_mem_siblingReferences h hsibling
      exact fun hsteps => hname (List.cons.inj (hentry.eq_of_steps hspells hsteps)).1.symm
    · exact steps_ne_of_mem_filesBelow h (by decide) (List.mem_of_mem_filter hscript) hentry
  case siblings =>
    intro p hp q hq
    obtain ⟨name, -, hspells⟩ := spells_of_mem_siblingReferences h hq
    exact (steps_ne_of_mem_filesBelow h (by decide) (List.mem_of_mem_filter hp) hspells).symm
  case scripts =>
    intro p hp q hq
    rcases List.mem_append.mp hp with hnested | hsibling
    · obtain ⟨relative, -, hspells⟩ :=
        spells_of_mem_filesBelow h (by decide) (List.mem_of_mem_filter hnested)
      obtain ⟨relative', -, hspells'⟩ :=
        spells_of_mem_filesBelow h (by decide) (List.mem_of_mem_filter hq)
      intro hsteps
      exact absurd (List.cons.inj (hspells.eq_of_steps hspells' hsteps)).1 (by decide)
    · obtain ⟨name, -, hspells⟩ := spells_of_mem_siblingReferences h hsibling
      exact steps_ne_of_mem_filesBelow h (by decide) (List.mem_of_mem_filter hq) hspells

/-! ## Each reference once -/

theorem distinctTargets_sublist (seen : List Target) (files : List Path) :
    (distinctTargets t seen files).Sublist files := by
  induction files generalizing seen with
  | nil => exact List.nil_sublist _
  | cons p rest ih =>
    unfold distinctTargets
    split
    · exact (ih seen).cons p
    · exact (ih _).cons_cons p

theorem target_notMem_of_mem_distinctTargets {seen : List Target} {files : List Path} {p : Path}
    (h : p ∈ distinctTargets t seen files) : target t p ∉ seen := by
  induction files generalizing seen with
  | nil => cases h
  | cons q rest ih =>
    unfold distinctTargets at h
    split at h
    · exact ih h
    · next hq =>
      rcases List.mem_cons.mp h with rfl | hrest
      · exact hq
      · exact fun hseen => ih hrest (List.mem_cons_of_mem _ hseen)

theorem nodup_map_distinctTargets (seen : List Target) (files : List Path) :
    ((distinctTargets t seen files).map (target t)).Nodup := by
  induction files generalizing seen with
  | nil => exact List.nodup_nil
  | cons p rest ih =>
    unfold distinctTargets
    split
    · exact ih seen
    · refine List.nodup_cons.mpr ⟨fun hmem => ?_, ih _⟩
      obtain ⟨q, hq, heq⟩ := List.mem_map.mp hmem
      exact target_notMem_of_mem_distinctTargets hq (by rw [heq]; exact List.mem_cons_self)

/-- Nothing is lost: what a path stands for was seen before or is kept. -/
theorem target_mem_of_mem {seen : List Target} {files : List Path} {p : Path} (h : p ∈ files) :
    target t p ∈ seen ∨ target t p ∈ (distinctTargets t seen files).map (target t) := by
  induction files generalizing seen with
  | nil => cases h
  | cons q rest ih =>
    unfold distinctTargets
    rcases List.mem_cons.mp h with rfl | hrest
    · split
      · next hseen => exact .inl hseen
      · exact .inr (by simp)
    · split
      · exact ih hrest
      · have hlater : target t p ∈ target t q :: seen ∨
            target t p ∈ (distinctTargets t (target t q :: seen) rest).map (target t) := ih hrest
        rcases hlater with hseen | hkept
        · rcases List.mem_cons.mp hseen with heq | hseen
          · exact .inr (by simp [heq])
          · exact .inl hseen
        · exact .inr (List.mem_cons_of_mem _ hkept)

/-- Of the paths to one reference exactly one is kept. -/
theorem count_target_referenceFiles {directory p : Path}
    (h : p ∈ nestedReferences t directory ++ siblingReferences t directory) :
    ((referenceFiles t directory).map (target t)).count (target t p) = 1 := by
  rw [referenceFiles_eq]
  refine List.count_eq_one_of_mem (nodup_map_distinctTargets _ _) ?_
  exact (target_mem_of_mem h).resolve_left List.not_mem_nil

/-! ## Labels -/

theorem files_sublist_candidates (directory : Path) :
    (entryPath directory :: (referenceFiles t directory ++ scriptFiles t directory)).Sublist
      (candidates t directory) := by
  rw [referenceFiles_eq]
  exact ((distinctTargets_sublist _ _).append_right _).cons_cons _

theorem nodup_labels (h : t.WellNamed) (directory : Path) :
    ((entryPath directory :: (referenceFiles t directory ++ scriptFiles t directory)).map
      (Path.label directory)).Nodup := by
  rw [List.Nodup, List.pairwise_map]
  have hsublist := files_sublist_candidates (t := t) directory
  refine ((candidates_pairwise h directory).sublist hsublist).imp_of_mem ?_
  intro p q hp hq hne hlabel
  obtain ⟨names, hspells⟩ := spells_of_mem_candidates h (hsublist.subset hp)
  obtain ⟨names', hspells'⟩ := spells_of_mem_candidates h (hsublist.subset hq)
  obtain rfl := hspells.eq_of_label hspells' hlabel
  exact hne (congrArg Path.steps (hspells.path.trans hspells'.path.symm))

theorem label_entryPath (directory : Path) :
    Path.label directory (entryPath directory) = skillEntry.toList := by
  have hname : ∀ name ∈ [skillEntry.toList], Path.IsName name := by decide
  exact Path.label_foldl_join directory hname

/-! ## What is counted -/

/-- The units of the file that a path leads to, if it can be read. -/
def fileUnits? (t : FileTree) (counter : Counter) (directory : Path) (role : FileRole) (p : Path) :
    Option FileUnits :=
  (t.readText p).toOption.map fun text => ⟨Path.label directory p, counter.count text, role⟩

variable (counter : Counter) (directory : Path) (role : FileRole) (files : List Path)

theorem measure_files : (measure t counter directory role files).1 =
    files.filterMap (fileUnits? t counter directory role) := by
  induction files with
  | nil => rfl
  | cons p rest ih =>
    unfold measure
    cases hp : t.readText p with
    | ok text =>
      rw [List.filterMap_cons_some (by rw [fileUnits?, hp]; rfl)]
      exact congrArg (_ :: ·) ih
    | error fault =>
      rw [List.filterMap_cons_none (by rw [fileUnits?, hp]; rfl)]
      exact ih

/-- Every path is counted or listed as unreadable. -/
theorem measure_labels_perm : ((measure t counter directory role files).1.map (·.file) ++
    (measure t counter directory role files).2.map (·.1)).Perm
      (files.map (Path.label directory)) := by
  induction files with
  | nil => exact List.Perm.refl _
  | cons p rest ih =>
    unfold measure
    cases t.readText p with
    | ok text => exact ih.cons _
    | error fault => exact List.perm_middle.trans (ih.cons _)

theorem filter_measure (other : FileRole) :
    (measure t counter directory role files).1.filter (fun f => f.role = other) =
      if role = other then (measure t counter directory role files).1 else [] := by
  have hrole : ∀ f ∈ (measure t counter directory role files).1, f.role = role := by
    intro f hf
    rw [measure_files] at hf
    obtain ⟨p, -, hp⟩ := List.mem_filterMap.mp hf
    obtain ⟨text, -, rfl⟩ := Option.map_eq_some_iff.mp hp
    rfl
  split
  · next heq => exact List.filter_eq_self.mpr fun f hf => by simp [hrole f hf, heq]
  · next hne => exact List.filter_eq_nil_iff.mpr fun f hf => by simp [hrole f hf, hne]

theorem sumUnits_eq_sum (listed : List FileUnits) :
    sumUnits listed = (listed.map (·.units)).sum := by
  induction listed with
  | nil => rfl
  | cons f rest ih => exact congrArg (f.units + ·) ih

/-! ## The account of a skill -/

/-- An account of all files of a skill: what is listed and where, what the sums are sums of, and
that the references are all there are, each of them once. Every enumerated path makes one entry, and
where names are text no two entries show the same label. -/
structure Accounts (b : SkillBudget) (t : FileTree) (directory : Path) (entry : Text)
    (counter : Counter) : Prop where
  files : b.units.files = ⟨skillEntry.toList, counter.count (Document.parse entry).body, .skill⟩ ::
    ((referenceFiles t directory).filterMap (fileUnits? t counter directory .reference) ++
      (scriptFiles t directory).filterMap (fileUnits? t counter directory .script))
  unreadable : b.unreadable =
    (unreadableFiles t (referenceFiles t directory ++ scriptFiles t directory)).map
      fun file => (Path.label directory file.path, file.fault)
  distinct : (referenceFiles t directory ++ scriptFiles t directory).Nodup
  once : t.NamesAreText → ∀ p ∈ referenceFiles t directory ++ scriptFiles t directory,
    (b.units.files.map (·.file) ++ b.unreadable.map (·.1)).count (Path.label directory p) = 1
  references : b.units.references = ((b.units.filesOf .reference).map (·.units)).sum
  scripts : b.units.scripts = ((b.units.filesOf .script).map (·.units)).sum
  total : b.units.total = b.units.metadata + (b.units.files.map (·.units)).sum
  nested : ∀ place relative, t.locate (directory.join "references".toList) = .ok place →
    t.LiesBelow place relative →
    (∀ front, front <+: relative → front ≠ relative →
      Text.byteCount (front.foldl Path.join (directory.join "references".toList)).text < 4096) →
    let p := relative.foldl Path.join (directory.join "references".toList)
    hasExtension ["md"] p = true →
      ((referenceFiles t directory).map (target t)).count (target t p) = 1
  siblings : ∀ name place location, t.IsFileIn directory name place location →
    name ≠ skillEntry.toList → hasExtension ["md"] (directory.join name) = true →
      ((referenceFiles t directory).map (target t)).count (target t (directory.join name)) = 1

variable {directory}

theorem labels_perm (entry : Text) (limits : Limits) :
    let b := analyze t directory entry counter limits
    (b.units.files.map (·.file) ++ b.unreadable.map (·.1)).Perm
      ((entryPath directory :: (referenceFiles t directory ++ scriptFiles t directory)).map
        (Path.label directory)) := by
  have hreferences := measure_labels_perm (t := t) counter directory .reference
    (referenceFiles t directory)
  have hscripts := measure_labels_perm (t := t) counter directory .script (scriptFiles t directory)
  simp only [analyze, List.map_cons, List.map_append, List.cons_append, label_entryPath]
  refine List.Perm.cons _ (List.Perm.trans ?_ (hreferences.append hscripts))
  simp only [List.append_assoc]
  exact (List.perm_append_comm_assoc _ _ _).append_left _

/-- The total is the metadata and every listed file, the body as that of the entry document. -/
theorem total_analyze (entry : Text) (limits : Limits) :
    let u := (analyze t directory entry counter limits).units
    u.total = u.metadata + (u.files.map (·.units)).sum := by
  simp [analyze, sumUnits_eq_sum, Nat.add_assoc]

/-- Each file of a skill is counted once, in its role and its place, or listed as unreadable. The
units are those of the listed files, and no reference is left out that the walk comes to. -/
theorem every_file_accounted_for (t : FileTree) (directory : Path) (entry : Text)
    (counter : Counter) (limits : Limits) (h : t.WellNamed) :
    (analyze t directory entry counter limits).Accounts t directory entry counter where
  files := by
    rw [← measure_files, ← measure_files]
    rfl
  unreadable := by
    rw [unreadableFiles, List.filterMap_append, List.map_append]
    exact congrArg₂ (· ++ ·) (measure_unreadable counter directory .reference _)
      (measure_unreadable counter directory .script _)
  distinct := ((nodup_labels h directory).of_map _).of_cons
  once := by
    intro _ p hp
    rw [(labels_perm counter entry limits).count_eq]
    exact List.count_eq_one_of_mem (nodup_labels h directory)
      (List.mem_map_of_mem (List.mem_cons_of_mem _ hp))
  references := by
    simp [analyze, Units.filesOf, filter_measure, sumUnits_eq_sum]
  scripts := by
    simp [analyze, Units.filesOf, filter_measure, sumUnits_eq_sum]
  total := total_analyze counter entry limits
  nested := by
    intro place relative hplace hbelow hshort p hextension
    have hopens := (FileTree.opens_iff hbelow.below (hbelow.isName h)).mpr hshort
    exact count_target_referenceFiles (List.mem_append_left _
      (mem_nestedReferences_iff.mpr ⟨place, relative, hplace, hbelow, hopens, hextension, rfl⟩))
  siblings := by
    intro name place location hin hname hextension
    exact count_target_referenceFiles (List.mem_append_right _
      (mem_siblingReferences_iff.mpr ⟨name, place, location, hin, hname, hextension, rfl⟩))

/-- A skill with references at two depths, one that cannot be read, a link to one of them, a
reference beside the entry document and a script. -/
def sharedSkill : FileTree where
  nodes :=
    [(["a".toList], .directory),
      (["a".toList, skillEntry.toList], .file (.text "---\nname: a\n---\nTwelve units".toList)),
      (["a".toList, "b.md".toList], .link ⟨"references/deep/c.md".toList⟩),
      (["a".toList, "d.md".toList], .file (.text "Beside it".toList)),
      (["a".toList, "references".toList], .directory),
      (["a".toList, "references".toList, "x.md".toList], .file .binary),
      (["a".toList, "references".toList, "deep".toList], .directory),
      (["a".toList, "references".toList, "deep".toList, "c.md".toList],
        .file (.text "At some depth".toList)),
      (["a".toList, "scripts".toList], .directory),
      (["a".toList, "scripts".toList, "run.sh".toList], .file (.text "echo".toList))]
  base := []

theorem files_sharedSkill :
    referenceFiles sharedSkill ⟨"/a".toList⟩ = [⟨"/a/references/deep/c.md".toList⟩,
      ⟨"/a/references/x.md".toList⟩, ⟨"/a/d.md".toList⟩] ∧
    scriptFiles sharedSkill ⟨"/a".toList⟩ = [⟨"/a/scripts/run.sh".toList⟩] := by
  simp only [referenceFiles, scriptFiles, FileTree.filesBelow, FileTree.below, FileTree.entries,
    FileTree.names, FileTree.mergeSort_inOrder]
  decide +kernel

theorem shared_files_accounted_for :
    sharedSkill.WellNamed ∧
    let b := analyze sharedSkill ⟨"/a".toList⟩ "---\nname: a\n---\nTwelve units".toList .approximate
      .standard
    b.Accounts sharedSkill ⟨"/a".toList⟩ "---\nname: a\n---\nTwelve units".toList .approximate ∧
    b.units.files.map (fun f => (String.ofList f.file, f.units)) =
      [("SKILL.md", 3), ("references/deep/c.md", 3), ("d.md", 2), ("scripts/run.sh", 1)] ∧
    b.unreadable = [("references/x.md".toList, .notText)] ∧ b.units.total = 9 := by
  have hnames : sharedSkill.WellNamed := by
    unfold FileTree.WellNamed
    decide
  refine ⟨hnames, every_file_accounted_for _ _ _ _ _ hnames, ?_⟩
  obtain ⟨hreferences, hscripts⟩ := files_sharedSkill
  simp only [analyze, hreferences, hscripts]
  decide +kernel

/-- A skill with a directory and a link to nothing, both named like documents. -/
def looseSkill : FileTree where
  nodes :=
    [(["a".toList], .directory),
      (["a".toList, skillEntry.toList], .file (.text "---\nname: a\n---\nTwelve units".toList)),
      (["a".toList, "d.md".toList], .directory),
      (["a".toList, "gone.md".toList], .link ⟨"missing.md".toList⟩)]
  base := []

/-- A child that is named like a document but leads to no file is no reference. -/
theorem referenceFiles_looseSkill : referenceFiles looseSkill ⟨"/a".toList⟩ = [] := by
  simp only [referenceFiles, FileTree.filesBelow, FileTree.below, FileTree.entries, FileTree.names,
    FileTree.mergeSort_inOrder]
  decide +kernel

/-! ## References out of reach -/

/-- The root of the file system, written with slashes in a row. -/
def slashedRoot (slashes : Nat) : Path := ⟨List.replicate (slashes + 1) '/'⟩

theorem slashedRoot_alike (slashes : Nat) : (slashedRoot slashes).SpelledAlike ⟨['/']⟩ := by
  refine ⟨rfl, ?_⟩
  induction slashes with
  | zero => rfl
  | succ slashes ih =>
    have hsegments : (slashedRoot (slashes + 1)).segments = [] :: (slashedRoot slashes).segments :=
      List.splitOn_append_cons_self [] (slashedRoot slashes).text
    rw [Path.counted, hsegments, List.filter_cons_of_neg (by decide)]
    exact ih

theorem slashedRoot_join (slashes : Nat) {child : Text} (hhead : child.head? ≠ some '/') :
    (slashedRoot slashes).join child = ⟨List.replicate (slashes + 1) '/' ++ child⟩ := by
  have hlast : (slashedRoot slashes).text.getLast? = some '/' := by
    simp [slashedRoot, List.getLast?_replicate]
  rw [Path.join, if_neg hhead, if_pos (.inr hlast)]
  rfl

theorem byteCount_slashedRoot_join (slashes : Nat) {child : Text} (hhead : child.head? ≠ some '/') :
    Text.byteCount ((slashedRoot slashes).join child).text =
      slashes + 1 + Text.byteCount child := by
  have hslashes : Text.byteCount (List.replicate (slashes + 1) '/') = slashes + 1 := by
    induction slashes with
    | zero => rfl
    | succ slashes ih =>
      rw [List.replicate_succ, ← List.singleton_append, Text.byteCount_append, ih]
      exact Nat.add_comm 1 _
  rw [slashedRoot_join slashes hhead, Text.byteCount_append, hslashes]

/-- A skill with a reference in a directory below `references/`. -/
def nestedSkill : FileTree where
  nodes :=
    [(["a".toList], .directory), (["a".toList, "references".toList], .directory),
      (["a".toList, "references".toList, "sub".toList], .directory),
      (["a".toList, "references".toList, "sub".toList, "x.md".toList],
        .file (.text "At some depth".toList))]
  base := []

/-- The skill by a path so long that the directory of its references is the last that can be
opened. -/
def longSkill : Path := (slashedRoot 4082).join "a".toList

theorem byteCount_longSkill_join {child : Text} (hhead : child.head? ≠ some '/') :
    Text.byteCount (longSkill.join child).text = 4085 + Text.byteCount child := by
  have hjoin : longSkill.join child = (slashedRoot 4082).join ("a".toList ++ '/' :: child) :=
    Path.join_join (slashedRoot 4082) ⟨by decide, by decide, by decide⟩ hhead
  have hcount : Text.byteCount ("a".toList ++ '/' :: child) = 2 + Text.byteCount child :=
    Text.byteCount_append "a/".toList child
  rw [hjoin, byteCount_slashedRoot_join _ (by simp), hcount]
  omega

theorem locate_longSkill : nestedSkill.locate longSkill = .ok ["a".toList] ∧
    nestedSkill.locate (longSkill.join "references".toList) =
      .ok ["a".toList, "references".toList] := by
  have hcount : Text.byteCount "references".toList = 10 := by decide
  have hlimit : FileTree.pathLimit = 4096 := rfl
  have hshort : Text.byteCount (longSkill.join "references".toList).text < FileTree.pathLimit := by
    rw [byteCount_longSkill_join (by decide), hcount, hlimit]
    decide
  obtain ⟨hskill, hreferences⟩ := nestedSkill.locate_join_join_of_alike (slashedRoot_alike 4082)
    (by decide) (by decide) hshort (by decide)
  exact ⟨hskill.trans (by decide), hreferences.trans (by decide)⟩

theorem not_opens_longSkill :
    FileTree.opens (longSkill.join "references".toList) ["sub".toList, "x.md".toList] = false := by
  have hjoin : (longSkill.join "references".toList).join "sub".toList =
      longSkill.join "references/sub".toList :=
    Path.join_join longSkill ⟨by decide, by decide, by decide⟩ (by decide)
  have hcount : Text.byteCount "references/sub".toList = 14 := by decide
  have hlimit : FileTree.pathLimit = 4096 := rfl
  rw [FileTree.opens, decide_eq_false_iff_not, List.dropLast_cons_of_ne_nil (by simp),
    List.dropLast_singleton, List.foldl_cons, List.foldl_nil, hjoin,
    byteCount_longSkill_join (by decide), hcount, hlimit]
  decide

/-- A document in a directory whose path is too long to be opened is no reference. -/
theorem referenceFiles_longSkill : referenceFiles nestedSkill longSkill = [] := by
  obtain ⟨hplace, hinside⟩ := locate_longSkill
  have hnested : nestedSkill.filesBelow (longSkill.join "references".toList) = [] := by
    have hbelow : nestedSkill.below ["a".toList, "references".toList] =
        [["sub".toList], ["sub".toList, "x.md".toList]] := by
      rw [FileTree.below, FileTree.mergeSort_inOrder]
      decide
    have hsub : nestedSkill.holdsFile (["a".toList, "references".toList] ++ ["sub".toList]) =
        false := by decide
    have hdirectory : nestedSkill.node? ["a".toList, "references".toList] = some .directory := by
      decide
    simp only [FileTree.filesBelow, hinside, if_pos hdirectory, hbelow, List.filter_cons, hsub,
      not_opens_longSkill, Bool.and_false, Bool.false_and, Bool.false_eq_true, if_false,
      List.filter_nil, List.map_nil]
  have hchildren : nestedSkill.entries longSkill = [⟨"references".toList,
      longSkill.join "references".toList, ["a".toList, "references".toList]⟩] := by
    have hnames : nestedSkill.names ["a".toList] = ["references".toList] :=
      List.mergeSort_singleton "references".toList
    rw [FileTree.entries_of_located hplace (by decide), hnames]
    rfl
  unfold referenceFiles
  rw [hnested, hchildren]
  rfl

theorem liesBelow_nestedSkill : nestedSkill.LiesBelow ["a".toList, "references".toList]
    ["sub".toList, "x.md".toList] := by
  obtain ⟨hbelow, hbetween, -⟩ := (FileTree.reaches_iff (by decide)).mp
    (by decide : nestedSkill.reaches ["a".toList, "references".toList]
      ["sub".toList, "x.md".toList] = true)
  exact ⟨hbelow, hbetween, by decide⟩

/-- Neither a child beside the entry document without a file nor a file behind a path that is too
long is among the references. -/
theorem children_without_file_left_out :
    looseSkill.WellNamed ∧ looseSkill.locate ⟨"/a".toList⟩ = .ok ["a".toList] ∧
    looseSkill.node? ["a".toList, "d.md".toList] = some .directory ∧
    looseSkill.node? ["a".toList, "gone.md".toList] = some (.link ⟨"missing.md".toList⟩) ∧
    referenceFiles looseSkill ⟨"/a".toList⟩ = [] ∧
    (¬ ∀ (t : FileTree) (directory : Path), t.WellNamed → ∀ name place,
      t.locate directory = .ok place → (t.node? (place ++ [name])).isSome = true →
      name ≠ skillEntry.toList → hasExtension ["md"] (directory.join name) = true →
        ((referenceFiles t directory).map (target t)).count
          (target t (directory.join name)) = 1) ∧
    nestedSkill.WellNamed ∧
    nestedSkill.locate (longSkill.join "references".toList) =
      .ok ["a".toList, "references".toList] ∧
    nestedSkill.LiesBelow ["a".toList, "references".toList] ["sub".toList, "x.md".toList] ∧
    referenceFiles nestedSkill longSkill = [] ∧
    ¬ ∀ (t : FileTree) (directory : Path), t.WellNamed → ∀ place relative,
      t.locate (directory.join "references".toList) = .ok place → t.LiesBelow place relative →
      let p := relative.foldl Path.join (directory.join "references".toList)
      hasExtension ["md"] p = true →
        ((referenceFiles t directory).map (target t)).count (target t p) = 1 := by
  have hloose : looseSkill.WellNamed := by
    unfold FileTree.WellNamed
    decide
  have hnested : nestedSkill.WellNamed := by
    unfold FileTree.WellNamed
    decide
  have hplace : looseSkill.locate ⟨"/a".toList⟩ = .ok ["a".toList] := by decide
  refine ⟨hloose, hplace, by decide, by decide, referenceFiles_looseSkill, fun hall => ?_, hnested,
    locate_longSkill.2, liesBelow_nestedSkill, referenceFiles_longSkill, fun hall => ?_⟩
  · have hcount := hall looseSkill ⟨"/a".toList⟩ hloose "gone.md".toList _ hplace (by decide)
      (by decide) (by decide)
    rw [referenceFiles_looseSkill] at hcount
    cases hcount
  · have hextension (p : Path) :
        hasExtension ["md"] (["sub".toList, "x.md".toList].foldl Path.join p) = true := by
      rw [hasExtension, List.foldl_cons, List.foldl_cons, List.foldl_nil,
        Path.fileName?_join _ (by decide)]
      rfl
    have hcount := hall nestedSkill longSkill hnested _ _ locate_longSkill.2 liesBelow_nestedSkill
      (hextension (longSkill.join "references".toList))
    rw [referenceFiles_longSkill] at hcount
    cases hcount

end SkillBudget
end PluginLint
