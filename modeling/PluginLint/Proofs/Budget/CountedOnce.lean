import PluginLint.Proofs.Budget.Accounting

/-!
# Files of a skill that are counted twice

References stand for different files, and so do scripts, but a link can make a reference of the
entry document or of a script. Two files of a budget are one file exactly then
(`listed_targets_distinct_iff`). In a skill directory without links every path leads where its names
say (`location_of_mem_candidates`), so no file is counted twice there.
-/
namespace PluginLint.SkillBudget

variable {t : FileTree}

/-- The paths of the files that a budget counts: the entry document, the references that can be
read and the scripts that can be read. -/
def listedFiles (t : FileTree) (directory : Path) : List Path :=
  entryPath directory ::
    (referenceFiles t directory ++ scriptFiles t directory).filter fun p => (t.readText p).isOk

/-- Whether no reference is the entry document or a script, and no script the entry document, as far
as they can be read. -/
structure KeptApart (t : FileTree) (directory : Path) : Prop where
  entry : ∀ p ∈ referenceFiles t directory ++ scriptFiles t directory, (t.readText p).isOk = true →
    target t p ≠ target t (entryPath directory)
  scripts : ∀ p ∈ referenceFiles t directory, ∀ q ∈ scriptFiles t directory,
    (t.readText p).isOk = true → target t p ≠ target t q

theorem map_label_filterMap_fileUnits? (counter : Counter) (directory : Path) (role : FileRole)
    (files : List Path) : (files.filterMap (fileUnits? t counter directory role)).map (·.file) =
      (files.filter fun p => (t.readText p).isOk).map (Path.label directory) := by
  induction files with
  | nil => rfl
  | cons p rest ih =>
    cases hp : t.readText p with
    | ok text =>
      rw [List.filterMap_cons_some (by rw [fileUnits?, hp]; rfl),
        List.filter_cons_of_pos (by rw [hp]; rfl)]
      exact congrArg (Path.label directory p :: ·) ih
    | error fault =>
      rw [List.filterMap_cons_none (by rw [fileUnits?, hp]; rfl),
        List.filter_cons_of_neg (by rw [hp]; exact Bool.false_ne_true)]
      exact ih

theorem map_file_analyze (directory : Path) (entry : Text) (counter : Counter) (limits : Limits) :
    (analyze t directory entry counter limits).units.files.map (·.file) =
      (listedFiles t directory).map (Path.label directory) := by
  simp only [analyze, measure_files, listedFiles, List.map_cons, List.map_append,
    List.filter_append, label_entryPath, map_label_filterMap_fileUnits?]

/-- What can be read lies somewhere, and so does whatever stands for the same. -/
theorem exists_locate_of_target {p q : Path} (hread : (t.readText p).isOk = true)
    (heq : target t p = target t q) :
    ∃ location, t.locate p = .ok location ∧ t.locate q = .ok location := by
  unfold FileTree.readText at hread
  unfold target at heq
  cases hp : t.locate p with
  | error fault =>
    rw [hp] at hread
    cases hread
  | ok location =>
    rw [hp] at heq
    cases hq : t.locate q with
    | error fault =>
      rw [hq] at heq
      cases heq
    | ok other =>
      rw [hq] at heq
      exact ⟨location, rfl, congrArg Except.ok (Target.location.inj heq).symm⟩

theorem nodup_targets_scriptFiles (h : t.WellNamed) (directory : Path) :
    (((scriptFiles t directory).filter fun p => (t.readText p).isOk).map (target t)).Nodup := by
  rw [List.Nodup, List.pairwise_map]
  refine ((scriptFiles_pairwise h directory).filter _).imp_of_mem fun {p q} hp hq hlt heq => ?_
  obtain ⟨hp, hread⟩ := List.mem_filter.mp hp
  obtain ⟨location, hlocate, hlocate'⟩ := exists_locate_of_target hread heq
  obtain rfl := FileTree.eq_of_locate_filesBelow h (List.mem_of_mem_filter hp)
    (List.mem_of_mem_filter (List.mem_of_mem_filter hq)) hlocate hlocate'
  exact List.lt_irrefl _ hlt

/-- The files of a budget are different files exactly when references, scripts and the entry
document are kept apart. -/
theorem nodup_targets_iff (h : t.WellNamed) (directory : Path) :
    ((listedFiles t directory).map (target t)).Nodup ↔ KeptApart t directory := by
  have hreferences : (((referenceFiles t directory).filter
      fun p => (t.readText p).isOk).map (target t)).Nodup := by
    rw [referenceFiles_eq]
    exact (nodup_map_distinctTargets _ _).sublist (List.filter_sublist.map _)
  rw [listedFiles, List.map_cons, List.nodup_cons, List.filter_append, List.map_append,
    List.nodup_append']
  constructor
  · rintro ⟨hentry, -, -, hdisjoint⟩
    refine ⟨fun p hp hread heq => hentry ?_, fun p hp q hq hread heq => ?_⟩
    · rw [← List.map_append, ← List.filter_append, ← heq]
      exact List.mem_map_of_mem (List.mem_filter.mpr ⟨hp, hread⟩)
    · refine hdisjoint (List.mem_map_of_mem (List.mem_filter.mpr ⟨hp, hread⟩)) ?_
      rw [heq]
      refine List.mem_map_of_mem (List.mem_filter.mpr ⟨hq, ?_⟩)
      rwa [← readText_eq_of_target heq]
  · intro hapart
    refine ⟨fun hmem => ?_, hreferences, nodup_targets_scriptFiles h directory, ?_⟩
    · rw [← List.map_append, ← List.filter_append] at hmem
      obtain ⟨p, hp, heq⟩ := List.mem_map.mp hmem
      obtain ⟨hp, hread⟩ := List.mem_filter.mp hp
      exact hapart.entry p hp hread heq
    · intro found hreference hscript
      obtain ⟨p, hp, rfl⟩ := List.mem_map.mp hreference
      obtain ⟨q, hq, heq⟩ := List.mem_map.mp hscript
      obtain ⟨hp, hread⟩ := List.mem_filter.mp hp
      exact hapart.scripts p hp q (List.mem_of_mem_filter hq) hread heq.symm

/-! ## Skills without links -/

/-- In a directory without links every path leads where its names say, if anywhere. -/
theorem location_of_mem_candidates (h : t.WellNamed) {directory p : Path}
    {place location : Location} (hplace : t.locate directory = .ok place)
    (hlinks : ∀ name, ¬ t.IsLink (place ++ [name])) (hp : p ∈ candidates t directory)
    (hlocate : t.locate p = .ok location) :
    ∃ names, Path.Spells directory names p ∧ location = place ++ names := by
  have hbelow {name : Text} (hname : Path.IsName name)
      (hmem : p ∈ t.filesBelow (directory.join name)) :
      ∃ names, Path.Spells directory names p ∧ location = place ++ names := by
    obtain ⟨inside, relative, hinside, hlies, -, rfl⟩ := FileTree.mem_filesBelow_iff.mp hmem
    obtain rfl := FileTree.locate_join hname (hlinks name) hplace hinside
    refine ⟨name :: relative, ⟨List.forall_mem_cons.mpr ⟨hname, hlies.isName h⟩, by simp, rfl⟩, ?_⟩
    rw [hlies.eq_of_locate h hinside hlocate, List.append_assoc]
    rfl
  simp only [candidates, List.mem_cons, List.mem_append] at hp
  rcases hp with rfl | (hnested | hsibling) | hscript
  · exact ⟨_, Path.spells_join directory (by decide),
      FileTree.locate_join (by decide) (hlinks _) hplace hlocate⟩
  · exact hbelow (by decide) (List.mem_of_mem_filter hnested)
  · obtain ⟨name, _, _, hin, -, -, rfl⟩ := mem_siblingReferences_iff.mp hsibling
    have hname : Path.IsName name := h.isName hin.isSome
    exact ⟨_, Path.spells_join directory hname,
      FileTree.locate_join hname (hlinks _) hplace hlocate⟩
  · exact hbelow (by decide) (List.mem_of_mem_filter hscript)

theorem keptApart_of_no_links (h : t.WellNamed) {directory : Path} {place : Location}
    (hplace : t.locate directory = .ok place) (hlinks : ∀ name, ¬ t.IsLink (place ++ [name])) :
    KeptApart t directory := by
  have hne {p q : Path} (hp : p ∈ candidates t directory) (hq : q ∈ candidates t directory)
      (hread : (t.readText p).isOk = true) (heq : target t p = target t q) : p.steps = q.steps := by
    obtain ⟨location, hlocate, hlocate'⟩ := exists_locate_of_target hread heq
    obtain ⟨names, hspells, hlocation⟩ := location_of_mem_candidates h hplace hlinks hp hlocate
    obtain ⟨names', hspells', hlocation'⟩ := location_of_mem_candidates h hplace hlinks hq hlocate'
    obtain rfl := List.append_cancel_left (hlocation.symm.trans hlocation')
    rw [hspells.path, hspells'.path]
  have hsublist := files_sublist_candidates (t := t) directory
  have hpairwise := (candidates_pairwise h directory).sublist hsublist
  obtain ⟨hentry, hothers⟩ := List.pairwise_cons.mp hpairwise
  obtain ⟨-, -, hscripts⟩ := List.pairwise_append.mp hothers
  constructor
  · intro p hp hread heq
    exact hentry p hp (hne (hsublist.subset (List.mem_cons_of_mem _ hp))
      (hsublist.subset List.mem_cons_self) hread heq).symm
  · intro p hp q hq hread heq
    exact hscripts p hp q hq (hne
      (hsublist.subset (List.mem_cons_of_mem _ (List.mem_append_left _ hp)))
      (hsublist.subset (List.mem_cons_of_mem _ (List.mem_append_right _ hq))) hread heq)

/-- The total is made of the listed files. No two of them are one file exactly when the references,
the scripts and the entry document are kept apart, as they are where no link lies in the skill
directory itself. -/
theorem listed_targets_distinct_iff (t : FileTree) (directory : Path) (entry : Text)
    (counter : Counter) (limits : Limits) (h : t.WellNamed) :
    let u := (analyze t directory entry counter limits).units
    u.files.map (·.file) = (listedFiles t directory).map (Path.label directory) ∧
    u.total = u.metadata + (u.files.map (·.units)).sum ∧
    (((listedFiles t directory).map (target t)).Nodup ↔ KeptApart t directory) ∧
    ∀ place, t.locate directory = .ok place → (∀ name, ¬ t.IsLink (place ++ [name])) →
      ((listedFiles t directory).map (target t)).Nodup :=
  ⟨map_file_analyze directory entry counter limits, total_analyze counter entry limits,
    nodup_targets_iff h directory, fun _ hplace hlinks =>
      (nodup_targets_iff h directory).mpr (keptApart_of_no_links h hplace hlinks)⟩

/-- A skill with a reference and a script, and what else there may be. -/
def scriptedSkill (others : List (Location × Node)) : FileTree where
  nodes :=
    [(["a".toList], .directory),
      (["a".toList, skillEntry.toList], .file (.text "---\nname: a\n---\nTwelve units".toList)),
      (["a".toList, "references".toList], .directory),
      (["a".toList, "references".toList, "x.md".toList], .file (.text "At length".toList)),
      (["a".toList, "scripts".toList], .directory),
      (["a".toList, "scripts".toList, "run.sh".toList], .file (.text "echo".toList))] ++ others
  base := []

theorem not_isLink_scriptedSkill (name : Text) :
    ¬ (scriptedSkill []).IsLink (["a".toList] ++ [name]) := by
  rintro ⟨target, hlink⟩
  rw [FileTree.node?, if_neg (by simp), List.lookup_eq_some_iff] at hlink
  obtain ⟨before, after, hnodes, -⟩ := hlink
  have hmem : (["a".toList] ++ [name], Node.link target) ∈ (scriptedSkill []).nodes := by
    rw [hnodes]
    simp
  simp [scriptedSkill] at hmem

/-- A skill without links, and one with a link to a reference, count each file once. -/
theorem scripted_and_shared_targets_distinct :
    (scriptedSkill []).WellNamed ∧ (scriptedSkill []).locate ⟨"/a".toList⟩ = .ok ["a".toList] ∧
    (∀ name, ¬ (scriptedSkill []).IsLink (["a".toList] ++ [name])) ∧
    ((listedFiles (scriptedSkill []) ⟨"/a".toList⟩).map
      (target (scriptedSkill []))).Nodup ∧
    sharedSkill.WellNamed ∧ KeptApart sharedSkill ⟨"/a".toList⟩ := by
  have hnames : (scriptedSkill []).WellNamed := by
    unfold FileTree.WellNamed
    decide
  have hnames' : sharedSkill.WellNamed := by
    unfold FileTree.WellNamed
    decide
  have hplace : (scriptedSkill []).locate ⟨"/a".toList⟩ = .ok ["a".toList] := by decide
  obtain ⟨-, -, -, hdistinct⟩ := listed_targets_distinct_iff (scriptedSkill []) ⟨"/a".toList⟩ []
    .approximate .standard hnames
  obtain ⟨-, -, hiff, -⟩ := listed_targets_distinct_iff sharedSkill ⟨"/a".toList⟩ []
    .approximate .standard hnames'
  have hlisted : listedFiles sharedSkill ⟨"/a".toList⟩ =
      [⟨"/a/SKILL.md".toList⟩, ⟨"/a/references/deep/c.md".toList⟩, ⟨"/a/d.md".toList⟩,
        ⟨"/a/scripts/run.sh".toList⟩] := by
    rw [listedFiles, files_sharedSkill.1, files_sharedSkill.2]
    decide
  refine ⟨hnames, hplace, not_isLink_scriptedSkill, hdistinct _ hplace not_isLink_scriptedSkill,
    hnames', hiff.mp ?_⟩
  rw [hlisted]
  decide

/-- A link to the entry document beside it is counted as a reference. -/
theorem linked_entry_counted_as_reference :
    let t := scriptedSkill [(["a".toList, "alias.md".toList], .link ⟨skillEntry.toList⟩)]
    let u := (analyze t ⟨"/a".toList⟩ "---\nname: a\n---\nTwelve units".toList .approximate
      .standard).units
    t.WellNamed ∧
    u.files.map (fun f => (String.ofList f.file, f.units, f.role)) =
      [("SKILL.md", 3, .skill), ("references/x.md", 2, .reference), ("alias.md", 7, .reference),
        ("scripts/run.sh", 1, .script)] ∧
    target t ⟨"/a/alias.md".toList⟩ = target t (entryPath ⟨"/a".toList⟩) ∧
    ¬ ∀ (t : FileTree) (directory : Path), t.WellNamed →
      ((listedFiles t directory).map (target t)).Nodup := by
  intro t u
  have hnames : t.WellNamed := by
    unfold FileTree.WellNamed
    decide
  have hreferences : referenceFiles t ⟨"/a".toList⟩ =
      [⟨"/a/references/x.md".toList⟩, ⟨"/a/alias.md".toList⟩] := by
    simp only [referenceFiles, FileTree.filesBelow, FileTree.below, FileTree.entries,
      FileTree.names, FileTree.mergeSort_inOrder]
    decide +kernel
  have hscripts : scriptFiles t ⟨"/a".toList⟩ = [⟨"/a/scripts/run.sh".toList⟩] := by
    simp only [scriptFiles, FileTree.filesBelow, FileTree.below, FileTree.mergeSort_inOrder]
    decide +kernel
  refine ⟨hnames, ?_, by decide, fun hall => ?_⟩
  · simp only [u, analyze, hreferences, hscripts]
    decide +kernel
  · have hdistinct := hall t ⟨"/a".toList⟩ hnames
    rw [listedFiles, hreferences, hscripts] at hdistinct
    exact absurd hdistinct (by decide)

end PluginLint.SkillBudget
