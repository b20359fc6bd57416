import Mathlib.Data.List.Basic
import PluginLint.Check.Tokens
import PluginLint.Proofs.FileTree.Path

/-!
# What the tokens check finds

The three outcomes of the check, and what its issues say of severities: figures are passing details,
and the band of a body is a requirement exactly when the body is critical. A plugin without a
directory for skills has no skills, so the check passes over none that was discovered.
-/
namespace PluginLint

/-- Nothing is listed below a path that leads to no directory. -/
theorem FileTree.entries_of_not_directory {t : FileTree} {p : Path} (h : t.isDirectory p = false) :
    t.entries p = [] := by
  unfold FileTree.isDirectory FileTree.find? at h
  unfold FileTree.entries
  cases hp : t.locate p with
  | error fault => rfl
  | ok place =>
    have hplace : t.node? place ≠ some .directory := by
      simpa [hp] using h
    simp [hplace]

/-- A skill that is discovered lies below a directory for skills. -/
theorem isDirectory_of_mem_skills {t : FileTree} {root : Path} {skill : Component}
    (h : skill ∈ (discover t root).skills) : t.isDirectory (kindDirectory root .skill) = true := by
  by_contra hno
  have hentries := FileTree.entries_of_not_directory (Bool.eq_false_iff.mpr hno)
  simp [discover, skillDocuments, skillDirectories, hentries] at h

/-- A discovered skill is the entry document of its directory. -/
theorem skillDirectory?_isSome {t : FileTree} {root : Path} {skill : Component}
    (h : skill ∈ (discover t root).skills) : skill.skillDirectory?.isSome = true := by
  obtain ⟨entry, hentry, rfl⟩ := List.mem_map.mp h
  obtain ⟨directory, -, rfl⟩ := List.mem_map.mp (List.mem_of_mem_filter hentry)
  have hslash : '/' ∉ skillEntry.toList := by decide
  obtain ⟨before, hsegments, -⟩ := directory.segments_join hslash
  exact Path.parent?_isSome hsegments ⟨by decide, by decide⟩

theorem BudgetStatus.ofBody_eq_critical_iff {body : Nat} {limits : Limits} :
    ofBody body limits = .critical ↔ limits.bodyCritical < body := by
  unfold ofBody
  split
  · next habove => simp [habove]
  · next hbelow => split <;> simp [hbelow]

namespace TokensCheck

variable {s : Subject}

theorem inspect_of_no_directory (h : s.tree.isDirectory (kindDirectory s.root .skill) = false) :
    inspect s = ⟨[plain .may "No skills/ directory"], false⟩ := by
  simp [inspect, h]

theorem inspect_of_no_skills (hd : s.tree.isDirectory (kindDirectory s.root .skill) = true)
    (h : s.components.skills = []) : inspect s = ⟨[noSkills s], false⟩ := by
  simp [inspect, hd, h]

theorem inspect_of_skills (hd : s.tree.isDirectory (kindDirectory s.root .skill) = true)
    (h : s.components.skills ≠ []) :
    inspect s =
      ⟨s.components.skills.flatMap (skillRules s), s.components.skills.any (isCritical s)⟩ := by
  simp [inspect, hd, h]

theorem exists_message_of_fileLines {files : List FileUnits} {i : Issue}
    (h : i ∈ fileLines files) : ∃ message : Text, i = { severity := .ok, message := message } := by
  obtain ⟨f, -, rfl⟩ := List.mem_map.mp h
  exact ⟨_, rfl⟩

/-- Every figure of a skill is a passing detail that says nothing but its message. -/
theorem exists_message_of_breakdown {u : Units} {limits : Limits} {i : Issue}
    (h : i ∈ breakdown u limits) :
    ∃ message : Text, i = { severity := .ok, message := message } := by
  simp only [breakdown, List.mem_append, List.mem_cons, List.not_mem_nil, or_false] at h
  rcases h with ((head | references) | scripts) | rfl
  · rcases head with rfl | rfl | rfl <;> exact ⟨_, rfl⟩
  · exact exists_message_of_fileLines references
  · split at scripts
    · cases scripts
    · rcases List.mem_cons.mp scripts with rfl | files
      · exact ⟨_, rfl⟩
      · exact exists_message_of_fileLines files
  · exact ⟨_, rfl⟩

theorem severity_of_breakdown {u : Units} {limits : Limits} {i : Issue}
    (h : i ∈ breakdown u limits) : i.severity = .ok := by
  obtain ⟨message, rfl⟩ := exists_message_of_breakdown h
  rfl

/-- A skill is critical when its entry document can be read and has a body above the limit. -/
theorem isCritical_iff {skill : Component} (hdir : skill.skillDirectory?.isSome = true) :
    isCritical s skill = true ↔ ∃ entry, skill.content = .ok entry ∧
      s.limits.bodyCritical < s.counter.count (Document.parse entry).body := by
  obtain ⟨directory, hdirectory⟩ := Option.isSome_iff_exists.mp hdir
  cases hcontent : skill.content with
  | error fault => simp [isCritical, budget?, hcontent]
  | ok entry =>
    simp only [isCritical, budget?, hcontent, hdirectory, Option.any_some, decide_eq_true_eq,
      SkillBudget.analyze, BudgetStatus.ofBody_eq_critical_iff, Except.ok.injEq, exists_eq_left']

theorem severity_of_critical {file : Text} {b : SkillBudget} {limits : Limits}
    (h : b.status = .critical) : (bodyRule file b limits).severity = .must := by
  simp [bodyRule, bandIssue, h, plain]

/-- What is critical is reported as a violated requirement. -/
theorem exists_must_of_isCritical {skill : Component} (h : isCritical s skill = true) :
    ∃ i ∈ skillRules s skill, i.severity = .must := by
  unfold isCritical at h
  cases hb : budget? s skill with
  | none => simp [hb] at h
  | some b =>
    have hstatus : b.status = .critical := by simpa [hb] using h
    refine ⟨bodyRule skill.label b s.limits, ?_, severity_of_critical hstatus⟩
    cases hcontent : skill.content with
    | error fault => simp [budget?, hcontent] at hb
    | ok entry => simp [skillRules, hcontent, hb, budgetRules]

/-- The check marks a plugin as critical only beside a violated requirement. -/
theorem exists_must_of_critical (h : (inspect s).critical = true) :
    ∃ i ∈ (inspect s).issues, i.severity = .must := by
  cases hd : s.tree.isDirectory (kindDirectory s.root .skill) with
  | false => simp [inspect_of_no_directory hd] at h
  | true =>
    by_cases hs : s.components.skills = []
    · simp [inspect_of_no_skills hd hs] at h
    · rw [inspect_of_skills hd hs] at h ⊢
      obtain ⟨skill, hskill, hcritical⟩ := List.any_eq_true.mp h
      obtain ⟨i, hi, hmust⟩ := exists_must_of_isCritical hcritical
      exact ⟨i, List.mem_flatMap.mpr ⟨skill, hskill, hi⟩, hmust⟩

/-- A plugin is critical when one of the skills discovered in it is. -/
theorem critical_iff {tree : FileTree} {root : Path} {limits : Limits} {counter : Counter}
    {verbose : Bool} :
    (inspect (Subject.ofRoot tree root limits counter verbose)).critical = true ↔
      ∃ skill ∈ (discover tree root).skills, ∃ entry, skill.content = .ok entry ∧
        limits.bodyCritical < counter.count (Document.parse entry).body := by
  have hskills : (inspect (Subject.ofRoot tree root limits counter verbose)).critical = true ↔
      ∃ skill ∈ (discover tree root).skills,
        isCritical (Subject.ofRoot tree root limits counter verbose) skill = true := by
    cases hd : tree.isDirectory (kindDirectory root .skill) with
    | false =>
      rw [inspect_of_no_directory hd]
      refine ⟨fun h => absurd h Bool.false_ne_true, ?_⟩
      rintro ⟨skill, hskill, -⟩
      exact absurd (isDirectory_of_mem_skills hskill) (by simp [hd])
    | true =>
      by_cases hs : (discover tree root).skills = []
      · rw [inspect_of_no_skills hd hs, hs]
        simp
      · rw [inspect_of_skills hd hs]
        exact List.any_eq_true
  rw [hskills]
  constructor
  · rintro ⟨skill, hskill, hcritical⟩
    exact ⟨skill, hskill, (isCritical_iff (skillDirectory?_isSome hskill)).mp hcritical⟩
  · rintro ⟨skill, hskill, hentry⟩
    exact ⟨skill, hskill, (isCritical_iff (skillDirectory?_isSome hskill)).mpr hentry⟩

end TokensCheck
end PluginLint
