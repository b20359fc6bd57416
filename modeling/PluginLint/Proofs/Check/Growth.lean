import PluginLint.Proofs.Check.BodyBands
import PluginLint.Proofs.Check.BudgetNotes
import PluginLint.Proofs.Document.Sections
import PluginLint.Proofs.Text.Search

/-!
# Longer documents

What is written behind a closed header block only ever adds to the body. The closing delimiter is
the first one, so it stays where it is (`Document.sections?_append`), and trimming leaves all that
it left before (`Text.trim_prefix_trim_append`). So the header keeps its fields, the body grows, and
the budget of the skill gets no better: its status and the issue on its body weigh at least as much
as before, whatever the limits (`growth_never_rewarded`).
-/
namespace PluginLint

/-! ## Documents -/

namespace Text

theorem trimEnd_prefix_trimEnd_append (s t : Text) : trimEnd s <+: trimEnd (s ++ t) := by
  by_cases ht : isBlankLine t = true
  · rw [trimEnd_append_blank ht]
  · have hne : t.reverse.dropWhile isBlank ≠ [] := by
      rw [Ne, List.dropWhile_eq_nil_iff]
      exact fun h => ht (List.all_eq_true.mpr fun c hc => h c (List.mem_reverse.mpr hc))
    have happend : trimEnd (s ++ t) = s ++ trimEnd t := by
      simp [trimEnd, List.dropWhile_append, hne]
    rw [happend]
    exact (List.rdropWhile_prefix isBlank s).trans (List.prefix_append s (trimEnd t))

/-- What trimming leaves of a text it leaves of every longer one. -/
theorem trim_prefix_trim_append (s t : Text) : trim s <+: trim (s ++ t) := by
  by_cases hs : isBlankLine s = true
  · rw [trim_eq_nil_iff.mpr hs]
    exact List.nil_prefix
  · have hne : trimStart s ≠ [] := fun h => hs (trimStart_eq_nil_iff.mp h)
    have hstart : trimStart (s ++ t) = trimStart s ++ t := by
      simp [trimStart, List.dropWhile_append, trimStart.eq_1 s ▸ hne]
    rw [trim, trim, hstart]
    exact trimEnd_prefix_trimEnd_append (trimStart s) t

end Text

namespace Document

variable {entry added : Text}

theorem sections?_append {block after : Text} (h : sections? entry = some (block, after))
    (added : Text) : sections? (entry ++ added) = some (block, after ++ added) := by
  obtain ⟨rest, hrest⟩ : delimiter <+: entry := by
    rw [append_of_sections h, List.append_assoc, List.append_assoc]
    exact List.prefix_append _ _
  rw [← hrest, sections?_of_opened] at h
  rw [← hrest, List.append_assoc, sections?_of_opened]
  exact Text.cut?_append h added

/-- Behind a closed header block the header stays and the body grows. -/
theorem parse_append (hclosed : (sections? entry).isSome = true) (added : Text) :
    (parse (entry ++ added)).header = (parse entry).header ∧
      (parse entry).body <+: (parse (entry ++ added)).body := by
  obtain ⟨⟨block, after⟩, hsections⟩ := Option.isSome_iff_exists.mp hclosed
  rw [parse_of_sections hsections, parse_of_sections (sections?_append hsections added)]
  exact ⟨rfl, Text.trim_prefix_trim_append after added⟩

end Document

/-! ## Budgets -/

/-- Whether a second budget is no better than a first: the metadata the same, the body no shorter,
the status no lower. -/
structure SkillBudget.NoBetter (b b' : SkillBudget) : Prop where
  metadata : b'.units.metadata = b.units.metadata
  body : b.units.body ≤ b'.units.body
  status : b.status.rank ≤ b'.status.rank

theorem Counter.approximate_mono {s t : Text} (h : s <+: t) :
    Counter.approximate.count s ≤ Counter.approximate.count t :=
  Nat.div_le_div_right h.length_le

theorem SkillBudget.noBetter_of_append {entry : Text}
    (hclosed : (Document.sections? entry).isSome = true) (added : Text) (t t' : FileTree)
    (directory directory' : Path) (limits : Limits) :
    (analyze t directory entry .approximate limits).NoBetter
      (analyze t' directory' (entry ++ added) .approximate limits) := by
  obtain ⟨hheader, hbody⟩ := Document.parse_append hclosed added
  have hle := Counter.approximate_mono hbody
  refine ⟨?_, hle, ?_⟩
  · simp only [analyze, hheader]
  · rw [TokensCheck.status_eq rfl, TokensCheck.status_eq rfl]
    exact BodyBand.status_rank_le (BodyBand.rank_ofBody_le hle (BodyBand.limitsLowered_refl limits))

/-! ## Issues on bodies -/

theorem Severity.eq_ok_of_rank_le {severity : Severity} (h : severity.rank ≤ Severity.ok.rank) :
    severity = .ok := by
  revert h
  cases severity <;> decide

namespace TokensCheck

variable {b b' : SkillBudget} {limits : Limits}

theorem severity_bodyRule_le (hb : b.status = BudgetStatus.ofBody b.units.body limits)
    (hb' : b'.status = BudgetStatus.ofBody b'.units.body limits)
    (h : b.units.body ≤ b'.units.body) (file file' : Text) :
    (bodyRule file b limits).severity.rank ≤ (bodyRule file' b' limits).severity.rank := by
  rw [severity_bodyRule file hb, severity_bodyRule file' hb']
  exact BodyBand.rank_ofBody_le h (BodyBand.limitsLowered_refl limits)

/-- Only the issue on the body of a skill carries figures. -/
theorem eq_bodyRule_of_details {file : Text} {verbose : Bool} {i : Issue}
    (hi : i ∈ budgetRules file b limits verbose) (hdetails : i.details ≠ none) :
    i = bodyRule file b limits := by
  simp only [budgetRules, List.mem_append, List.mem_singleton] at hi
  rcases hi with ((hbody | hmetadata) | hread) | hfigures
  · exact hbody
  · unfold metadataRule at hmetadata
    split at hmetadata
    · obtain rfl := List.mem_singleton.mp hmetadata
      exact absurd rfl hdetails
    · cases hmetadata
  · obtain ⟨⟨label, fault⟩, -, rfl⟩ := List.mem_map.mp hread
    exact absurd rfl hdetails
  · obtain ⟨message, rfl⟩ := exists_message_of_breakdown (List.mem_ite_nil_right.mp hfigures).2
    exact absurd rfl hdetails

/-- The issues that are recorded for a skill whose entry document can be read. -/
theorem mem_recorded_iff {s : Subject} {skill : Component} {b : SkillBudget}
    (hb : budget? s skill = some b) {i : Issue} :
    i ∈ recorded s skill ↔ ∃ found ∈ budgetRules skill.label b s.limits s.verbose,
      (s.verbose = true ∨ found.severity ≠ .ok) ∧ i = found.stamp .tokens := by
  have hrules : skillRules s skill = budgetRules skill.label b s.limits s.verbose := by
    unfold skillRules
    cases hcontent : skill.content with
    | error fault => simp [budget?, hcontent] at hb
    | ok entry => simp only [hb]
  rw [recorded, Check.record_eq, hrules]
  simp only [List.mem_map, List.mem_filter, Bool.or_eq_true, decide_eq_true_eq, and_assoc]
  exact exists_congr fun found => and_congr_right fun _ => and_congr_right fun _ => eq_comm

/-- The issue on the body of a skill, as it is recorded. -/
theorem exists_recorded_bodyRule {s : Subject} {skill : Component} {b : SkillBudget}
    (hb : budget? s skill = some b)
    (h : s.verbose = true ∨ (bodyRule skill.label b s.limits).severity ≠ .ok) :
    ∃ i ∈ recorded s skill, i.details ≠ none ∧
      i.severity = (bodyRule skill.label b s.limits).severity := by
  have hrule : bodyRule skill.label b s.limits ∈ budgetRules skill.label b s.limits s.verbose := by
    simp [budgetRules]
  exact ⟨_, (mem_recorded_iff hb).mpr ⟨_, hrule, h, rfl⟩, Option.some_ne_none _, rfl⟩

/-- An issue with figures that is recorded for a skill is outweighed by one that is recorded for a
skill with a budget that is no better. -/
theorem exists_recorded_of_noBetter {s s' : Subject} {skill skill' : Component} {b b' : SkillBudget}
    (hb : budget? s skill = some b) (hb' : budget? s' skill' = some b')
    (hverbose : s'.verbose = s.verbose)
    (hle : (bodyRule skill.label b s.limits).severity.rank ≤
      (bodyRule skill'.label b' s'.limits).severity.rank)
    {i : Issue} (hi : i ∈ recorded s skill) (hdetails : i.details ≠ none) :
    ∃ i' ∈ recorded s' skill', i'.details ≠ none ∧ i.severity.rank ≤ i'.severity.rank := by
  obtain ⟨found, hfound, hkept, rfl⟩ := (mem_recorded_iff hb).mp hi
  obtain rfl := eq_bodyRule_of_details hfound hdetails
  have hkept' : s'.verbose = true ∨ (bodyRule skill'.label b' s'.limits).severity ≠ .ok := by
    rw [hverbose]
    refine hkept.imp_right fun hne hok => hne ?_
    rw [hok] at hle
    exact Severity.eq_ok_of_rank_le hle
  obtain ⟨i', hi', hdetails', hseverity⟩ := exists_recorded_bodyRule hb' hkept'
  exact ⟨i', hi', hdetails', hseverity ▸ hle⟩

end TokensCheck

/-- A skill whose entry document can be read has a budget. -/
theorem TokensCheck.budget?_eq_analyze {t : FileTree} {root : Path} {skill : Component}
    {entry : Text} (limits : Limits) (counter : Counter) (verbose : Bool)
    (hskill : skill ∈ (discover t root).skills) (hentry : skill.content = .ok entry) :
    ∃ directory, budget? (Subject.ofRoot t root limits counter verbose) skill =
      some (SkillBudget.analyze t directory entry counter limits) := by
  obtain ⟨directory, hdirectory⟩ := Option.isSome_iff_exists.mp (skillDirectory?_isSome hskill)
  refine ⟨directory, ?_⟩
  simp only [budget?, hentry, hdirectory]
  rfl

/-- Text that is appended to an entry document with a closed header block changes nothing in its
header and never makes its budget better, whatever the limits: the body counts at least as much, the
status is at least as severe, and so is the issue on the body, by the rule and as the tokens check
records it for a skill. The rest of the trees and what they lie in is free. -/
theorem growth_never_rewarded (entry added : Text) (limits : Limits)
    (hclosed : (Document.sections? entry).isSome = true) :
    (Document.parse (entry ++ added)).header = (Document.parse entry).header ∧
    (∀ (t t' : FileTree) (directory directory' : Path),
      let b := SkillBudget.analyze t directory entry .approximate limits
      let b' := SkillBudget.analyze t' directory' (entry ++ added) .approximate limits
      b.NoBetter b' ∧ ∀ file file' : Text,
        (TokensCheck.bodyRule file b limits).severity.rank ≤
          (TokensCheck.bodyRule file' b' limits).severity.rank) ∧
    ∀ (t t' : FileTree) (root root' : Path) (verbose : Bool),
      ∀ skill ∈ (discover t root).skills, ∀ skill' ∈ (discover t' root').skills,
      skill.content = .ok entry → skill'.content = .ok (entry ++ added) →
      ∀ i ∈ TokensCheck.recorded (Subject.ofRoot t root limits .approximate verbose) skill,
        i.details ≠ none →
        ∃ i' ∈ TokensCheck.recorded (Subject.ofRoot t' root' limits .approximate verbose) skill',
          i'.details ≠ none ∧ i.severity.rank ≤ i'.severity.rank := by
  have hbudgets (t t' : FileTree) (directory directory' : Path) :
      let b := SkillBudget.analyze t directory entry .approximate limits
      let b' := SkillBudget.analyze t' directory' (entry ++ added) .approximate limits
      b.NoBetter b' ∧ ∀ file file' : Text,
        (TokensCheck.bodyRule file b limits).severity.rank ≤
          (TokensCheck.bodyRule file' b' limits).severity.rank := by
    intro b b'
    have hworse : b.NoBetter b' :=
      SkillBudget.noBetter_of_append hclosed added t t' directory directory' limits
    exact ⟨hworse, TokensCheck.severity_bodyRule_le rfl rfl hworse.body⟩
  refine ⟨(Document.parse_append hclosed added).1, hbudgets, ?_⟩
  intro t t' root root' verbose skill hskill skill' hskill' hentry hentry' i hi hdetails
  obtain ⟨directory, hb⟩ :=
    TokensCheck.budget?_eq_analyze limits .approximate verbose hskill hentry
  obtain ⟨directory', hb'⟩ :=
    TokensCheck.budget?_eq_analyze limits .approximate verbose hskill' hentry'
  exact TokensCheck.exists_recorded_of_noBetter hb hb' rfl
    ((hbudgets t t' directory directory').2 skill.label skill'.label) hi hdetails

/-- A plugin with one skill. -/
def skillPlugin (entry : Text) : FileTree where
  nodes :=
    [(["p".toList], .directory), (["p".toList, "skills".toList], .directory),
      (["p".toList, "skills".toList, "a".toList], .directory),
      (["p".toList, "skills".toList, "a".toList, skillEntry.toList], .file (.text entry))]
  base := []

/-- The entry document of the skill. -/
def skillDocument (entry : Text) : Component :=
  ⟨.skill, ⟨"/p/skills/a/SKILL.md".toList⟩, "skills/a/SKILL.md".toList, .ok entry⟩

theorem mem_skills_skillPlugin (entry : Text) :
    skillDocument entry ∈ (discover (skillPlugin entry) ⟨"/p".toList⟩).skills := by
  have hskills : (discover (skillPlugin entry) ⟨"/p".toList⟩).skills = [skillDocument entry] := by
    simp only [discover, skillDocuments, skillDirectories, FileTree.entries, FileTree.names,
      FileTree.mergeSort_inOrder]
    rfl
  rw [hskills]
  exact List.mem_singleton.mpr rfl

/-- A body that is too long becomes critical with what is appended to it, and the check says so. -/
theorem grown_skill_weighs_more :
    let entry := "---\nname: a\n---\nTwelve units".toList
    let grown := entry ++ " and nineteen behind".toList
    let recorded (text : Text) := TokensCheck.recorded (Subject.ofRoot (skillPlugin text)
      ⟨"/p".toList⟩ ⟨50, 100, 1, 2, 4⟩ .approximate false) (skillDocument text)
    (Document.sections? entry).isSome = true ∧
      (Document.parse grown).header = (Document.parse entry).header ∧
      (∃ i ∈ recorded entry, i.details ≠ none ∧ i.severity = .should) ∧
      ∃ i ∈ recorded grown, i.details ≠ none ∧ Severity.should.rank ≤ i.severity.rank := by
  intro entry grown recorded
  have hclosed : (Document.sections? entry).isSome = true := by decide
  have hfound : ∃ i ∈ recorded entry, i.details ≠ none ∧ i.severity = .should := by
    obtain ⟨directory, hb⟩ := TokensCheck.budget?_eq_analyze ⟨50, 100, 1, 2, 4⟩ .approximate
      false (mem_skills_skillPlugin entry) rfl
    have hseverity : (TokensCheck.bodyRule (skillDocument entry).label
        (SkillBudget.analyze (skillPlugin entry) directory entry .approximate ⟨50, 100, 1, 2, 4⟩)
        ⟨50, 100, 1, 2, 4⟩).severity = .should := by
      have hbody : Counter.approximate.count (Document.parse entry).body = 3 := by decide
      rw [TokensCheck.severity_bodyRule _ rfl]
      exact congrArg (fun body => (BodyBand.ofBody ⟨50, 100, 1, 2, 4⟩ body).severity) hbody
    obtain ⟨i, hi, hdetails, hshould⟩ := TokensCheck.exists_recorded_bodyRule hb
      (.inr fun hok => by cases hseverity.symm.trans hok)
    exact ⟨i, hi, hdetails, hshould.trans hseverity⟩
  obtain ⟨hheader, -, hrecorded⟩ := growth_never_rewarded entry " and nineteen behind".toList
    ⟨50, 100, 1, 2, 4⟩ hclosed
  refine ⟨hclosed, hheader, hfound, ?_⟩
  obtain ⟨i, hi, hdetails, hshould⟩ := hfound
  rw [← hshould]
  exact hrecorded (skillPlugin entry) (skillPlugin grown) ⟨"/p".toList⟩ ⟨"/p".toList⟩ false
    (skillDocument entry) (mem_skills_skillPlugin entry) (skillDocument grown)
    (mem_skills_skillPlugin grown) rfl rfl i hi hdetails

end PluginLint
