import Mathlib.Data.List.Basic
import Mathlib.Data.List.Forall2
import PluginLint.Proofs.Check.ReferenceVolume
import PluginLint.Proofs.Check.Tokens
import PluginLint.Proofs.Report.Recording

/-!
# Notes and issues on a budget

What is wrong with the budget of a skill is said twice, in the notes of the budget report and in the
issues of the tokens check, by rules that share no code. There are five things to say (`Remark`),
and each is known from the words of a note as well as from the severity and the words of an issue.
The two say the same for every budget and all limits: apart from the note on thin references and
from passing details, each note has one issue that makes the same remark, and the files that cannot
be read come in the same order (`notes_match_issues`).
-/
namespace PluginLint

/-! ## Remarks -/

/-- What there is to say on the budget of a skill. -/
inductive Remark where
  | longDescription
  | criticalBody
  | highBody
  | bodyAboveTarget
  | unreadableFile
  deriving DecidableEq, Repr

namespace Remark

/-- How a note on the body starts. -/
def bodyStart : String := "Tier 2 (SKILL.md): "

/-- How a note starts that makes a remark. -/
def noteStart : Remark → String
  | .longDescription => "Tier 1 (Metadata): "
  | .criticalBody => bodyStart
  | .highBody => bodyStart
  | .bodyAboveTarget => bodyStart
  | .unreadableFile => "Cannot read "

/-- How such a note goes on behind the count, if there is one. -/
def noteWords : Remark → String
  | .longDescription => " tokens exceeds "
  | .criticalBody => " tokens critically exceeds "
  | .highBody => " tokens exceeds "
  | .bodyAboveTarget => " tokens above "
  | .unreadableFile => ""

/-- The severity of an issue that makes a remark. -/
def severity : Remark → Severity
  | .longDescription => .should
  | .criticalBody => .must
  | .highBody => .should
  | .bodyAboveTarget => .may
  | .unreadableFile => .must

/-- How the message of such an issue starts. -/
def message : Remark → String
  | .longDescription => "Description too long: "
  | .criticalBody => "Token budget exceeded: "
  | .highBody => "Token count high: "
  | .bodyAboveTarget => "Token count above target: "
  | .unreadableFile => "Cannot read file"

def IsNote (r : Remark) (note : String) : Prop :=
  r.noteStart.toList <+: note.toList ∧
    r.noteWords.toList <+: (note.toList.drop r.noteStart.toList.length).dropWhile Char.isDigit

def IsIssue (r : Remark) (i : Issue) : Prop :=
  i.severity = r.severity ∧ r.message.toList <+: i.message

instance (r : Remark) (note : String) : Decidable (r.IsNote note) :=
  inferInstanceAs (Decidable (_ ∧ _))

instance (r : Remark) (i : Issue) : Decidable (r.IsIssue i) :=
  inferInstanceAs (Decidable (_ ∧ _))

/-- Whether a note and an issue make the same remark. -/
def Same (note : String) (i : Issue) : Prop := ∃ r : Remark, r.IsNote note ∧ r.IsIssue i

/-- Whether a note and an issue make the same remark, and one on the skill itself. -/
def SameOnSkill (note : String) (i : Issue) : Prop :=
  ∃ r : Remark, r ≠ .unreadableFile ∧ r.IsNote note ∧ r.IsIssue i

end Remark

/-- Whether a note is on thin references. -/
def IsThinNote (note : String) : Prop := "Tier 3 references thin".toList <+: note.toList

instance (note : String) : Decidable (IsThinNote note) := inferInstanceAs (Decidable (_ <+: _))

namespace Remark

variable {r r' : Remark} {note : String} {i : Issue}

/-- Where one start of a text is known, another is a start of it, unless it is longer. -/
theorem prefix_iff_of_prefix {known start s : Text} (h : known <+: s)
    (hlonger : known <+: start → start <+: known) : start <+: s ↔ start <+: known := by
  constructor
  · intro hstart
    rcases List.prefix_or_prefix_of_prefix h hstart with hknown | hknown
    · exact hlonger hknown
    · exact hknown
  · exact fun hstart => hstart.trans h

theorem noteStart_eq_of_comparable
    (h : r.noteStart.toList <+: r'.noteStart.toList ∨ r'.noteStart.toList <+: r.noteStart.toList) :
    r.noteStart = r'.noteStart := by
  revert h
  cases r <;> cases r' <;> decide

theorem eq_of_comparable_words (hstart : r.noteStart = r'.noteStart)
    (h : r.noteWords.toList <+: r'.noteWords.toList ∨
      r'.noteWords.toList <+: r.noteWords.toList) : r = r' := by
  revert hstart h
  cases r <;> cases r' <;> decide

/-- A note makes one remark. -/
theorem IsNote.unique (h : r.IsNote note) (h' : r'.IsNote note) : r = r' := by
  obtain ⟨hstart, hwords⟩ := h
  obtain ⟨hstart', hwords'⟩ := h'
  have hsame : r.noteStart = r'.noteStart :=
    noteStart_eq_of_comparable (List.prefix_or_prefix_of_prefix hstart hstart')
  rw [← hsame] at hwords'
  exact eq_of_comparable_words hsame (List.prefix_or_prefix_of_prefix hwords hwords')

theorem IsNote.not_thin (h : r.IsNote note) : ¬ IsThinNote note := by
  intro hthin
  have hcomparable := List.prefix_or_prefix_of_prefix h.1 hthin
  revert hcomparable
  cases r <;> decide

theorem eq_of_comparable_messages
    (h : r.message.toList <+: r'.message.toList ∨ r'.message.toList <+: r.message.toList) :
    r = r' := by
  revert h
  cases r <;> cases r' <;> decide

/-- An issue makes one remark. -/
theorem IsIssue.unique (h : r.IsIssue i) (h' : r'.IsIssue i) : r = r' :=
  eq_of_comparable_messages (List.prefix_or_prefix_of_prefix h.2 h'.2)

theorem IsIssue.severity_ne_ok (h : r.IsIssue i) : i.severity ≠ .ok := by
  rw [h.1]
  cases r <;> decide

/-- A note with a count makes a remark by the words behind it. -/
theorem isNote_of_count (units : Nat) (hblank : r.noteWords.toList.head? = some ' ')
    (h : r.noteStart.toList ++ (Nat.toDigits 10 units ++ r.noteWords.toList) <+: note.toList) :
    r.IsNote note := by
  have hdigits : ∀ c ∈ Nat.toDigits 10 units, c.isDigit = true :=
    fun c hc => Nat.isDigit_of_mem_toDigits (by decide) (by decide) hc
  obtain ⟨words, hwords⟩ := List.head?_eq_some_iff.mp hblank
  obtain ⟨rest, hrest⟩ := h
  unfold IsNote
  rw [← hrest, List.append_assoc]
  constructor
  · exact List.prefix_append _ _
  · rw [List.drop_left, List.append_assoc, List.dropWhile_append_of_pos hdigits, hwords,
      List.cons_append, List.dropWhile_cons_of_neg (by decide)]
    exact List.prefix_append (' ' :: words) rest

section Matched

variable {notes : List String} {issues : List Issue}

/-- Among notes and issues that are matched one to one, what is asked of a note is found when what
is asked of its issue is. -/
theorem exists_mem_iff {p : String → Prop} {q : Issue → Prop}
    (h : List.Forall₂ Same notes issues) (hpq : ∀ note i, Same note i → (p note ↔ q i)) :
    (∃ note ∈ notes, p note) ↔ ∃ i ∈ issues, q i := by
  induction h with
  | nil => simp
  | @cons note i _ _ hsame _ ih =>
    rw [List.exists_mem_cons_iff, List.exists_mem_cons_iff, hpq note i hsame, ih]

theorem Same.isNote_iff (h : Same note i) (r : Remark) : r.IsNote note ↔ r.IsIssue i := by
  obtain ⟨r', hnote, hissue⟩ := h
  constructor
  · intro hr
    rwa [hr.unique hnote]
  · intro hr
    rwa [hr.unique hissue]

/-- A note on the body goes with an issue on the body. -/
theorem Same.onBody_iff (h : Same note i) :
    bodyStart.toList <+: note.toList ↔ "Token ".toList <+: i.message := by
  obtain ⟨r, ⟨hstart, -⟩, -, hmessage⟩ := h
  have hnote : bodyStart.toList <+: note.toList ↔ bodyStart.toList <+: r.noteStart.toList :=
    prefix_iff_of_prefix hstart (by cases r <;> decide)
  have hissue : "Token ".toList <+: i.message ↔ "Token ".toList <+: r.message.toList :=
    prefix_iff_of_prefix hmessage (by cases r <;> decide)
  rw [hnote, hissue]
  cases r <;> decide

theorem same_of_forall₂ (h : List.Forall₂ SameOnSkill notes issues) :
    List.Forall₂ Same notes issues :=
  h.imp fun _ _ ⟨r, _, hnote, hissue⟩ => ⟨r, hnote, hissue⟩

/-- A note that is matched is not on thin references. -/
theorem filter_not_thin (h : List.Forall₂ Same notes issues) :
    (notes.filter fun note => ¬ IsThinNote note) = notes := by
  induction h with
  | nil => rfl
  | cons hsame _ ih =>
    obtain ⟨_, hnote, -⟩ := hsame
    rw [List.filter_cons_of_pos, ih]
    exact decide_eq_true hnote.not_thin

/-- An issue that is matched is more than a passing detail. -/
theorem filter_reported (h : List.Forall₂ Same notes issues) :
    (issues.filter fun i => i.severity ≠ .ok) = issues := by
  induction h with
  | nil => rfl
  | cons hsame _ ih =>
    obtain ⟨_, -, hissue⟩ := hsame
    rw [List.filter_cons_of_pos, ih]
    exact decide_eq_true hissue.severity_ne_ok

/-- No remark on the skill itself is one on a file. -/
theorem filter_unreadable_eq_nil (h : List.Forall₂ SameOnSkill notes issues) :
    (notes.filter fun note => Remark.unreadableFile.IsNote note) = [] ∧
      (issues.filter fun i => Remark.unreadableFile.IsIssue i) = [] := by
  induction h with
  | nil => exact ⟨rfl, rfl⟩
  | cons hsame _ ih =>
    obtain ⟨r, hne, hnote, hissue⟩ := hsame
    obtain ⟨hnotes, hissues⟩ := ih
    constructor
    · rw [List.filter_cons_of_neg, hnotes]
      exact fun hfile => hne (hnote.unique (of_decide_eq_true hfile))
    · rw [List.filter_cons_of_neg, hissues]
      exact fun hfile => hne (hissue.unique (of_decide_eq_true hfile))

end Matched

end Remark

/-! ## The parts of a budget -/

namespace TokensCheck

open Remark

variable (file : Text) (b : SkillBudget) (limits : Limits)

/-- A long description is noted and reported, or neither. -/
theorem forall₂_metadata : List.Forall₂ SameOnSkill (b.metadataNotes limits)
    (metadataRule file b limits) := by
  unfold SkillBudget.metadataNotes metadataRule
  by_cases hlong : limits.metadataWarning < b.units.metadata
  · rw [if_pos hlong, if_pos hlong]
    refine .cons ⟨.longDescription, by decide, ?_, rfl, ?_⟩ .nil
    · refine isNote_of_count b.units.metadata (by decide) ?_
      simp [toString, String.toList_append, Nat.repr_eq_ofList_toDigits, noteStart, noteWords]
    · simp [plain, toString, String.toList_append, Remark.message]
  · rw [if_neg hlong, if_neg hlong]
    exact .nil

/-- The body is noted when it is more than a passing detail. -/
theorem forall₂_body : List.Forall₂ SameOnSkill (b.bodyNotes limits)
    ([bodyRule file b limits].filter fun i => i.severity ≠ .ok) := by
  unfold SkillBudget.bodyNotes bodyRule bandIssue
  cases b.status with
  | critical =>
    refine .cons ⟨.criticalBody, by decide, ?_, rfl, ?_⟩ .nil
    · refine isNote_of_count b.units.body (by decide) ?_
      simp only [toString, String.toList_append, Nat.repr_eq_ofList_toDigits, String.toList_ofList,
        List.append_assoc, noteStart, bodyStart, noteWords, List.prefix_append_right_inj,
        List.prefix_append]
    · simp [plain, toString, String.toList_append, Remark.message]
  | warning =>
    refine .cons ⟨.highBody, by decide, ?_, rfl, ?_⟩ .nil
    · refine isNote_of_count b.units.body (by decide) ?_
      simp only [toString, String.toList_append, Nat.repr_eq_ofList_toDigits, String.toList_ofList,
        List.append_assoc, noteStart, bodyStart, noteWords, List.prefix_append_right_inj,
        List.prefix_append]
    · simp [plain, toString, String.toList_append, Remark.message]
  | ok =>
    by_cases habove : b.isAboveTarget limits = true
    · simp only [habove, if_true]
      refine .cons ⟨.bodyAboveTarget, by decide, ?_, rfl, ?_⟩ .nil
      · refine isNote_of_count b.units.body (by decide) ?_
        simp only [toString, String.toList_append, Nat.repr_eq_ofList_toDigits,
          String.toList_ofList, List.append_assoc, noteStart, bodyStart, noteWords,
          List.prefix_append_right_inj, List.prefix_append]
      · simp [plain, toString, String.toList_append, Remark.message]
    · simp only [habove]
      exact .nil

theorem thin_of_mem_referenceNotes {note : String} (h : note ∈ b.referenceNotes limits) :
    IsThinNote note := by
  unfold SkillBudget.referenceNotes at h
  split at h
  · obtain rfl := List.mem_singleton.mp h
    simp [IsThinNote, toString, String.toList_append]
  · cases h

/-- Whether a note and an issue say of one file that it cannot be read, in the same words. -/
def NameSameFile (note : String) (i : Issue) : Prop :=
  ∃ (label : Text) (fault : Fault), note = s!"Cannot read {String.ofList label}: {fault.message}" ∧
    i.file = some (trimEntry file ++ '/' :: label) ∧ i.source = some fault.message.toList

theorem isNote_cannotRead (label : Text) (fault : Fault) :
    Remark.unreadableFile.IsNote s!"Cannot read {String.ofList label}: {fault.message}" := by
  constructor
  · simp [toString, String.toList_append, noteStart]
  · exact List.nil_prefix

theorem isIssue_cannotRead (reason : Text) :
    Remark.unreadableFile.IsIssue (Issue.cannotRead file reason) :=
  ⟨rfl, List.prefix_rfl⟩

/-- The files that cannot be read are noted and reported in the same order. -/
theorem forall₂_read : List.Forall₂ (NameSameFile file) b.readNotes (readRules file b) := by
  unfold SkillBudget.readNotes readRules
  rw [List.forall₂_map_left_iff, List.forall₂_map_right_iff]
  exact List.forall₂_same.mpr fun (label, fault) _ => ⟨label, fault, rfl, rfl, rfl⟩

theorem same_read : List.Forall₂ Same b.readNotes (readRules file b) := by
  unfold SkillBudget.readNotes readRules
  rw [List.forall₂_map_left_iff, List.forall₂_map_right_iff]
  exact List.forall₂_same.mpr fun (label, fault) _ =>
    ⟨.unreadableFile, isNote_cannotRead label fault, isIssue_cannotRead _ _⟩

/-- Every note but the one on thin references has its issue. -/
theorem same_remarks : List.Forall₂ Same
    (b.metadataNotes limits ++ b.bodyNotes limits ++ b.readNotes)
    (metadataRule file b limits ++ ([bodyRule file b limits].filter fun i => i.severity ≠ .ok) ++
      readRules file b) :=
  List.rel_append (List.rel_append (same_of_forall₂ (forall₂_metadata file b limits))
    (same_of_forall₂ (forall₂_body file b limits))) (same_read file b)

/-- The notes on a budget without the one on thin references. -/
theorem filter_notes : ((b.notes limits).filter fun note => ¬ IsThinNote note) =
    b.metadataNotes limits ++ b.bodyNotes limits ++ b.readNotes := by
  have hthin : ((b.referenceNotes limits).filter fun note => ¬ IsThinNote note) = [] := by
    refine List.filter_eq_nil_iff.mpr fun note hnote => ?_
    simp [thin_of_mem_referenceNotes b limits hnote]
  have hothers := filter_not_thin (same_remarks [] b limits)
  rw [List.filter_append] at hothers
  rw [SkillBudget.notes, List.filter_append, List.filter_append, hthin, List.append_nil]
  exact hothers

/-- The issues on a budget without passing details. -/
theorem filter_budgetRules (verbose : Bool) :
    ((budgetRules file b limits verbose).filter fun i => i.severity ≠ .ok) =
      ([bodyRule file b limits].filter fun i => i.severity ≠ .ok) ++ metadataRule file b limits ++
        readRules file b := by
  have hfigures : ((if verbose then breakdown b.units limits else []).filter
      fun i => i.severity ≠ .ok) = [] := by
    refine List.filter_eq_nil_iff.mpr fun i hi => ?_
    simp [severity_of_breakdown (List.mem_ite_nil_right.mp hi).2]
  have hmetadata := filter_reported (same_of_forall₂ (forall₂_metadata file b limits))
  have hread := filter_reported (same_read file b)
  rw [budgetRules, List.filter_append, List.filter_append, List.filter_append, hfigures, hmetadata,
    hread, List.append_nil]

/-! ## Notes against issues -/

/-- The issues that the check records for a skill. -/
def recorded (s : Subject) (skill : Component) : List Issue :=
  (Check.record .tokens s.verbose ⟨skillRules s skill, false⟩).issues

/-- Whether notes and issues on a skill make the same remarks. The notes but the one on thin
references and the issues but passing details are matched one to one; each remark is made by some
note when it is made by some issue; the body is noted when an issue on it is more than a passing
detail; and the files that cannot be read come in the same order. -/
structure SameRemarks (notes : List String) (issues : List Issue) : Prop where
  matched : ∃ arranged, arranged.Perm (issues.filter fun i => i.severity ≠ .ok) ∧
    List.Forall₂ Same (notes.filter fun note => ¬ IsThinNote note) arranged
  remarks : ∀ r : Remark, (∃ note ∈ notes, r.IsNote note) ↔ ∃ i ∈ issues, r.IsIssue i
  body : (∃ note ∈ notes, bodyStart.toList <+: note.toList) ↔
    ∃ i ∈ issues, "Token ".toList <+: i.message ∧ i.severity ≠ .ok
  files : List.Forall₂ (NameSameFile file)
    (notes.filter fun note => Remark.unreadableFile.IsNote note)
    (issues.filter fun i => Remark.unreadableFile.IsIssue i)

/-- The issues that are recorded for a skill without passing details. -/
theorem filter_recorded (s : Subject) (skill : Component) :
    ((recorded s skill).filter fun i => i.severity ≠ .ok) =
      ((skillRules s skill).filter fun i => i.severity ≠ .ok).map (Issue.stamp .tokens) := by
  rw [recorded, Check.record_eq, List.filter_map, List.filter_filter]
  refine congrArg (List.map _) (List.filter_congr fun i _ => ?_)
  by_cases hi : i.severity = .ok <;> simp [hi]

/-- The issues of a run come skill by skill. -/
theorem issues_run_eq (tree : FileTree) (root : Path) (counter : Counter) (verbose : Bool)
    (h : (discover tree root).skills ≠ []) :
    (tokensCheck.run (Subject.ofRoot tree root limits counter verbose)).issues =
      (discover tree root).skills.flatMap
        (recorded (Subject.ofRoot tree root limits counter verbose)) := by
  obtain ⟨skill, hskill⟩ := List.exists_mem_of_ne_nil _ h
  have hfound := @inspect_of_skills (Subject.ofRoot tree root limits counter verbose)
    (isDirectory_of_mem_skills hskill) h
  change (Check.record .tokens verbose (inspect _)).issues = _
  rw [hfound, Check.record_eq]
  simp only [List.filter_flatMap, List.map_flatMap]
  refine List.flatMap_congr fun skill _ => ?_
  rw [recorded, Check.record_eq]
  rfl

/-- Where notes and issues are matched, what is asked of a note and not of one on thin references is
found when what is asked of its issue is. -/
theorem exists_note_iff_exists_issue {notes : List String} {issues arranged : List Issue}
    {p : String → Prop} {q : Issue → Prop}
    (hperm : arranged.Perm (issues.filter fun i => i.severity ≠ .ok))
    (hmatched : List.Forall₂ Same (notes.filter fun note => ¬ IsThinNote note) arranged)
    (hp : ∀ note, p note → ¬ IsThinNote note) (hq : ∀ i, q i → i.severity ≠ .ok)
    (hpq : ∀ note i, Same note i → (p note ↔ q i)) :
    (∃ note ∈ notes, p note) ↔ ∃ i ∈ issues, q i := by
  have hnotes : (∃ note ∈ notes, p note) ↔
      ∃ note ∈ notes.filter fun note => ¬ IsThinNote note, p note := by
    refine exists_congr fun note => ?_
    rw [List.mem_filter, decide_eq_true_iff, and_assoc, and_iff_right_of_imp (hp note)]
  have hissues : (∃ i ∈ issues, q i) ↔ ∃ i ∈ issues.filter fun i => i.severity ≠ .ok, q i := by
    refine exists_congr fun i => ?_
    rw [List.mem_filter, decide_eq_true_iff, and_assoc, and_iff_right_of_imp (hq i)]
  rw [hnotes, hissues, exists_mem_iff hmatched hpq]
  exact exists_congr fun i => and_congr_left fun _ => hperm.mem_iff

/-- The notes on files that cannot be read, in the order of their issues. -/
theorem filter_notes_unreadable :
    ((b.notes limits).filter fun note => Remark.unreadableFile.IsNote note) = b.readNotes := by
  have hmetadata := (filter_unreadable_eq_nil (forall₂_metadata [] b limits)).1
  have hbody := (filter_unreadable_eq_nil (forall₂_body [] b limits)).1
  have hthin : ((b.referenceNotes limits).filter
      fun note => Remark.unreadableFile.IsNote note) = [] := by
    refine List.filter_eq_nil_iff.mpr fun note hnote hfile => ?_
    exact (of_decide_eq_true hfile).not_thin (thin_of_mem_referenceNotes b limits hnote)
  have hread : (b.readNotes.filter fun note => Remark.unreadableFile.IsNote note) =
      b.readNotes := by
    refine List.filter_eq_self.mpr fun note hnote => ?_
    obtain ⟨⟨label, fault⟩, -, rfl⟩ := List.mem_map.mp hnote
    exact decide_eq_true (isNote_cannotRead label fault)
  rw [SkillBudget.notes, List.filter_append, List.filter_append, List.filter_append, hmetadata,
    hbody, hthin, hread]
  rfl

/-- The issues on files that cannot be read, among those on a budget without passing details. -/
theorem filter_issues_unreadable :
    ((([bodyRule file b limits].filter fun i => i.severity ≠ .ok) ++ metadataRule file b limits ++
      readRules file b).filter fun i => Remark.unreadableFile.IsIssue i) = readRules file b := by
  have hmetadata := (filter_unreadable_eq_nil (forall₂_metadata file b limits)).2
  have hbody := (filter_unreadable_eq_nil (forall₂_body file b limits)).2
  have hread : ((readRules file b).filter fun i => Remark.unreadableFile.IsIssue i) =
      readRules file b := by
    refine List.filter_eq_self.mpr fun i hi => ?_
    obtain ⟨⟨label, fault⟩, -, rfl⟩ := List.mem_map.mp hi
    exact decide_eq_true (isIssue_cannotRead _ _)
  rw [List.filter_append, List.filter_append, hmetadata, hbody, hread]
  rfl

/-- Issues that are what the rules on a budget report, as issues of some check, make the remarks of
its notes. -/
theorem sameRemarks_of_filter {issues : List Issue} (kind : CheckKind)
    (h : (issues.filter fun i => i.severity ≠ .ok) =
      (([bodyRule file b limits].filter fun i => i.severity ≠ .ok) ++ metadataRule file b limits ++
        readRules file b).map (Issue.stamp kind)) :
    SameRemarks file (b.notes limits) issues := by
  let arranged := (metadataRule file b limits ++
    ([bodyRule file b limits].filter fun i => i.severity ≠ .ok) ++ readRules file b).map
      (Issue.stamp kind)
  have hperm : arranged.Perm (issues.filter fun i => i.severity ≠ .ok) := by
    rw [h]
    exact (List.perm_append_comm.append_right _).map _
  have hmatched : List.Forall₂ Same ((b.notes limits).filter fun note => ¬ IsThinNote note)
      arranged := by
    rw [filter_notes, List.forall₂_map_right_iff]
    exact same_remarks file b limits
  refine ⟨⟨arranged, hperm, hmatched⟩, ?_, ?_, ?_⟩
  · intro r
    exact exists_note_iff_exists_issue hperm hmatched (fun _ => IsNote.not_thin)
      (fun _ => IsIssue.severity_ne_ok) fun _ _ hsame => hsame.isNote_iff r
  · refine exists_note_iff_exists_issue hperm hmatched ?_ (fun _ hi => hi.2) ?_
    · intro note hbody hthin
      have hcomparable := List.prefix_or_prefix_of_prefix hbody hthin
      revert hcomparable
      decide
    · intro note i hsame
      obtain ⟨_, -, hissue⟩ := id hsame
      rw [hsame.onBody_iff, and_iff_left hissue.severity_ne_ok]
  · have hkept : (issues.filter fun i => Remark.unreadableFile.IsIssue i) =
        (issues.filter fun i => i.severity ≠ .ok).filter
          fun i => Remark.unreadableFile.IsIssue i := by
      rw [List.filter_filter]
      refine List.filter_congr fun i _ => ?_
      by_cases hi : Remark.unreadableFile.IsIssue i
      · simp [hi, hi.severity_ne_ok]
      · simp [hi]
    have hstamped : (fun i => decide (Remark.unreadableFile.IsIssue i)) ∘ Issue.stamp kind =
        fun i => decide (Remark.unreadableFile.IsIssue i) := rfl
    rw [filter_notes_unreadable, hkept, h, List.filter_map, hstamped, filter_issues_unreadable,
      List.forall₂_map_right_iff]
    exact forall₂_read file b

end TokensCheck

/-- For every skill whose entry document can be read, the notes of the budget report and the issues
that the tokens check records for it make the same remarks, whatever the limits. -/
theorem notes_match_issues (tree : FileTree) (root : Path) (limits : Limits) (counter : Counter)
    (verbose : Bool) {skill : Component} (hskill : skill ∈ (discover tree root).skills)
    {entry : Text} (hentry : skill.content = .ok entry) :
    let s := Subject.ofRoot tree root limits counter verbose
    (tokensCheck.run s).issues =
      (discover tree root).skills.flatMap (TokensCheck.recorded s) ∧
    ∃ directory, skill.skillDirectory? = some directory ∧
      let b := SkillBudget.analyze tree directory entry counter limits
      TokensCheck.SameRemarks skill.label (b.notes limits) (TokensCheck.recorded s skill) := by
  intro s
  obtain ⟨directory, hdirectory⟩ := Option.isSome_iff_exists.mp (skillDirectory?_isSome hskill)
  refine ⟨TokensCheck.issues_run_eq limits tree root counter verbose
    (List.ne_nil_of_mem hskill), directory, hdirectory, ?_⟩
  intro b
  have hrules : TokensCheck.skillRules s skill =
      TokensCheck.budgetRules skill.label b limits verbose := by
    simp only [TokensCheck.skillRules, TokensCheck.budget?, hentry, hdirectory]
    rfl
  apply TokensCheck.sameRemarks_of_filter skill.label b limits .tokens
  rw [TokensCheck.filter_recorded, hrules, TokensCheck.filter_budgetRules]

/-- A skill with a body above the critical limit and a reference that cannot be read has a note on
each, and so an issue on each. -/
theorem long_skill_noted_and_reported :
    longDocument ∈ (discover (longSkill []) ⟨"/p".toList⟩).skills ∧
      longDocument.content = .ok "---\nname: a\n---\nTwelve units".toList ∧
      let limits : Limits := ⟨50, 100, 1, 1, 2⟩
      let s := Subject.ofRoot (longSkill []) ⟨"/p".toList⟩ limits .approximate false
      let b := SkillBudget.analyze (longSkill []) ⟨"/p/skills/a".toList⟩
        "---\nname: a\n---\nTwelve units".toList .approximate limits
      b.notes limits =
          ["Tier 2 (SKILL.md): 3 tokens critically exceeds 2 limit - MUST refactor to references/",
            "Cannot read references/b.md: stream did not contain valid UTF-8"] ∧
        TokensCheck.SameRemarks "skills/a/SKILL.md".toList (b.notes limits)
          (TokensCheck.recorded s longDocument) ∧
        ∃ i ∈ TokensCheck.recorded s longDocument, Remark.criticalBody.IsIssue i := by
  have hskill : longDocument ∈ (discover (longSkill []) ⟨"/p".toList⟩).skills := by
    rw [(skills_longSkill (.inl rfl)).2]
    exact List.mem_singleton.mpr rfl
  refine ⟨hskill, rfl, ?_⟩
  intro limits s b
  have hnotes : b.notes limits =
      ["Tier 2 (SKILL.md): 3 tokens critically exceeds 2 limit - MUST refactor to references/",
        "Cannot read references/b.md: stream did not contain valid UTF-8"] := by
    simp only [b, SkillBudget.analyze, SkillBudget.referenceFiles, SkillBudget.scriptFiles,
      FileTree.filesBelow, FileTree.below, FileTree.entries, FileTree.names,
      FileTree.mergeSort_inOrder]
    decide +kernel
  obtain ⟨-, directory, hdirectory, hsame⟩ := notes_match_issues (longSkill []) ⟨"/p".toList⟩
    limits .approximate false hskill rfl
  have hparent : longDocument.skillDirectory? = some ⟨"/p/skills/a".toList⟩ := by decide
  obtain rfl := Option.some.inj (hparent.symm.trans hdirectory)
  refine ⟨hnotes, hsame, (hsame.remarks .criticalBody).mp ?_⟩
  exact ⟨_, by rw [hnotes]; exact List.mem_cons_self, by decide⟩

end PluginLint
