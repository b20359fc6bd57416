import Mathlib.Data.List.Infix
import PluginLint.Proofs.Command.CriticalSkill
import PluginLint.Proofs.Output.Validation

/-!
# The figures of the budget report

The summary counts the skills in three ways: the skills within the target are those in order less
those above it, the exit code comes from the worst status, and the result line from the exit code
and one of the counts. Every skill falls into one band whatever the limits are, so the skills above
the target are among those in order (`countStatus_ok`) and the four figures are all skills
(`bands_total`); and the exit code and the line can be read off the figures (`exitCode_eq`,
`resultLine_eq`).
-/
namespace PluginLint

namespace BudgetReport

variable (limits : Limits) (budgets : List SkillBudget)

/-! ## Figures -/

/-- How many skills are in order and not above the target. -/
def countWithin : Nat :=
  budgets.countP fun b => b.status = .ok && !b.isAboveTarget limits

theorem countStatus_ok :
    countStatus budgets .ok = countWithin limits budgets + countAbove limits budgets := by
  induction budgets with
  | nil => rfl
  | cons b rest ih =>
    simp only [countStatus, countWithin, countAbove, List.countP_cons] at ih ⊢
    rw [ih]
    cases b.status <;> cases b.isAboveTarget limits <;> simp <;> omega

/-- The subtraction for the first figure does not go below zero. -/
theorem countAbove_le : countAbove limits budgets ≤ countStatus budgets .ok :=
  countStatus_ok limits budgets ▸ Nat.le_add_left _ _

theorem withinTarget_eq : (bands limits budgets).withinTarget = countWithin limits budgets := by
  rw [bands, countStatus_ok limits, Nat.add_sub_cancel]

theorem countStatus_total :
    countStatus budgets .ok + countStatus budgets .warning + countStatus budgets .critical =
      budgets.length := by
  induction budgets with
  | nil => rfl
  | cons b rest ih =>
    simp only [countStatus, List.countP_cons, List.length_cons] at ih ⊢
    rw [← ih]
    cases b.status <;> simp <;> omega

/-- The four figures count every skill once. -/
theorem bands_total : (bands limits budgets).withinTarget + (bands limits budgets).aboveTarget +
    (bands limits budgets).warning + (bands limits budgets).critical = budgets.length := by
  rw [withinTarget_eq, ← countStatus_total budgets, countStatus_ok limits]
  rfl

theorem countStatus_pos_iff {status : BudgetStatus} :
    0 < countStatus budgets status ↔ ∃ b ∈ budgets, b.status = status := by
  simp [countStatus, List.countP_pos_iff]

/-! ## Exit codes -/

theorem exitCode_eq : exitCode budgets =
    if 0 < countStatus budgets .critical then 2
    else if 0 < countStatus budgets .warning then 1 else 0 := by
  simp [exitCode_eq_cascade, countStatus_pos_iff]

theorem exitCode_eq_one_iff : exitCode budgets = 1 ↔
    (∀ b ∈ budgets, b.status ≠ .critical) ∧ ∃ b ∈ budgets, b.status = .warning := by
  have hcritical : (∀ b ∈ budgets, b.status ≠ .critical) ↔
      ¬ 0 < countStatus budgets .critical := by simp [countStatus_pos_iff]
  rw [exitCode_eq, hcritical, ← countStatus_pos_iff]
  split_ifs <;> simp_all

theorem exitCode_eq_zero_iff : exitCode budgets = 0 ↔ ∀ b ∈ budgets, b.status = .ok := by
  have hok : (∀ b ∈ budgets, b.status = .ok) ↔ countStatus budgets .ok = budgets.length := by
    simp [countStatus, List.countP_eq_length]
  have htotal := countStatus_total budgets
  rw [exitCode_eq, hok]
  split_ifs with hcritical hwarning
  · exact iff_of_false (by decide) (by omega)
  · exact iff_of_false (by decide) (by omega)
  · exact iff_of_true rfl (by omega)

/-! ## Result lines -/

def failedLine : Text :=
  s!"Result: FAILED - SKILL.md above {limits.bodyCritical} tokens ".toList ++
    "must move content to references/".toList

def attentionLine : Text :=
  s!"Result: ATTENTION - SKILL.md above {limits.bodyWarning} tokens ".toList ++
    "should be optimized".toList

def aboveTargetLine (count : Nat) : Text :=
  "Result: PASSED - ".toList ++ plural count "skill".toList ++
    s!" above the ~{limits.bodyTarget} target".toList

def withinTargetsLine : Text := "Result: PASSED - all skills within targets".toList

/-- What a result line can say. -/
inductive Announcement where
  | failed
  | attention
  | passedAboveTarget
  | passedWithinTargets
  deriving DecidableEq, Repr

namespace Announcement

/-- What there is to say about some figures. -/
def Holds (figures : Bands) : Announcement → Prop
  | failed => 0 < figures.critical
  | attention => figures.critical = 0 ∧ 0 < figures.warning
  | passedAboveTarget =>
    figures.critical = 0 ∧ figures.warning = 0 ∧ 0 < figures.aboveTarget
  | passedWithinTargets =>
    figures.critical = 0 ∧ figures.warning = 0 ∧ figures.aboveTarget = 0

/-- The line that says it. -/
def line (limits : Limits) (aboveTarget : Nat) : Announcement → Text
  | failed => failedLine limits
  | attention => attentionLine limits
  | passedAboveTarget => aboveTargetLine limits aboveTarget
  | passedWithinTargets => withinTargetsLine

/-- How the line begins. -/
def start : Announcement → Text
  | failed => "Result: FAILED - ".toList
  | attention => "Result: ATTENTION - ".toList
  | _ => "Result: PASSED - ".toList

variable {limits} {figures : Bands} {count : Nat} {a a' : Announcement}

theorem exists_holds (figures : Bands) : ∃ a : Announcement, a.Holds figures := by
  by_cases hcritical : 0 < figures.critical
  · exact ⟨failed, hcritical⟩
  by_cases hwarning : 0 < figures.warning
  · exact ⟨attention, by omega, hwarning⟩
  by_cases habove : 0 < figures.aboveTarget
  · exact ⟨passedAboveTarget, by omega, by omega, habove⟩
  · exact ⟨passedWithinTargets, by omega, by omega, by omega⟩

theorem start_prefix_line (limits : Limits) (count : Nat) (a : Announcement) :
    a.start <+: a.line limits count := by
  cases a with
  | failed =>
    have hstart : failed.start <+: "Result: FAILED - SKILL.md above ".toList := by decide
    unfold line failedLine
    rw [String.toList_append, String.toList_append, List.append_assoc, List.append_assoc]
    exact hstart.trans (List.prefix_append _ _)
  | attention =>
    have hstart : attention.start <+: "Result: ATTENTION - SKILL.md above ".toList := by decide
    unfold line attentionLine
    rw [String.toList_append, String.toList_append, List.append_assoc, List.append_assoc]
    exact hstart.trans (List.prefix_append _ _)
  | passedAboveTarget =>
    unfold line aboveTargetLine
    rw [List.append_assoc]
    exact List.prefix_append _ _
  | passedWithinTargets => exact (by decide : passedWithinTargets.start <+: withinTargetsLine)

/-- A count starts with a digit, so it cannot be taken for a word. -/
theorem aboveTargetLine_ne (limits : Limits) (count : Nat) :
    aboveTargetLine limits count ≠ withinTargetsLine := by
  cases hdigits : Nat.toDigits 10 count with
  | nil => exact absurd hdigits Nat.toDigits_ne_nil
  | cons c rest =>
    have hc : c.isDigit = true :=
      Nat.isDigit_of_mem_toDigits (by decide) (by decide) (hdigits ▸ List.mem_cons_self)
    have hwithin : withinTargetsLine =
      "Result: PASSED - ".toList ++ 'a' :: "ll skills within targets".toList := rfl
    unfold aboveTargetLine plural
    rw [hwithin, hdigits, List.append_assoc, List.append_assoc, List.cons_append]
    intro hsame
    obtain ⟨rfl, -⟩ := List.cons.inj (List.append_cancel_left hsame)
    exact absurd hc (by decide)

/-- A line says one thing. -/
theorem eq_of_line_eq (h : a.line limits count = a'.line limits count) : a = a' := by
  have hstarts := List.prefix_or_prefix_of_prefix (start_prefix_line limits count a)
    (h ▸ start_prefix_line limits count a')
  cases a <;> cases a' <;>
    first
    | rfl
    | exact absurd hstarts (by decide)
    | exact absurd h (aboveTargetLine_ne limits count)
    | exact absurd h.symm (aboveTargetLine_ne limits count)

end Announcement

open Announcement

/-- The line comes from the exit code, and so from the figures. -/
theorem resultLine_eq {a : Announcement} (h : a.Holds (bands limits budgets)) :
    resultLine limits budgets = a.line limits (bands limits budgets).aboveTarget := by
  have hcode := exitCode_eq budgets
  cases a with
  | failed =>
    rw [if_pos (show 0 < countStatus budgets .critical from h)] at hcode
    unfold resultLine
    rw [hcode]
    rfl
  | attention =>
    obtain ⟨hcritical, hwarning⟩ := h
    simp only [bands] at hcritical hwarning
    rw [if_neg (by omega), if_pos hwarning] at hcode
    unfold resultLine
    rw [hcode]
    rfl
  | passedAboveTarget =>
    obtain ⟨hcritical, hwarning, habove⟩ := h
    simp only [bands] at hcritical hwarning habove
    rw [if_neg (by omega), if_neg (by omega)] at hcode
    unfold resultLine
    rw [hcode]
    exact if_pos habove
  | passedWithinTargets =>
    obtain ⟨hcritical, hwarning, habove⟩ := h
    simp only [bands] at hcritical hwarning habove
    rw [if_neg (by omega), if_neg (by omega)] at hcode
    unfold resultLine
    rw [hcode]
    exact if_neg (by omega)

theorem resultLine_eq_iff {a : Announcement} :
    resultLine limits budgets = a.line limits (bands limits budgets).aboveTarget ↔
      a.Holds (bands limits budgets) := by
  constructor
  · intro hline
    obtain ⟨a', ha'⟩ := exists_holds (bands limits budgets)
    rwa [eq_of_line_eq (hline.symm.trans (resultLine_eq limits budgets ha'))]
  · exact resultLine_eq limits budgets

/-! ## The report -/

@[simp] theorem colors_tiers (u : Units) (l : Layout) : (tiers limits u l).colors = l.colors := by
  unfold tiers
  split <;> rfl

@[simp] theorem colors_addNotes (notes : List String) (l : Layout) :
    (addNotes notes l).colors = l.colors := by
  unfold addNotes
  split
  · rfl
  · refine (Layout.colors_foldl _ ?_ _).trans rfl
    exact fun _ _ => rfl

@[simp] theorem colors_addFiles (files : List FileUnits) (l : Layout) :
    (addFiles files l).colors = l.colors := by
  refine (Layout.colors_foldl _ ?_ _).trans rfl
  exact fun _ _ => rfl

theorem colors_addSkill (verbose : Bool) (l : Layout) (b : SkillBudget) :
    (addSkill limits verbose l b).colors = l.colors := by
  cases verbose <;> simp [addSkill, Layout.blank]

/-- The line of a figure in the summary. -/
def figureLine (colors : Bool) (key : String) (figure : Text) : Text :=
  Style.dimmed.paint colors (padRight Layout.keyWidth (key.toList ++ [':'])) ++ ' ' :: figure

/-- The lines of a summary with some figures and a result. -/
def summaryLines (colors : Bool) (analysed : Nat) (figures : Bands) (result : Text) : List Text :=
  [] :: ValidationReport.headingLines colors "Token Budget Summary".toList ++
    [figureLine colors "Analyzed" (plural analysed "skill".toList),
      figureLine colors "Within target" (Nat.toDigits 10 figures.withinTarget),
      figureLine colors "Above target" (Nat.toDigits 10 figures.aboveTarget),
      figureLine colors "Warnings" (Nat.toDigits 10 figures.warning),
      figureLine colors "Critical" (Nat.toDigits 10 figures.critical), [], result]

/-- How the result line is shown. -/
def resultStyle : Style := { color := some (resultColor budgets), bold := true }

theorem lines_summary (l : Layout) : (summary limits budgets l).lines =
    l.lines ++ summaryLines l.colors budgets.length (bands limits budgets)
      ((resultStyle budgets).paint l.colors (resultLine limits budgets)) := by
  simp [summary, summaryLines, figureLine, resultStyle, ValidationReport.headingLines,
    Layout.heading, Layout.entry, Layout.blank, Layout.paint]

/-- The report ends with the summary. -/
theorem lines_layout (method : String) (verbose colors : Bool) :
    ∃ before, (layout limits method verbose colors budgets).lines =
      before ++ summaryLines colors budgets.length (bands limits budgets)
        ((resultStyle budgets).paint colors (resultLine limits budgets)) := by
  have hcolors := Layout.colors_foldl
    ((Layout.empty colors).title s!"Token Counter (method: {method})".toList)
    (colors_addSkill limits verbose) budgets
  unfold layout
  rw [lines_summary, hcolors]
  exact ⟨_, rfl⟩

end BudgetReport

open BudgetReport

/-- Whatever skills are analysed under whatever limits, the first figure is a subtraction that does
not go below zero, the four figures count every skill once, the worst status decides the exit code,
and the report ends with these figures and a result line that says what they say. -/
theorem budget_figures_add_up (s : Surroundings) (i : Invocation) (settings : Settings)
    (budgets : List SkillBudget) :
    let limits := settings.limits
    let figures := bands limits budgets
    let code := (s.budgetReport i settings budgets).exitCode
    countAbove limits budgets ≤ countStatus budgets .ok ∧
    figures.withinTarget = countWithin limits budgets ∧
    figures.withinTarget + figures.aboveTarget + figures.warning + figures.critical =
      budgets.length ∧
    (code = 2 ↔ ∃ b ∈ budgets, b.status = .critical) ∧
    (code = 1 ↔ (∀ b ∈ budgets, b.status ≠ .critical) ∧ ∃ b ∈ budgets, b.status = .warning) ∧
    (code = 0 ↔ ∀ b ∈ budgets, b.status = .ok) ∧
    (∀ a : Announcement, resultLine limits budgets = a.line limits figures.aboveTarget ↔
      a.Holds figures) ∧
    ∃ before, (layout limits (s.counter settings).method i.verbose s.colors budgets).lines =
      before ++ summaryLines s.colors budgets.length figures
        ((resultStyle budgets).paint s.colors (resultLine limits budgets)) := by
  intro limits figures code
  exact ⟨countAbove_le limits budgets, withinTarget_eq limits budgets, bands_total limits budgets,
    exitCode_eq_two_iff, exitCode_eq_one_iff budgets, exitCode_eq_zero_iff budgets,
    fun _ => resultLine_eq_iff limits budgets, lines_layout limits budgets _ _ _⟩

end PluginLint
