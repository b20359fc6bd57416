import Mathlib.Data.List.Basic
import PluginLint.Output.Validation

/-!
# The lines of the validation report

Everything that is written to a layout goes to its end and leaves its colours alone. So the report
is its header, a group for every severity that is shown, and the summary, each written behind the
last (`lines_layout_eq`). A group is a heading with the number of its issues and an entry for each
of them, or nothing where there are none (`groupLines`); the summary has a line for each severity
with a count (`summaryLines`), and the report ends with the line that says how the run went,
followed at most by the note on critical budgets (`lines_layout`).
-/
namespace PluginLint

namespace Layout

variable (l : Layout)

@[simp] theorem colors_line (text : Text) : (l.line text).colors = l.colors := rfl

@[simp] theorem lines_line (text : Text) : (l.line text).lines = l.lines ++ [text] := rfl

@[simp] theorem colors_detail (key value : Text) : (l.detail key value).colors = l.colors := rfl

theorem colors_foldl {α : Type} {add : Layout → α → Layout}
    (h : ∀ l a, (add l a).colors = l.colors) (items : List α) :
    (items.foldl add l).colors = l.colors := by
  induction items generalizing l with
  | nil => rfl
  | cons a rest ih => rw [List.foldl_cons, ih, h]

/-- Where each item adds lines of its own, a row of items adds them one behind the other. -/
theorem lines_foldl {α : Type} (add : Layout → α → Layout) (written : Bool → α → List Text)
    (hcolors : ∀ l a, (add l a).colors = l.colors)
    (hlines : ∀ l a, (add l a).lines = l.lines ++ written l.colors a) (l : Layout)
    (items : List α) :
    (items.foldl add l).lines = l.lines ++ items.flatMap (written l.colors) := by
  induction items generalizing l with
  | nil => simp
  | cons a rest ih =>
    rw [List.foldl_cons, ih, hlines, hcolors, List.flatMap_cons, List.append_assoc]

end Layout

namespace ValidationReport

/-! ## Colours -/

@[simp] theorem colors_optionalDetail (key : String) (value : Option Text) (l : Layout) :
    (optionalDetail key value l).colors = l.colors := by
  cases value <;> rfl

@[simp] theorem colors_unitsDetail (limits : Limits) (units : Option Units) (l : Layout) :
    (unitsDetail limits units l).colors = l.colors := by
  cases units <;> rfl

theorem colors_addIssue (limits : Limits) (l : Layout) (i : Issue) :
    (addIssue limits l i).colors = l.colors := by
  simp [addIssue]

theorem colors_addGroup (limits : Limits) (r : Report) (l : Layout) (severity : Severity) :
    (addGroup limits r l severity).colors = l.colors := by
  unfold addGroup
  simp only
  split
  · rfl
  · split
    · refine (Layout.colors_foldl _ ?_ _).trans rfl
      exact fun _ _ => rfl
    · exact Layout.colors_foldl _ (colors_addIssue limits) _

theorem colors_header (s : Scope) (colors : Bool) : (header s colors).colors = colors := by
  unfold header
  refine (Layout.colors_foldl _ ?_ _).trans rfl
  exact fun _ _ => rfl

/-! ## Parts -/

/-- The note below the result of a run that found a critical budget. -/
def criticalNote (v : Verdict) : List Text :=
  if v.critical then ["Token budget critically exceeded.".toList] else []

/-- How the line that says how a run went is shown. -/
def resultStyle (v : Verdict) : Style := { color := some (resultColor v), bold := true }

/-- The lines of a heading. -/
def headingLines (colors : Bool) (text : Text) : List Text :=
  [Style.bolded.paint colors text, List.replicate (max (Text.byteCount text) 3) '-']

/-- The lines of an issue in its group. -/
def entryLines (limits : Limits) (severity : Severity) (colors : Bool) (i : Issue) : List Text :=
  if severity = .ok then [['-', ' '] ++ i.message]
  else (addIssue limits (Layout.empty colors) i).lines

/-- The lines of a group of issues. -/
def groupLines (limits : Limits) (severity : Severity) (colors : Bool) (issues : List Issue) :
    List Text :=
  if issues = [] then []
  else [] :: headingLines colors (groupHeading severity issues.length) ++
    issues.flatMap (entryLines limits severity colors)

/-- The line of a count in the summary. -/
def countLine (colors : Bool) (severity : Severity) (count : Nat) : Text :=
  Style.dimmed.paint colors (padRight Layout.keyWidth (severity.capitals.toList ++ [':'])) ++
    ' ' :: Nat.toDigits 10 count

/-- The lines of the summary with some counts. -/
def summaryLines (colors : Bool) (count : Severity → Nat) (v : Verdict) : List Text :=
  [] :: headingLines colors "SUMMARY".toList ++
    Severity.reported.map (fun severity => countLine colors severity (count severity)) ++
    [[], (resultStyle v).paint colors (resultLine v).toList] ++ criticalNote v

theorem lines_addIssue (limits : Limits) (l : Layout) (i : Issue) :
    (addIssue limits l i).lines = l.lines ++ (addIssue limits (Layout.empty l.colors) i).lines := by
  unfold addIssue
  cases i.source <;> cases i.suggestion <;> cases i.details <;>
    simp [optionalDetail, unitsDetail, Layout.empty, Layout.detail, Layout.line, Layout.paint]

theorem lines_addGroup (limits : Limits) (r : Report) (l : Layout) (severity : Severity) :
    (addGroup limits r l severity).lines =
      l.lines ++ groupLines limits severity l.colors (r.ofSeverity severity) := by
  unfold addGroup groupLines
  by_cases hnone : r.ofSeverity severity = []
  · simp [hnone]
  · simp only [hnone, if_false]
    by_cases hok : severity = .ok
    · rw [if_pos hok]
      have hbullets := Layout.lines_foldl (fun l (i : Issue) => l.bullet i.message)
        (entryLines limits severity) (fun _ _ => rfl)
        (fun l i => by simp [entryLines, hok, Layout.bullet])
      rw [hbullets]
      simp [headingLines, Layout.heading, Layout.blank, Layout.line, Layout.paint]
    · rw [if_neg hok]
      have hentries := Layout.lines_foldl (addIssue limits) (entryLines limits severity)
        (colors_addIssue limits)
        (fun l i => by simp only [entryLines, hok, if_false, lines_addIssue limits l i])
      rw [hentries]
      simp [headingLines, Layout.heading, Layout.blank, Layout.line, Layout.paint]

theorem lines_summary_eq (results : List CheckResult) (l : Layout) :
    (summary (Verdict.ofResults results) l).lines =
      l.lines ++ summaryLines l.colors (Verdict.total results) (Verdict.ofResults results) := by
  unfold summary summaryLines criticalNote
  cases (Verdict.ofResults results).critical <;>
    simp [Verdict.ofResults, Severity.reported, headingLines, countLine, resultStyle,
      Severity.capitals, Layout.heading, Layout.entry, Layout.blank, Layout.line, Layout.paint]

/-- The report is written part by part. -/
theorem lines_layout_eq (s : Scope) (r : Report) (colors : Bool) :
    (layout s r colors).lines = (header s colors).lines ++
      (shown s.verbose).flatMap (fun severity =>
        groupLines s.limits severity colors (r.ofSeverity severity)) ++
      summaryLines colors (Verdict.total r.results) r.verdict := by
  have hgroups := Layout.lines_foldl (addGroup s.limits r)
    (fun colors severity => groupLines s.limits severity colors (r.ofSeverity severity))
    (colors_addGroup s.limits r) (lines_addGroup s.limits r)
  have hcolors := Layout.colors_foldl (header s colors) (colors_addGroup s.limits r)
    (shown s.verbose)
  rw [layout, Report.verdict, lines_summary_eq, hgroups, hcolors, colors_header]

/-- The report ends with the result. -/
theorem lines_layout (s : Scope) (r : Report) (colors : Bool) :
    ∃ before, (layout s r colors).lines =
      before ++ (resultStyle r.verdict).paint colors (resultLine r.verdict).toList ::
        criticalNote r.verdict := by
  obtain ⟨before, hbefore⟩ : ∃ before, summaryLines colors (Verdict.total r.results) r.verdict =
      before ++ (resultStyle r.verdict).paint colors (resultLine r.verdict).toList ::
        criticalNote r.verdict := by
    rw [summaryLines, List.append_assoc]
    exact ⟨_, List.append_cons _ _ _⟩
  rw [lines_layout_eq, hbefore, ← List.append_assoc]
  exact ⟨_, rfl⟩

end ValidationReport
end PluginLint
