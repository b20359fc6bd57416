import PluginLint.Budget.Skill
import PluginLint.Output.Layout

/-!
# The budget report for people

The tiers of every skill and a summary that counts the skills by band.
-/
namespace PluginLint.BudgetReport

/-- The volume of references that is usual. -/
def usualReferences : Nat := 2000

def statusStyle : BudgetStatus → Style
  | .ok => { color := some .green }
  | .warning => { color := some .yellow }
  | .critical => { color := some .red, bold := true }

/-- A number of units in a column. -/
def column (n : Nat) : Text := padLeft 6 (Nat.toDigits 10 n)

/-- The tiers of a skill. -/
def tiers (limits : Limits) (u : Units) (l : Layout) : Layout :=
  let l := l.detail "Tier 1 (Metadata)".toList
    (column u.metadata ++ s!" tokens (target: ~{limits.metadataTarget})".toList)
  let l := l.detail "Tier 2 (SKILL.md)".toList
    (column u.body ++ s!" tokens (target: ~{limits.bodyTarget})".toList)
  let l := l.detail "Tier 3 (References)".toList
    (column u.references ++ s!" tokens ({usualReferences}+ typical)".toList)
  let l := if 0 < u.scripts then
    l.detail "Scripts".toList (column u.scripts ++ " tokens".toList) else l
  l.detail "Total".toList (column u.total ++ " tokens".toList)

/-- The notes on a skill, if there are any. -/
def addNotes (notes : List String) (l : Layout) : Layout :=
  if notes = [] then l
  else notes.foldl (fun l note => l.line ("    - ".toList ++ note.toList))
    (l.line "  Issues:".toList)

/-- The files of a skill. -/
def addFiles (files : List FileUnits) (l : Layout) : Layout :=
  files.foldl (fun l f =>
    l.line ("    - ".toList ++ f.file ++ s!": {f.units} tokens ({f.role.word})".toList))
    (l.line "  Files:".toList)

def addSkill (limits : Limits) (verbose : Bool) (l : Layout) (b : SkillBudget) : Layout :=
  let l := l.blank
  let l := l.line (l.paint .bolded b.name ++ ' ' :: '[' ::
    (l.paint (statusStyle b.status) b.status.word.toList ++ [']']))
  let l := l.detail "Path".toList b.path.text
  let l := addNotes (b.notes limits) (tiers limits b.units l)
  if verbose then addFiles b.units.files l else l

/-- How many skills fall into each band. -/
structure Bands where
  withinTarget : Nat
  aboveTarget : Nat
  warning : Nat
  critical : Nat
  deriving DecidableEq, Repr

/-- How many skills have a status. -/
def countStatus (budgets : List SkillBudget) (status : BudgetStatus) : Nat :=
  budgets.countP fun b => b.status = status

/-- How many skills are in order and still above the target. -/
def countAbove (limits : Limits) (budgets : List SkillBudget) : Nat :=
  budgets.countP fun b => b.status = .ok && b.isAboveTarget limits

def bands (limits : Limits) (budgets : List SkillBudget) : Bands where
  withinTarget := countStatus budgets .ok - countAbove limits budgets
  aboveTarget := countAbove limits budgets
  warning := countStatus budgets .warning
  critical := countStatus budgets .critical

/-- The exit code of a budget report: the worst status decides. -/
def exitCode (budgets : List SkillBudget) : Nat :=
  match (budgets.map SkillBudget.status).max? with
  | some .critical => 2
  | some .warning => 1
  | _ => 0

/-- The worst status of some skills has the largest of their exit codes. -/
theorem exitCode_cons (b : SkillBudget) (rest : List SkillBudget) :
    exitCode (b :: rest) = max (exitCode [b]) (exitCode rest) := by
  simp only [exitCode, List.map_cons, List.map_nil, List.max?_cons, List.max?_nil]
  cases (rest.map SkillBudget.status).max? with
  | none => cases b.status <;> rfl
  | some worst => cases b.status <;> cases worst <;> rfl

/-- The worst status is critical when that of some skill is, else warning when that of some is. -/
theorem exitCode_eq_cascade (budgets : List SkillBudget) : exitCode budgets =
    if budgets.any (·.status = .critical) then 2
    else if budgets.any (·.status = .warning) then 1
    else 0 := by
  induction budgets with
  | nil => rfl
  | cons b rest ih =>
    rw [exitCode_cons, ih, List.any_cons, List.any_cons]
    simp only [exitCode, List.map_cons, List.map_nil, List.max?_cons, List.max?_nil]
    cases b.status <;> cases rest.any (·.status = .critical) <;>
      cases rest.any (·.status = .warning) <;> rfl

/-- The line that says how a run went. -/
def resultLine (limits : Limits) (budgets : List SkillBudget) : Text :=
  match exitCode budgets with
  | 2 =>
    s!"Result: FAILED - SKILL.md above {limits.bodyCritical} tokens ".toList ++
      "must move content to references/".toList
  | 1 =>
    s!"Result: ATTENTION - SKILL.md above {limits.bodyWarning} tokens ".toList ++
      "should be optimized".toList
  | _ =>
    if 0 < countAbove limits budgets then
      "Result: PASSED - ".toList ++ plural (countAbove limits budgets) "skill".toList ++
        s!" above the ~{limits.bodyTarget} target".toList
    else "Result: PASSED - all skills within targets".toList

def resultColor (budgets : List SkillBudget) : Color :=
  match exitCode budgets with
  | 2 => .red
  | 1 => .yellow
  | _ => .green

def summary (limits : Limits) (budgets : List SkillBudget) (l : Layout) : Layout :=
  let b := bands limits budgets
  let l := l.blank.heading "Token Budget Summary".toList
  let l := l.entry "Analyzed".toList (plural budgets.length "skill".toList)
  let l := l.entry "Within target".toList (Nat.toDigits 10 b.withinTarget)
  let l := l.entry "Above target".toList (Nat.toDigits 10 b.aboveTarget)
  let l := l.entry "Warnings".toList (Nat.toDigits 10 b.warning)
  let l := (l.entry "Critical".toList (Nat.toDigits 10 b.critical)).blank
  let style : Style := { color := some (resultColor budgets), bold := true }
  l.line (l.paint style (resultLine limits budgets))

def layout (limits : Limits) (method : String) (verbose colors : Bool)
    (budgets : List SkillBudget) : Layout :=
  let l := (Layout.empty colors).title s!"Token Counter (method: {method})".toList
  summary limits budgets (budgets.foldl (addSkill limits verbose) l)

/-- The units of a single file. -/
def fileLayout (file : Text) (units : Nat) (method : String) (colors : Bool) : Layout :=
  let l := (Layout.empty colors).entry "File".toList file
  (l.entry "Tokens".toList (Nat.toDigits 10 units)).entry "Method".toList method.toList

end PluginLint.BudgetReport
