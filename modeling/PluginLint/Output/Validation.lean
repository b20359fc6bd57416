import PluginLint.Check.Basic
import PluginLint.Output.Layout

/-!
# The validation report for people

What was looked at, the issues by severity, and a summary with the result.
-/
namespace PluginLint.ValidationReport

/-- What a report is about. -/
structure Scope where
  target : Path
  kinds : List CheckKind
  components : Components
  limits : Limits
  method : String
  /-- whether passing details are shown -/
  verbose : Bool

/-- How much of a source text is shown. -/
def excerptLength : Nat := 80

/-- The volume of references that is suggested beside the figures of a skill. -/
def suggestedReferences : Nat := 2000

def groupTitle : Severity → String
  | .must => "Critical Issues"
  | .should => "Recommended Fixes"
  | .may => "Optional Improvements"
  | .ok => "Passing Checks"

def kindTitle : ComponentKind → String
  | .command => "Commands"
  | .agent => "Agents"
  | .skill => "Skills"

/-- The details of an issue that may be missing. -/
def optionalDetail (key : String) (value : Option Text) (l : Layout) : Layout :=
  match value with
  | some value => l.detail key.toList value
  | none => l

/-- The figures that belong to an issue. -/
def unitsDetail (limits : Limits) (units : Option Units) (l : Layout) : Layout :=
  match units with
  | some u =>
    (l.detail "Tokens".toList
      s!"frontmatter={u.metadata}, body={u.body}, refs={u.references}".toList).detail
      "Target".toList
      (s!"frontmatter~{limits.metadataTarget}, body~{limits.bodyTarget}, " ++
        s!"refs>={suggestedReferences}").toList
  | none => l

def addIssue (limits : Limits) (l : Layout) (i : Issue) : Layout :=
  let l := l.line (i.severity.label l.colors ++ ' ' :: l.paint .bolded i.location)
  let l := l.detail "Issue".toList i.message
  let l := optionalDetail "Source" (i.source.map (excerpt excerptLength)) l
  optionalDetail "Fix" i.suggestion (unitsDetail limits i.details l)

/-- The heading of a group of issues. -/
def groupHeading (severity : Severity) (count : Nat) : Text :=
  s!"[{severity.capitals}] {groupTitle severity} ({count})".toList

/-- The issues of one severity, if there are any. -/
def addGroup (limits : Limits) (r : Report) (l : Layout) (severity : Severity) : Layout :=
  let issues := r.ofSeverity severity
  if issues = [] then l
  else
    let l := l.blank.heading (groupHeading severity issues.length)
    if severity = .ok then issues.foldl (fun l i => l.bullet i.message) l
    else issues.foldl (addIssue limits) l

/-- What was looked at. -/
def header (s : Scope) (colors : Bool) : Layout :=
  let l := (Layout.empty colors).title "PLUGIN VALIDATION REPORT".toList
  let l := l.entry "Target".toList s.target.text
  let l := l.entry "Checks".toList
    (List.intercalate [',', ' '] (s.kinds.map (·.word.toList)))
  let l := (l.entry "Token method".toList s.method.toList).blank.line "Components:".toList
  ComponentKind.all.foldl (fun l kind =>
    l.line (' ' :: ' ' :: (padRight 10 (kindTitle kind ++ ":").toList ++
      Nat.toDigits 10 (s.components.ofKind kind).length))) l

/-- The line that says how a run went. -/
def resultLine (v : Verdict) : String :=
  if !v.passed then "Result: FAILED"
  else if 0 < v.should then "Result: PASSED (with recommendations)"
  else "Result: PASSED"

def resultColor (v : Verdict) : Color :=
  if !v.passed then .red else if 0 < v.should then .yellow else .green

def summary (v : Verdict) (l : Layout) : Layout :=
  let l := l.blank.heading "SUMMARY".toList
  let l := l.entry "MUST".toList (Nat.toDigits 10 v.must)
  let l := l.entry "SHOULD".toList (Nat.toDigits 10 v.should)
  let l := (l.entry "MAY".toList (Nat.toDigits 10 v.may)).blank
  let style : Style := { color := some (resultColor v), bold := true }
  let l := l.line (l.paint style (resultLine v).toList)
  if v.critical then l.line "Token budget critically exceeded.".toList else l

/-- The severities that a report shows. -/
def shown (verbose : Bool) : List Severity :=
  Severity.reported ++ if verbose then [.ok] else []

def layout (s : Scope) (r : Report) (colors : Bool) : Layout :=
  summary r.verdict ((shown s.verbose).foldl (addGroup s.limits r) (header s colors))

end PluginLint.ValidationReport
