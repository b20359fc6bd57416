import PluginLint.Json.Printer
import PluginLint.Report.Verdict

/-!
# Machine-readable reports

The issues, verdicts and budgets as JSON, with their members in a fixed order. Reports leave
passing details out.
-/
namespace PluginLint

/-- An object whose keys are given as strings. -/
def Json.ofFields (fields : List (String × Json)) : Json :=
  .object (fields.map fun (key, value) => (key.toList, value))

def FileUnits.json (f : FileUnits) : Json :=
  .ofFields [("file", .string f.file), ("tokens", .ofNat f.units),
    ("type", .ofString f.role.word)]

/-- The members with the units of a skill. -/
def Units.fields (u : Units) : List (String × Json) :=
  [("frontmatter", .ofNat u.metadata), ("body", .ofNat u.body), ("refs", .ofNat u.references),
    ("scripts", .ofNat u.scripts), ("total", .ofNat u.total),
    ("files", .array (u.files.map FileUnits.json))]

def Units.json (u : Units) : Json := .ofFields u.fields

/-- A budget. Files that could not be read are listed only if there are any. -/
def SkillBudget.json (b : SkillBudget) : Json :=
  .ofFields ([("name", .string b.name), ("path", .string b.path.text),
    ("status", .ofString b.status.word)] ++ b.units.fields ++
    if b.unreadable = [] then []
    else
      [("unreadable", .array (b.unreadable.map fun (file, fault) =>
        .array [.string file, .ofString fault.message]))])

def Issue.json (i : Issue) : Json :=
  .ofFields [("severity", .ofString i.severity.word), ("check", .ofString i.check.word),
    ("message", .string i.message), ("file", .ofOption .string i.file),
    ("line", .ofOption .ofNat i.line), ("source", .ofOption .string i.source),
    ("suggestion", .ofOption .string i.suggestion), ("details", .ofOption Units.json i.details)]

/-- The issues that reports list. -/
def CheckResult.listed (r : CheckResult) : List Issue :=
  r.issues.filter fun i => i.severity ≠ .ok

def CheckResult.json (r : CheckResult) : Json :=
  .ofFields [("check", .ofString r.check.word), ("passed", .bool r.passed),
    ("issues", .array (r.listed.map Issue.json))]

def Verdict.json (v : Verdict) : Json :=
  .ofFields [("must", .ofNat v.must), ("should", .ofNat v.should), ("may", .ofNat v.may),
    ("passed", .bool v.passed), ("critical", .bool v.critical), ("exit_code", .ofNat v.exitCode)]

/-- The report on a plugin. -/
def Report.json (root : Path) (method : String) (r : Report) : Json :=
  .ofFields [("plugin", .string root.text), ("token_method", .ofString method),
    ("results", .array (r.results.map CheckResult.json)), ("summary", r.verdict.json)]

end PluginLint
