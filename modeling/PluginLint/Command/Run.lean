import PluginLint.Check.Engine
import PluginLint.Command.Arguments
import PluginLint.Output.Budgets
import PluginLint.Output.Machine
import PluginLint.Output.Validation
import PluginLint.Settings.Layers

/-!
# Running a command

`validate` runs the selected checks on a plugin; `tokens` reports the budget of a file, of a skill
or of every skill in a plugin. Both give an exit code and the text to print, or an error.
-/
namespace PluginLint

/-- Everything a run depends on beside its command line. -/
structure Surroundings where
  tree : FileTree
  environment : Environment
  /-- whether styles are written -/
  colors : Bool

/-- What a run prints and its exit code. -/
structure Outcome where
  exitCode : Nat
  output : Text
  deriving DecidableEq, Repr

/-- Fails unless a path leads to a directory. -/
def requireDirectory (t : FileTree) (path : Path) (what : Text) : Except LintError Unit :=
  if !t.pathExists path then
    .error (.notFound (what ++ " not found: ".toList ++ path.text))
  else if !t.isDirectory path then
    .error (.invalidPlugin ("Path is not a directory: ".toList ++ path.text))
  else .ok ()

/-- The directory in which the settings file of a target is looked for. -/
def settingsRoot (t : FileTree) (target : Path) : Path :=
  if t.isFile target then target.parent?.getD ⟨[]⟩ else target

/-- The text of a file that must be readable. -/
def requireText (t : FileTree) (path : Path) : Except LintError Text :=
  match t.readText path with
  | .ok text => .ok text
  | .error fault => .error (.unreadable path fault.message.toList)

/-- The kinds of checks that a selection stands for. -/
def selectChecks (checks : Text) : Except LintError (List CheckKind) :=
  (CheckKind.parseList checks).mapError fun e => .notFound e.message

/-- What is printed: JSON, or lines for people. -/
def printed (json : Bool) (value : Json) (layout : Layout) : Text :=
  (if json then value.pretty else layout.text) ++ ['\n']

/-- The settings for a target. -/
def Surroundings.settings (s : Surroundings) (i : Invocation) (target : Path) :
    Except LintError Settings :=
  (Settings.load s.tree s.environment i.config (settingsRoot s.tree target)).mapError .ofSettings

/-- The counter that settings ask for, the precise one where the program has it. -/
def Surroundings.counter (s : Surroundings) (settings : Settings) : Counter :=
  settings.method.counter s.environment.precise?

/-! ## Validation -/

/-- Validates a plugin with given settings. -/
def Surroundings.report (s : Surroundings) (i : Invocation) (plugin : Path)
    (kinds : List CheckKind) (settings : Settings) : Outcome :=
  let counter := s.counter settings
  let subject := Subject.ofRoot s.tree plugin settings.limits counter i.verbose
  let report := ((Engine.standard settings.limits i.verbose).select kinds).inspect subject
  let scope : ValidationReport.Scope :=
    { target := plugin, kinds := kinds, components := subject.components
      limits := settings.limits, method := counter.method, verbose := i.verbose }
  ⟨report.verdict.exitCode,
    printed i.json (report.json plugin counter.method)
      (ValidationReport.layout scope report s.colors)⟩

def Surroundings.validate (s : Surroundings) (i : Invocation) (plugin : Path) (checks : Text) :
    Except LintError Outcome := do
  requireDirectory s.tree plugin "Plugin directory".toList
  let kinds ← selectChecks checks
  let settings ← s.settings i plugin
  return s.report i plugin kinds settings

/-! ## Budgets -/

/-- What a path turns out to be whose budget is asked for. -/
inductive BudgetTarget where
  | file
  | skill
  | plugin (skills : List Path)
  deriving DecidableEq, Repr

namespace BudgetTarget

/-- The skill directories of a plugin that have an entry document. -/
def skillsOf (t : FileTree) (root : Path) : List Path :=
  (skillDirectories t root).filter fun directory => t.isFile (entryPath directory)

def classify (t : FileTree) (path : Path) : Except LintError BudgetTarget :=
  if !t.pathExists path then .error (.notFound ("Path not found: ".toList ++ path.text))
  else if t.isFile path then .ok .file
  else if t.isFile (entryPath path) then .ok .skill
  else if t.isDirectory (kindDirectory path .skill) then
    match skillsOf t path with
    | [] => .error (.notFound ("No skills found in ".toList ++ path.text))
    | skills => .ok (.plugin skills)
  else .error (.invalidPlugin (path.text ++ " is not a skill directory or plugin".toList))

end BudgetTarget

/-- The budget of a skill directory. -/
def SkillBudget.load (t : FileTree) (counter : Counter) (limits : Limits) (directory : Path) :
    Except LintError SkillBudget := do
  let entry ← requireText t (entryPath directory)
  return analyze t directory entry counter limits

/-- The report on some budgets that can be written. -/
def Surroundings.budgetReport (s : Surroundings) (i : Invocation) (settings : Settings)
    (budgets : List SkillBudget) : Outcome :=
  ⟨BudgetReport.exitCode budgets,
    printed i.json (.array (budgets.map SkillBudget.json))
      (BudgetReport.layout settings.limits (s.counter settings).method i.verbose s.colors
        budgets)⟩

/-- Reports on some budgets. JSON is text, so the paths in it must be. -/
def Surroundings.reportBudgets (s : Surroundings) (i : Invocation) (settings : Settings)
    (budgets : List SkillBudget) : Except LintError Outcome :=
  if i.json && !budgets.all (·.path.isText) then .error (.badJson .pathNotText)
  else .ok (s.budgetReport i settings budgets)

/-- The report on a single file. -/
def Surroundings.fileReport (s : Surroundings) (i : Invocation) (settings : Settings)
    (file : Path) (text : Text) : Outcome :=
  let counter := s.counter settings
  let units := counter.count text
  ⟨0,
    printed i.json
      (.ofFields [("file", .string file.text), ("tokens", .ofNat units),
        ("method", .ofString counter.method)])
      (BudgetReport.fileLayout file.text units counter.method s.colors)⟩

def Surroundings.tokens (s : Surroundings) (i : Invocation) (path : Path) :
    Except LintError Outcome := do
  let target ← BudgetTarget.classify s.tree path
  let settings ← s.settings i path
  let load := SkillBudget.load s.tree (s.counter settings) settings.limits
  match target with
  | .file => return s.fileReport i settings path (← requireText s.tree path)
  | .skill => s.reportBudgets i settings [← load path]
  | .plugin skills => s.reportBudgets i settings (← skills.mapM load)

/-- Carries out a command line. -/
def Surroundings.run (s : Surroundings) (i : Invocation) : Except LintError Outcome :=
  match i.command with
  | .validate plugin checks => s.validate i plugin checks
  | .tokens path => s.tokens i path

/-! ## The program -/

/-- Whether styles are wanted: on a terminal that knows them unless they are switched off, and
anywhere when they are asked for. -/
def Environment.wantsColors (env : Environment) (isTerminal : Bool) : Bool :=
  let zero : Text := ['0']
  let supported := isTerminal && (env "NO_COLOR").isNone &&
    (env "TERM").any fun kind => kind ≠ "dumb".toList
  supported && env "CLICOLOR" ≠ some zero || ((env "CLICOLOR_FORCE").getD zero) ≠ zero

/-- What a program writes and its exit code. -/
structure ProgramOutcome where
  exitCode : Nat
  output : Text
  errors : Text
  deriving DecidableEq, Repr

/-- An error as JSON. -/
def LintError.json (e : LintError) : Json :=
  .ofFields [("code", .ofString e.code), ("error", .bool true), ("message", .string e.message)]

/-- The outcome of a run as a program shows it. An error has the exit code one. -/
def ProgramOutcome.ofRun (json : Bool) : Except LintError Outcome → ProgramOutcome
  | .ok outcome => ⟨outcome.exitCode, outcome.output, []⟩
  | .error e =>
    if json then ⟨1, e.json.compact ++ ['\n'], []⟩
    else ⟨1, [], "Error: ".toList ++ e.message ++ ['\n']⟩

/-- What comes of a command line: it is refused, or carried out and shown. -/
def Surroundings.perform (s : Surroundings) (arguments : List Text) :
    Except UsageError ProgramOutcome :=
  (Invocation.parse arguments).map fun i => .ofRun i.json (s.run i)

/-- The exit code of a command line. -/
def Surroundings.exitCode (s : Surroundings) (arguments : List Text) : Nat :=
  match s.perform arguments with
  | .ok outcome => outcome.exitCode
  | .error e => e.exitCode

end PluginLint
