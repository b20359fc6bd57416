import PluginLint.Check.Basic

/-!
# The tokens check

The budget of every skill: one issue on the band that its body falls into, one on metadata that is
too long, one for every file of it that cannot be read, and passing details with the figures.
-/
namespace PluginLint

namespace TokensCheck

/-- An issue without a place. -/
def plain (severity : Severity) (message : String) : Issue :=
  { severity := severity, message := message.toList }

/-- The issue on the band of a body. -/
def bandIssue (b : SkillBudget) (limits : Limits) : Issue :=
  let excess := b.excess limits
  match b.status with
  | .critical =>
    { plain .must s!"Token budget exceeded: {b.units.body} tokens" with
      suggestion := some s!"MUST move {excess}+ tokens to references/".toList }
  | .warning =>
    { plain .should s!"Token count high: {b.units.body} tokens" with
      suggestion := some s!"Move {excess}+ tokens to references/".toList }
  | .ok =>
    if b.isAboveTarget limits then
      { plain .may s!"Token count above target: {b.units.body} tokens" with
        suggestion := some s!"Consider moving {excess} tokens to references/".toList }
    else plain .ok s!"Token count OK: {b.units.body} tokens"

def bodyRule (file : Text) (b : SkillBudget) (limits : Limits) : Issue :=
  { bandIssue b limits with file := some file, details := some b.units }

def metadataRule (file : Text) (b : SkillBudget) (limits : Limits) : List Issue :=
  if limits.metadataWarning < b.units.metadata then
    [{ plain .should s!"Description too long: {b.units.metadata} tokens" with
       file := some file
       suggestion :=
         some s!"Keep the description near {limits.metadataTarget} tokens".toList }]
  else []

/-- Reversed text without any entry document's name at its front. -/
def trimReversedEntry : Text → Text
  | 'd' :: 'm' :: '.' :: 'L' :: 'L' :: 'I' :: 'K' :: 'S' :: '/' :: rest => trimReversedEntry rest
  | s => s

/-- The text without any entry document's name at its end. -/
def trimEntry (file : Text) : Text := (trimReversedEntry file.reverse).reverse

example : trimEntry "skills/a/SKILL.md".toList = "skills/a".toList := by decide

/-- The files of a skill that cannot be read. -/
def readRules (file : Text) (b : SkillBudget) : List Issue :=
  b.unreadable.map fun (label, fault) =>
    Issue.cannotRead (trimEntry file ++ '/' :: label) fault.message.toList

/-- The units of files of one role, a line each. -/
def fileLines (files : List FileUnits) : List Issue :=
  files.map fun f =>
    { severity := .ok
      message := "    - ".toList ++ f.file ++ s!": {f.units} tokens".toList }

/-- The figures of a skill. -/
def breakdown (u : Units) (limits : Limits) : List Issue :=
  let references := u.filesOf .reference
  let scripts := u.filesOf .script
  [plain .ok s!"  Frontmatter: {u.metadata} tokens (target: ~{limits.metadataTarget})",
    plain .ok s!"  Body: {u.body} tokens (target: ~{limits.bodyTarget})",
    plain .ok s!"  References: {u.references} tokens ({references.length} files)"] ++
  fileLines references ++
  (if scripts = [] then []
  else
    plain .ok s!"  Scripts: {u.scripts} tokens ({scripts.length} files)" :: fileLines scripts) ++
  [plain .ok s!"  Total: {u.total} tokens"]

/-- What is found in an analysed skill, with the figures where passing details are wanted. -/
def budgetRules (file : Text) (b : SkillBudget) (limits : Limits) (verbose : Bool) : List Issue :=
  [bodyRule file b limits] ++ metadataRule file b limits ++ readRules file b ++
    if verbose then breakdown b.units limits else []

/-- The budget of a skill, when its entry document can be read. -/
def budget? (s : Subject) (skill : Component) : Option SkillBudget :=
  match skill.content, skill.skillDirectory? with
  | .ok entry, some directory =>
    some (SkillBudget.analyze s.tree directory entry s.counter s.limits)
  | _, _ => none

def skillRules (s : Subject) (skill : Component) : List Issue :=
  match skill.content with
  | .error fault => [skill.cannotRead fault]
  | .ok _ =>
    match budget? s skill with
    | some b => budgetRules skill.label b s.limits s.verbose
    | none => []

def noSkills (s : Subject) : Issue :=
  { plain .may "No skills found" with
    suggestion :=
      if skillDirectories s.tree s.root = [] then none
      else some "Add SKILL.md to each skill directory".toList }

/-- Whether a skill is critical. -/
def isCritical (s : Subject) (skill : Component) : Bool :=
  (budget? s skill).any fun b => b.status = .critical

def inspect (s : Subject) : Findings :=
  if !s.tree.isDirectory (kindDirectory s.root .skill) then
    ⟨[plain .may "No skills/ directory"], false⟩
  else if s.components.skills.isEmpty then ⟨[noSkills s], false⟩
  else
    ⟨s.components.skills.flatMap (skillRules s), s.components.skills.any (isCritical s)⟩

end TokensCheck

def tokensCheck : Check :=
  ⟨.tokens, "Skill metadata and body stay within their unit budgets".toList,
    TokensCheck.inspect⟩

end PluginLint
