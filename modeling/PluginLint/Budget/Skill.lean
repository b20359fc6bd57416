import PluginLint.Budget.Counter
import PluginLint.Budget.Limits
import PluginLint.Document.Basic
import PluginLint.Plugin.Component

/-!
# The budget of a skill

A skill is loaded in three tiers: the description in its header, the body of its entry document,
and references that are read on demand. References are the `*.md` files below `references/` and
beside the entry document, each resolved file once; scripts are counted for the report only. A
file that cannot be read is listed with its fault and counts nothing.
-/
namespace PluginLint

inductive FileRole where
  | skill
  | reference
  | script
  deriving DecidableEq, Repr

def FileRole.word : FileRole → String
  | .skill => "skill"
  | .reference => "reference"
  | .script => "script"

/-- The units of one file. -/
structure FileUnits where
  file : Text
  units : Nat
  role : FileRole
  deriving DecidableEq, Repr

/-- The units of a skill by tier, and of every file. -/
structure Units where
  metadata : Nat
  body : Nat
  references : Nat
  scripts : Nat
  total : Nat
  files : List FileUnits
  deriving DecidableEq, Repr

def Units.filesOf (u : Units) (role : FileRole) : List FileUnits :=
  u.files.filter fun f => f.role = role

structure SkillBudget where
  name : Text
  path : Path
  status : BudgetStatus
  units : Units
  unreadable : List (Text × Fault)
  deriving DecidableEq, Repr

namespace SkillBudget

def hasExtension (allowed : List String) (p : Path) : Bool :=
  match p.fileName?.bind Path.nameExtension? with
  | some extension => allowed.any fun a => a.toList == extension
  | none => false

/-- What a path stands for: the location it leads to, or itself when it leads nowhere. -/
inductive Target where
  | location (location : Location)
  | unresolved (path : Path)
  deriving DecidableEq, Repr

def target (t : FileTree) (p : Path) : Target :=
  match t.locate p with
  | .ok location => .location location
  | .error _ => .unresolved p

/-- Paths that stand for something no earlier path stands for, `seen` among those. -/
def distinctTargets (t : FileTree) (seen : List Target) : List Path → List Path
  | [] => []
  | p :: rest =>
    if target t p ∈ seen then distinctTargets t seen rest
    else p :: distinctTargets t (target t p :: seen) rest

/-- The reference documents of a skill directory. -/
def referenceFiles (t : FileTree) (directory : Path) : List Path :=
  let nested := t.filesBelow (directory.join "references".toList)
  let siblings := ((t.entries directory).filter fun entry =>
    entry.isFile t && entry.name != skillEntry.toList).map (·.path)
  distinctTargets t [] ((nested ++ siblings).filter (hasExtension ["md"]))

/-- The scripts of a skill directory. -/
def scriptFiles (t : FileTree) (directory : Path) : List Path :=
  (t.filesBelow (directory.join "scripts".toList)).filter (hasExtension ["py", "sh", "js", "ts"])

/-- Files of a role, read and counted, and those that could not be read. -/
def measure (t : FileTree) (counter : Counter) (directory : Path) (role : FileRole) :
    List Path → List FileUnits × List (Text × Fault)
  | [] => ([], [])
  | p :: rest =>
    let (files, unreadable) := measure t counter directory role rest
    let label := Path.label directory p
    match t.readText p with
    | .ok text => (⟨label, counter.count text, role⟩ :: files, unreadable)
    | .error fault => (files, (label, fault) :: unreadable)

/-- The units of some files together. -/
def sumUnits (files : List FileUnits) : Nat := files.foldr (fun f total => f.units + total) 0

/-- The budget of a skill directory with a given entry document. -/
def analyze (t : FileTree) (directory : Path) (entry : Text) (counter : Counter)
    (limits : Limits) : SkillBudget :=
  let document := Document.parse entry
  let metadata := counter.count ((document.header.value? "description".toList).getD [])
  let body := counter.count document.body
  let references := measure t counter directory .reference (referenceFiles t directory)
  let scripts := measure t counter directory .script (scriptFiles t directory)
  { name := directory.fileName?.getD []
    path := directory
    status := BudgetStatus.ofBody body limits
    units :=
      { metadata := metadata
        body := body
        references := sumUnits references.1
        scripts := sumUnits scripts.1
        total := metadata + body + sumUnits references.1 + sumUnits scripts.1
        files := ⟨skillEntry.toList, body, .skill⟩ :: (references.1 ++ scripts.1) }
    unreadable := references.2 ++ scripts.2 }

/-- Whether the body is above its target. -/
def isAboveTarget (b : SkillBudget) (limits : Limits) : Bool := limits.bodyTarget < b.units.body

/-- Units by which the body exceeds its target. -/
def excess (b : SkillBudget) (limits : Limits) : Nat := b.units.body - limits.bodyTarget

/-- References below this volume suggest that more of a large body could move there. -/
def thinReferences : Nat := 500

/-- The note on the metadata tier. -/
def metadataNotes (b : SkillBudget) (limits : Limits) : List String :=
  if limits.metadataWarning < b.units.metadata then
    [s!"Tier 1 (Metadata): {b.units.metadata} tokens exceeds ~{limits.metadataTarget} budget"]
  else []

/-- The note on the body tier. -/
def bodyNotes (b : SkillBudget) (limits : Limits) : List String :=
  match b.status with
  | .critical =>
    [s!"Tier 2 (SKILL.md): {b.units.body} tokens critically exceeds {limits.bodyCritical} " ++
      "limit - MUST refactor to references/"]
  | .warning =>
    [s!"Tier 2 (SKILL.md): {b.units.body} tokens exceeds {limits.bodyWarning} " ++
      "warning threshold - consider moving content to references/"]
  | .ok =>
    if b.isAboveTarget limits then
      [s!"Tier 2 (SKILL.md): {b.units.body} tokens above {limits.bodyTarget} target " ++
        "(acceptable if content is critical)"]
    else []

/-- The note on references that are there but few. -/
def referenceNotes (b : SkillBudget) (limits : Limits) : List String :=
  if 0 < b.units.references ∧ b.units.references < thinReferences ∧ b.isAboveTarget limits then
    [s!"Tier 3 references thin: only {b.units.references} tokens - " ++
      "consider moving more content from SKILL.md"]
  else []

/-- One note for every file that could not be read. -/
def readNotes (b : SkillBudget) : List String :=
  b.unreadable.map fun (file, fault) => s!"Cannot read {String.ofList file}: {fault.message}"

/-- The notes of the budget report, tier by tier. -/
def notes (b : SkillBudget) (limits : Limits) : List String :=
  b.metadataNotes limits ++ b.bodyNotes limits ++ b.referenceNotes limits ++ b.readNotes

end SkillBudget
end PluginLint
