import PluginLint.Check.Frontmatter
import PluginLint.Check.Manifest
import PluginLint.Check.Structure
import PluginLint.Check.Tokens
import PluginLint.Check.Tools

/-!
# The engine

An engine holds checks in the order of their kinds and runs each of them once. Checks of one kind
keep the order in which they were registered.
-/
namespace PluginLint

/-- The checks that are built in, in order. -/
def builtinChecks : List Check :=
  [structureCheck, manifestCheck, frontmatterCheck, toolsCheck, tokensCheck]

/-- The built-in check of a kind. -/
def builtinCheck : CheckKind → Check
  | .layout => structureCheck
  | .manifest => manifestCheck
  | .frontmatter => frontmatterCheck
  | .tools => toolsCheck
  | .tokens => tokensCheck

structure Engine where
  checks : List Check
  limits : Limits
  /-- whether results keep passing details -/
  verbose : Bool

namespace Engine

/-- An engine without checks. -/
def empty (limits : Limits) (verbose : Bool) : Engine := ⟨[], limits, verbose⟩

/-- Checks with one more, in front of the first of a later kind. -/
def insert (check : Check) : List Check → List Check
  | [] => [check]
  | c :: rest =>
    if check.kind.rank < c.kind.rank then check :: c :: rest else c :: insert check rest

def register (e : Engine) (check : Check) : Engine := { e with checks := insert check e.checks }

/-- An engine with every built-in check. -/
def standard (limits : Limits) (verbose : Bool) : Engine :=
  builtinChecks.foldl register (empty limits verbose)

/-- Keeps the checks of some kinds. -/
def select (e : Engine) (kinds : List CheckKind) : Engine :=
  { e with checks := e.checks.filter fun c => c.kind ∈ kinds }

/-- The kinds and descriptions of the checks. -/
def list (e : Engine) : List (CheckKind × Text) := e.checks.map fun c => (c.kind, c.description)

/-- Runs every check on a plugin. -/
def inspect (e : Engine) (subject : Subject) : Report :=
  ⟨e.checks.map fun c => c.run subject⟩

/-- Runs every check on the plugin below a root. -/
def validate (e : Engine) (tree : FileTree) (root : Path) (counter : Counter) : Report :=
  e.inspect (Subject.ofRoot tree root e.limits counter e.verbose)

end Engine
end PluginLint
