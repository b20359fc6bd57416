import PluginLint.Plugin.Manifest
import PluginLint.Report.Verdict

/-!
# Checks

A check looks at a plugin and finds issues. Passing details are found as well; the result that
records them keeps what is asked for, so a check looks at that only where it would go on to find
passing details alone.
-/
namespace PluginLint

/-- The plugin that is looked at, and what it is measured by. -/
structure Subject where
  tree : FileTree
  root : Path
  components : Components
  manifest : ManifestSource
  limits : Limits
  counter : Counter
  /-- whether passing details are wanted -/
  verbose : Bool

/-- The plugin below a root. -/
def Subject.ofRoot (tree : FileTree) (root : Path) (limits : Limits) (counter : Counter)
    (verbose : Bool) : Subject where
  tree := tree
  root := root
  components := discover tree root
  manifest := ManifestSource.load tree root
  limits := limits
  counter := counter
  verbose := verbose

/-- What a check found. -/
structure Findings where
  issues : List Issue
  /-- whether a budget is critical -/
  critical : Bool := false
  deriving DecidableEq, Repr

structure Check where
  kind : CheckKind
  description : Text
  inspect : Subject → Findings

namespace Check

/-- Records what was found. -/
def record (kind : CheckKind) (verbose : Bool) (found : Findings) : CheckResult :=
  let result := found.issues.foldl CheckResult.push (.empty kind verbose)
  if found.critical then result.markCritical else result

def run (c : Check) (subject : Subject) : CheckResult :=
  record c.kind subject.verbose (c.inspect subject)

end Check

/-- Why a component cannot be read, as issues say it. -/
def Component.faultText (c : Component) (fault : Fault) : Text :=
  "failed to read ".toList ++ c.path.text ++ ": ".toList ++ fault.message.toList

/-- The issue that a component cannot be read. -/
def Component.cannotRead (c : Component) (fault : Fault) : Issue :=
  Issue.cannotRead c.label (c.faultText fault)

end PluginLint
