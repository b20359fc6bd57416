import PluginLint.Budget.Counter
import PluginLint.Budget.Limits
import PluginLint.FileTree.Path
import PluginLint.FileTree.Basic

/-!
# Settings

Settings are the budget limits and the method of counting. A patch changes some of them and leaves
the others, so layers of settings are patches applied one after the other. Settings are in order
when no target lies above its warning and no warning above its critical limit.
-/
namespace PluginLint

/-- The limits by name. -/
inductive Threshold where
  | metadataTarget
  | metadataWarning
  | bodyTarget
  | bodyWarning
  | bodyCritical
  deriving DecidableEq, Repr

namespace Threshold

/-- The thresholds in the order in which they are written without keys. -/
def all : List Threshold :=
  [.metadataTarget, .metadataWarning, .bodyTarget, .bodyWarning, .bodyCritical]

/-- The key in a settings file. -/
def key : Threshold → String
  | .metadataTarget => "metadata_target"
  | .metadataWarning => "metadata_warning"
  | .bodyTarget => "body_target"
  | .bodyWarning => "body_warning"
  | .bodyCritical => "body_critical"

/-- The environment variable. -/
def environmentName : Threshold → String
  | .metadataTarget => "PLINT_BUDGET_METADATA_TARGET"
  | .metadataWarning => "PLINT_BUDGET_METADATA_WARNING"
  | .bodyTarget => "PLINT_BUDGET_BODY_TARGET"
  | .bodyWarning => "PLINT_BUDGET_BODY_WARNING"
  | .bodyCritical => "PLINT_BUDGET_BODY_CRITICAL"

end Threshold

def Limits.get (l : Limits) : Threshold → Nat
  | .metadataTarget => l.metadataTarget
  | .metadataWarning => l.metadataWarning
  | .bodyTarget => l.bodyTarget
  | .bodyWarning => l.bodyWarning
  | .bodyCritical => l.bodyCritical

/-- The limits by a rule. -/
def Limits.ofThresholds (value : Threshold → Nat) : Limits :=
  ⟨value .metadataTarget, value .metadataWarning, value .bodyTarget, value .bodyWarning,
    value .bodyCritical⟩

@[simp] theorem Limits.get_ofThresholds (value : Threshold → Nat) (threshold : Threshold) :
    (Limits.ofThresholds value).get threshold = value threshold := by
  cases threshold <;> rfl

/-- Limits that are out of order. -/
inductive Disorder where
  | metadata (target warning : Nat)
  | body (target warning critical : Nat)
  deriving DecidableEq, Repr

/-- What is out of order among the limits, the metadata looked at first. -/
def Limits.disorder? (l : Limits) : Option Disorder :=
  if l.metadataWarning < l.metadataTarget then some (.metadata l.metadataTarget l.metadataWarning)
  else if l.bodyWarning < l.bodyTarget ∨ l.bodyCritical < l.bodyWarning then
    some (.body l.bodyTarget l.bodyWarning l.bodyCritical)
  else none

theorem Limits.disorder?_eq_none_iff {l : Limits} :
    l.disorder? = none ↔ l.metadataTarget ≤ l.metadataWarning ∧
      l.bodyTarget ≤ l.bodyWarning ∧ l.bodyWarning ≤ l.bodyCritical := by
  unfold Limits.disorder?
  split
  · simp; omega
  · split <;> simp <;> omega

structure Settings where
  limits : Limits
  method : CountingMethod
  deriving DecidableEq, Repr

/-- The settings where nothing else is set. -/
def Settings.standard : Settings := ⟨.standard, .automatic⟩

/-- A change of some settings. -/
structure Patch where
  threshold : Threshold → Option Nat
  method : Option CountingMethod

/-- The patch that changes nothing. -/
def Patch.empty : Patch := ⟨fun _ => none, none⟩

/-- Settings with the changes of a patch. -/
def Settings.apply (s : Settings) (p : Patch) : Settings where
  limits := Limits.ofThresholds fun threshold =>
    (p.threshold threshold).getD (s.limits.get threshold)
  method := p.method.getD s.method

/-- Why settings cannot be loaded. -/
inductive SettingsError where
  | missing (file : Path)
  | unreadable (file : Path) (fault : Fault)
  | malformed (file : Path)
  | badThreshold (threshold : Threshold) (value : Text) (error : Natural.Error)
  | badMethod (word : Text)
  | disorder (found : Disorder)
  deriving DecidableEq, Repr

def Disorder.message : Disorder → String
  | .metadata target warning =>
    s!"budget.metadata_target ({target}) exceeds budget.metadata_warning ({warning})"
  | .body target warning critical =>
    s!"budget body thresholds out of order: target {target} / warning {warning} / " ++
      s!"critical {critical}"

def SettingsError.message : SettingsError → String
  | .missing file => s!"config file not found: {file}"
  | .unreadable file fault => s!"read config {file}: {fault.message}"
  | .malformed file => s!"parse config {file}"
  | .badThreshold threshold value error =>
    s!"invalid {threshold.environmentName} value {String.ofList value}: {error.message}"
  | .badMethod word =>
    s!"invalid tokenizer method {String.ofList word} (expected auto|tiktoken|approximate)"
  | .disorder found => found.message

/-- The method that a text names. -/
def CountingMethod.parse (s : Text) : Except SettingsError CountingMethod :=
  match CountingMethod.ofText? s with
  | some method => .ok method
  | none => .error (.badMethod (plainWord s))

end PluginLint
