import PluginLint.Json.Parser
import PluginLint.Settings.Basic

/-!
# Errors of a run

A run fails on what it needs before it can look at a plugin: the settings, the named checks and the
named directory. What a check cannot read is an issue, not an error. A report on budgets fails on an
entry document that cannot be read, and, written as JSON, on a path that is no text.
-/
namespace PluginLint

/-- Why something is not read from JSON or not written as JSON. -/
inductive JsonFault where
  | unparsed (error : Json.ParseError)
  | pathNotText
  deriving DecidableEq, Repr

instance : Coe Json.ParseError JsonFault := ⟨.unparsed⟩

def JsonFault.message : JsonFault → String
  | .unparsed error => error.message
  | .pathNotText => "path contains invalid UTF-8 characters"

inductive LintError where
  | io (reason : Text)
  | settings (reason : Text)
  | badJson (fault : JsonFault)
  | notFound (reason : Text)
  | invalidPlugin (reason : Text)
  | unreadable (path : Path) (reason : Text)
  deriving DecidableEq, Repr

namespace LintError

def ofSettings (e : SettingsError) : LintError := .settings e.message.toList

/-- The word for an error in machine-readable output. -/
def code : LintError → String
  | .io _ => "io_error"
  | .settings _ => "config_error"
  | .badJson _ => "serialization_error"
  | .notFound _ => "not_found"
  | .invalidPlugin _ => "invalid_plugin"
  | .unreadable _ _ => "read_error"

def message : LintError → Text
  | .io reason => "io error: ".toList ++ reason
  | .settings reason => "configuration error: ".toList ++ reason
  | .badJson fault => s!"serialization error: {fault.message}".toList
  | .notFound reason => "not found: ".toList ++ reason
  | .invalidPlugin reason => "invalid plugin: ".toList ++ reason
  | .unreadable path reason => "failed to read ".toList ++ path.text ++ ": ".toList ++ reason

end LintError
end PluginLint
