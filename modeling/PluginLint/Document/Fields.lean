import PluginLint.Document.Header
import PluginLint.Text.LetterCase

/-!
# The fields that checks look at

A typed view of a header block. `user-invocable` is read as a truth value; `allowed-tools` is
looked at for access to the shell without a filter.
-/
namespace PluginLint

/-- A truth value in any of its usual spellings, in any case. -/
def truthValue? (value : Text) : Option Bool :=
  let word := Text.lowercase (Text.trim value)
  if ["true".toList, "yes".toList, "on".toList, "1".toList].contains word then some true
  else if ["false".toList, "no".toList, "off".toList, "0".toList].contains word then some false
  else none

/-- Whether a list of tools names the shell and nowhere opens a filter for it. -/
def isUnrestrictedShell (tools : Text) : Bool :=
  Text.occurs "Bash".toList tools && !Text.occurs "Bash(".toList tools

/-- The known fields of a component's header. -/
structure Fields where
  name : Option Field
  description : Option Field
  model : Option Field
  color : Option Field
  allowedTools : Option Field
  userInvocable : Option Bool
  deriving DecidableEq, Repr

namespace Fields

def ofHeader (h : Header) : Fields where
  name := h.field? "name".toList
  description := h.field? "description".toList
  model := h.field? "model".toList
  color := h.field? "color".toList
  allowedTools := h.field? "allowed-tools".toList
  userInvocable := (h.value? "user-invocable".toList).bind truthValue?

/-- The tools field when it gives access to the shell without a filter. -/
def unrestrictedShell (f : Fields) : Option Field :=
  f.allowedTools.filter fun field => isUnrestrictedShell field.value

def descriptionText (f : Fields) : Text := (f.description.map (·.value)).getD []

end Fields
end PluginLint
