import PluginLint.Settings.File

/-!
# Layers of settings

Settings start from the standard ones. A file that is named, on the command line or in the
environment, is the only file; otherwise the user's file and then the file of the plugin are
applied, each if it is there. The environment is applied last, and then the limits must be in
order.
-/
namespace PluginLint

/-- What a run finds around it beside files: the environment variables, what the system says of the
user's directories, and what the program was built with. -/
structure Environment where
  /-- the values of the environment variables that are set and are text -/
  value? : String → Option Text
  /-- the directory for users' settings, as far as the system knows one -/
  settingsDirectory? : Option Path
  /-- the precise counter, where it was built in and has loaded -/
  precise? : Option Counter

/-- The settings file in a plugin root. -/
def projectFileName : String := ".plint.toml"

/-- The patch of a settings file; nothing when there is no such file. -/
def readPatch (t : FileTree) (file : Path) : Except SettingsError (Option Patch) :=
  if t.pathExists file then
    match t.readText file with
    | .ok text =>
      match Patch.parse? text with
      | some patch => .ok (some patch)
      | none => .error (.malformed file)
    | .error fault => .error (.unreadable file fault)
  else .ok none

namespace Environment

instance : CoeFun Environment fun _ => String → Option Text := ⟨value?⟩

/-- The surroundings of a program without a precise counter on a system that knows of no settings
directory but the one that its variables name. -/
def ofVariables (value? : String → Option Text) : Environment where
  value? := value?
  settingsDirectory? :=
    match (value? "XDG_CONFIG_HOME").filter fun value => value.head? = some '/' with
    | some directory => some ⟨directory⟩
    | none =>
      ((value? "HOME").filter (· ≠ [])).map fun home => Path.join ⟨home⟩ ".config".toList
  precise? := none

instance : Coe (String → Option Text) Environment := ⟨ofVariables⟩

/-- The user's settings file. -/
def userFile? (env : Environment) : Option Path :=
  env.settingsDirectory?.map (·.join "plint/config.toml".toList)

/-- The file that stands for all others, when one is named. An argument goes before the
environment. -/
def namedFile? (env : Environment) (argument : Option Path) : Option Path :=
  argument <|> (env "PLINT_CONFIG").map Path.mk

def threshold? (env : Environment) (threshold : Threshold) : Except SettingsError (Option Nat) :=
  match env threshold.environmentName with
  | none => .ok none
  | some value =>
    match Natural.parse (Text.trim value) with
    | .ok n => .ok (some n)
    | .error e => .error (.badThreshold threshold value e)

def method? (env : Environment) : Except SettingsError (Option CountingMethod) :=
  match env "PLINT_TOKENIZER" with
  | none => .ok none
  | some value => (CountingMethod.parse value).map some

/-- The patch that the environment makes. The first variable that cannot be read decides the
error. -/
def patch (env : Environment) : Except SettingsError Patch := do
  let metadataTarget ← env.threshold? .metadataTarget
  let metadataWarning ← env.threshold? .metadataWarning
  let bodyTarget ← env.threshold? .bodyTarget
  let bodyWarning ← env.threshold? .bodyWarning
  let bodyCritical ← env.threshold? .bodyCritical
  let method ← env.method?
  return {
    threshold := fun
      | .metadataTarget => metadataTarget
      | .metadataWarning => metadataWarning
      | .bodyTarget => bodyTarget
      | .bodyWarning => bodyWarning
      | .bodyCritical => bodyCritical
    method := method }

end Environment

namespace Settings

/-- The patches of the files, the weakest first. -/
def filePatches (t : FileTree) (env : Environment) (argument : Option Path) (root : Path) :
    Except SettingsError (List Patch) :=
  match env.namedFile? argument with
  | some file => do
    match ← readPatch t file with
    | some patch => return [patch]
    | none => throw (.missing file)
  | none => do
    let user ← match env.userFile? with
      | some file => readPatch t file
      | none => pure none
    let project ← readPatch t (root.join projectFileName.toList)
    return user.toList ++ project.toList

/-- The settings for the plugin below a root. -/
def load (t : FileTree) (env : Environment) (argument : Option Path) (root : Path) :
    Except SettingsError Settings := do
  let files ← filePatches t env argument root
  let environment ← env.patch
  let settings := (files ++ [environment]).foldl apply standard
  match settings.limits.disorder? with
  | some found => throw (.disorder found)
  | none => return settings

end Settings
end PluginLint
