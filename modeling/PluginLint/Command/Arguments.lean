import PluginLint.FileTree.Path

/-!
# Command lines

A command line is some options, a command, and the options and the path of the command. An option
that takes a value is settled when the next argument settles it, so a value that is missing, empty
or given twice shows only then. The first thing wrong decides the error; asking for help or for the
version ends the reading in the same way.
-/
namespace PluginLint

/-- Why a command line is not carried out. -/
inductive UsageError where
  | missingArgument
  | missingCommand
  | unknownArgument
  | unknownCommand
  | invalidValue
  | conflict
  | unneededValue
  | help
  | version
  /-- nothing was given at all -/
  | nothing
  deriving DecidableEq, Repr

/-- The word for a kind of error. -/
def UsageError.word : UsageError → String
  | .missingArgument => "MissingRequiredArgument"
  | .missingCommand => "MissingSubcommand"
  | .unknownArgument => "UnknownArgument"
  | .unknownCommand => "InvalidSubcommand"
  | .invalidValue => "InvalidValue"
  | .conflict => "ArgumentConflict"
  | .unneededValue => "TooManyValues"
  | .help => "DisplayHelp"
  | .version => "DisplayVersion"
  | .nothing => "DisplayHelpOnMissingArgumentOrSubcommand"

/-- The exit code where a command line is not carried out. Help and the version are what was asked
for. -/
def UsageError.exitCode : UsageError → Nat
  | .help | .version => 0
  | _ => 2

/-- What a run does. -/
inductive Command where
  | validate (plugin : Path) (checks : Text)
  | tokens (path : Path)
  deriving DecidableEq, Repr

/-- A command with the options that go for every command. -/
structure Invocation where
  command : Command
  verbose : Bool
  json : Bool
  quiet : Bool
  config : Option Path
  deriving DecidableEq, Repr

namespace Invocation

/-- Where an argument stands: before the command, or after one. -/
inductive Level where
  | top
  | validate
  | tokens
  deriving DecidableEq, Repr

/-- The command that a word names. -/
def Level.ofWord? (word : Text) : Option Level :=
  if word = "validate".toList then some .validate
  else if word = "tokens".toList then some .tokens
  else none

inductive Flag where
  | verbose
  | json
  | quiet
  | help
  | version
  deriving DecidableEq, Repr

/-- What takes a value: two options, and the path of a command. -/
inductive Slot where
  | config
  | check
  | path
  deriving DecidableEq, Repr

/-- What an option's name stands for. -/
inductive Meaning where
  | flag (flag : Flag)
  | slot (slot : Slot)

/-- The meaning of a long option. The version can be asked for only before a command. -/
def Level.long? (level : Level) (name : Text) : Option Meaning :=
  if name = "verbose".toList then some (.flag .verbose)
  else if name = "json".toList then some (.flag .json)
  else if name = "quiet".toList then some (.flag .quiet)
  else if name = "help".toList then some (.flag .help)
  else if name = "version".toList ∧ level = .top then some (.flag .version)
  else if name = "config".toList then some (.slot .config)
  else if name = "check".toList ∧ level = .validate then some (.slot .check)
  else none

/-- The meaning of a letter after a single hyphen. -/
def Level.short? (level : Level) (letter : Char) : Option Flag :=
  match letter, level with
  | 'v', _ => some .verbose
  | 'q', _ => some .quiet
  | 'h', _ => some .help
  | 'V', .top => some .version
  | _, _ => none

/-- What was given at one level so far. -/
structure Given where
  verbose : Bool := false
  json : Bool := false
  quiet : Bool := false
  config : Option Text := none
  check : Option Text := none
  path : Option Text := none
  /-- the last option or path, with its value if that has come -/
  pending : Option (Slot × Option Text) := none

namespace Given

def value? (g : Given) : Slot → Option Text
  | .config => g.config
  | .check => g.check
  | .path => g.path

/-- Gives a slot its value. Only the selection of checks may be empty, and no slot has two
values. -/
def settleValue (g : Given) (slot : Slot) (value : Text) : Except UsageError Given :=
  if (g.value? slot).isSome then .error .conflict
  else
    match slot with
    | .config => if value = [] then .error .invalidValue else .ok { g with config := some value }
    | .check => .ok { g with check := some value }
    | .path => if value = [] then .error .invalidValue else .ok { g with path := some value }

/-- Settles what is pending. -/
def settle (g : Given) : Except UsageError Given :=
  match g.pending with
  | none => .ok g
  | some (_, none) => .error .invalidValue
  | some (slot, some value) => { g with pending := none }.settleValue slot value

/-- Takes a flag. Only the verbose flag may be repeated. -/
def raise (g : Given) (flag : Flag) : Except UsageError Given := do
  let g ← g.settle
  match flag with
  | .verbose => return { g with verbose := true }
  | .json => if g.json then throw .conflict else return { g with json := true }
  | .quiet => if g.quiet then throw .conflict else return { g with quiet := true }
  | .help => throw .help
  | .version => throw .version

/-- Takes a slot's name or value, which is settled later. -/
def await (g : Given) (slot : Slot) (value : Option Text) : Except UsageError Given := do
  let g ← g.settle
  return { g with pending := some (slot, value) }

/-- Whether the next argument is the value of an option. -/
def awaited (g : Given) : Option Slot :=
  match g.pending with
  | some (slot, none) => some slot
  | _ => none

/-- Whether the path of the command was given. -/
def hasPath (g : Given) : Bool := g.path.isSome || g.pending.any fun p => p.1 = .path

/-- Whether nothing was given. -/
def isNothing (g : Given) : Bool := !g.verbose && !g.json && !g.quiet && g.config.isNone

end Given

/-- Takes a long option, given what follows its hyphens. -/
def takeLong (level : Level) (g : Given) (body : Text) : Except UsageError Given :=
  let name := body.takeWhile (· ≠ '=')
  let attached := body.drop name.length
  match level.long? name with
  | none => .error .unknownArgument
  | some (.flag flag) => if attached = [] then g.raise flag else .error .unneededValue
  | some (.slot slot) =>
    if attached = [] then g.await slot none
    else do (← g.await slot (some attached.tail)).settle

/-- Takes letters after a single hyphen. -/
def takeShort (level : Level) (g : Given) : Text → Except UsageError Given
  | [] => .ok g
  | letter :: rest =>
    match level.short? letter with
    | some flag => do takeShort level (← g.raise flag) rest
    | none => .error .unknownArgument

/-- Takes an argument that is no option: the path of a command. -/
def takePath (level : Level) (g : Given) (argument : Text) : Except UsageError Given :=
  if level = .top then .error .unknownCommand
  else if g.hasPath then .error .unknownArgument
  else g.await .path (some argument)

/-- What the help command is asked about. -/
def helpOn : List Text → UsageError
  | [] => .help
  | [word] => if (Level.ofWord? word).isSome ∨ word = "help".toList then .help else .unknownCommand
  | _ => .unknownCommand

/-- Takes arguments after two hyphens, none of which is an option. -/
def takePlain (level : Level) (g : Given) : List Text → Except UsageError Given
  | [] => .ok g
  | argument :: rest =>
    if level = .top ∧ ((Level.ofWord? argument).isSome ∨ argument = "help".toList) then
      .error .unknownArgument
    else do takePlain level (← takePath level g argument) rest

/-- Takes one argument that may be an option. -/
def takeOne (level : Level) (g : Given) (argument : Text) : Except UsageError Given :=
  match argument with
  | '-' :: '-' :: body => takeLong level g body
  | '-' :: letter :: rest => takeShort level g (letter :: rest)
  | _ =>
    match g.awaited with
    | some slot => .ok { g with pending := some (slot, some argument) }
    | none => takePath level g argument

/-- Takes the arguments of a level, up to a command at the top. What follows the command is
left. -/
def take (level : Level) (g : Given) :
    List Text → Except UsageError (Given × Option (Level × List Text))
  | [] => .ok (g, none)
  | argument :: rest =>
    match (if level = .top ∧ g.awaited = none then Level.ofWord? argument else none) with
    | some command => .ok (g, some (command, rest))
    | none =>
      if level = .top ∧ g.awaited = none ∧ argument = "help".toList then .error (helpOn rest)
      else if argument = ['-', '-'] then (takePlain level g rest).map (·, none)
      else do take level (← takeOne level g argument) rest

/-- The selection of checks where none is given. -/
def allChecks : Text := "all".toList

/-- The command of a level with its path. -/
def Level.command (level : Level) (path : Path) (checks : Option Text) : Command :=
  match level with
  | .tokens => .tokens path
  | _ => .validate path (checks.getD allChecks)

/-- Reads a command line without the name of the program. An option after the command goes before
the same option in front of it. -/
def parse (arguments : List Text) : Except UsageError Invocation := do
  let (top, found) ← take .top {} arguments
  match found with
  | none =>
    let top ← top.settle
    throw (if top.isNothing then .nothing else .missingCommand)
  | some (level, rest) =>
    let (given, _) ← take level {} rest
    let given ← given.settle
    let some path := given.path | throw .missingArgument
    let top ← top.settle
    return {
      command := level.command ⟨path⟩ given.check
      verbose := given.verbose || top.verbose
      json := given.json || top.json
      quiet := given.quiet || top.quiet
      config := (given.config <|> top.config).map Path.mk }

end Invocation
end PluginLint
