import PluginLint.Command.Run

/-!
# The program

Observes the files that a command line may lead to, carries the command out on that observation,
and writes what came of it. The settings directory of the user is the one that the environment
variables name, and there is no precise counter.
-/
namespace PluginLint.Program

/-- The environment variables that a run looks at. -/
def environmentNames : List String :=
  Threshold.all.map Threshold.environmentName ++
    ["PLINT_TOKENIZER", "PLINT_CONFIG", "XDG_CONFIG_HOME", "HOME", "NO_COLOR", "TERM", "CLICOLOR",
      "CLICOLOR_FORCE"]

def readEnvironment : IO Environment := do
  let values ← environmentNames.filterMapM fun name => do
    return (← IO.getEnv name).map fun value => (name, value.toList)
  return .ofVariables fun name => values.lookup name

/-- The location that an absolute path is written as. -/
def locationOf (path : String) : Location :=
  (path.toList.splitOn '/').filter fun segment => segment ≠ [] ∧ segment ≠ ['.']

abbrev Nodes := List (Location × Node)

/-- What a file holds. -/
def contentAt (path : String) : IO Content := do
  try return .ofBytes (← IO.FS.readBinFile path) catch _ => return .denied

/-- A target that leads nowhere. -/
def nowhere : Path := ⟨['/', '\x00']⟩

/-- Where a link leads once every link behind it is followed. -/
def targetAt (path : String) : IO Path := do
  try return .ofString (← IO.FS.realPath path).toString catch _ => return nowhere

/-- What lies at a path, links not followed. -/
def nodeAt (path : String) : IO (Option Node) := do
  try
    match (← ((← IO.currentDir) / path).symlinkMetadata).type with
    | .dir => return some .directory
    | .file => return some (.file (← contentAt path))
    | .symlink => return some (.link (← targetAt path))
    | .other => return none
  catch _ => return none

/-- The directories and links on the way to a path. -/
def nodesOnWay (path : String) : IO Nodes := do
  let place := locationOf path
  let ways := (List.range place.length).map fun n => place.take (n + 1)
  ways.filterMapM fun way => do
    let node ← nodeAt ("/" ++ String.ofList (List.intercalate ['/'] way))
    return node.map fun node => (way, node)

/-- Everything at a path and below it, with what links lead to. -/
partial def observe (nodes : Nodes) (path : String) : IO Nodes := do
  let place := locationOf path
  if (nodes.lookup place).isSome then return nodes
  match ← nodeAt path with
  | none => return nodes
  | some (.link target) =>
    if target = nowhere then return (place, .link target) :: nodes
    let way ← nodesOnWay target.toString
    observe ((place, .link target) :: (nodes ++ way)) target.toString
  | some (.file content) => return (place, .file content) :: nodes
  | some .directory =>
    let mut nodes := (place, .directory) :: nodes
    for entry in ← ((← IO.currentDir) / path).readDir do
      nodes ← observe nodes (path ++ "/" ++ entry.fileName)
    return nodes

/-- Everything at a path and below it, and what lies on the way. -/
def observePath (nodes : Nodes) (path : Path) : IO Nodes := do
  let written := ((← IO.currentDir) / path.toString).toString
  let way ← nodesOnWay written
  try
    let resolved := (← IO.FS.realPath written).toString
    return (← observe nodes resolved) ++ way ++ (← nodesOnWay resolved)
  catch _ => return nodes ++ way

/-- The paths that a command line leads to. -/
def relevantPaths (environment : Environment) (i : Invocation) : List Path :=
  let target := match i.command with
    | .validate plugin _ => plugin
    | .tokens path => path
  [target] ++ (environment.namedFile? i.config).toList ++ environment.userFile?.toList ++
    (target.parent?.map (·.join projectFileName.toList)).toList

def observeAll (environment : Environment) (i : Invocation) : IO FileTree := do
  let nodes ← (relevantPaths environment i).foldlM observePath []
  return ⟨nodes, locationOf (← IO.currentDir).toString⟩

def usage : String :=
  "Validate plugin packages before activation\n\n" ++
  "Usage: plint [OPTIONS] validate [--check <LIST>] <PLUGIN_PATH>\n" ++
  "       plint [OPTIONS] tokens <PATH>\n\n" ++
  "Options:\n" ++
  "  -v, --verbose        Report passing rules\n" ++
  "      --json           Machine-readable output\n" ++
  "  -q, --quiet          Suppress log output\n" ++
  "      --config <FILE>  Settings file that stands for all others\n" ++
  "  -h, --help           Print help\n" ++
  "  -V, --version        Print version"

/-- Writes why a command line is not carried out. -/
def refuse (e : UsageError) : IO UInt32 := do
  match e with
  | .help => IO.println usage
  | .version => IO.println "plint 0.1.0"
  | e => IO.eprintln s!"error: {e.word}\n\n{usage}"
  return UInt32.ofNat e.exitCode

def carryOut (i : Invocation) : IO UInt32 := do
  let environment ← readEnvironment
  let tree ← observeAll environment i
  let colors := environment.wantsColors (← (← IO.getStdout).isTty)
  let outcome := ProgramOutcome.ofRun i.json (Surroundings.run ⟨tree, environment, colors⟩ i)
  IO.print (String.ofList outcome.output)
  IO.eprint (String.ofList outcome.errors)
  return UInt32.ofNat outcome.exitCode

end PluginLint.Program

def main (arguments : List String) : IO UInt32 :=
  match PluginLint.Invocation.parse (arguments.map String.toList) with
  | .ok invocation => PluginLint.Program.carryOut invocation
  | .error e => PluginLint.Program.refuse e
