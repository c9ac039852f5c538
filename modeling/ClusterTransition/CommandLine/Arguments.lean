import ClusterTransition.CommandLine.Invocation
import ClusterTransition.CommandLine.Options

/-! # The arguments of the program

The commands `show`, `simulate`, `digest` and `verify` stand at the first level, and `init`, `show`
and `check` at the level of `config`.  The options that all commands have can be given at each
level; for the path of the configuration the innermost level counts.
-/

namespace ClusterTransition
namespace Arguments

/-! ## Levels -/

/-- The name of the program. -/
def programName : String := "crm"

/-- The options that can be given at each level. -/
def commonOptions (program : String) : List OptionRule :=
  [{ name := "config", kind := .value (· ≠ "") false },
    { name := "json", letter := 'j', kind := .flag },
    { name := "help", letter := 'h', kind := .stop .help },
    { name := "version", letter := 'V', kind := .stop (.version program) }]

/-- A level with subcommands. -/
def groupLevel (program : String) (subcommands : List String) : Level :=
  { options := commonOptions program, subcommands := subcommands ++ ["help"] }

/-- The level of a command that works on a file. -/
def fileLevel (name : String) (options : List OptionRule) : Level :=
  { options := commonOptions (programName ++ "-" ++ name) ++ options, operand := some (· ≠ "") }

/-- The level of a command on the configuration. -/
def configLevel (name : String) (options : List OptionRule) : Level :=
  { options := commonOptions (programName ++ "-config-" ++ name) ++ options }

/-- The commands of the first level. -/
def commandNames : List String := ["show", "simulate", "digest", "verify", "config"]

/-- The commands on the configuration. -/
def configCommandNames : List String := ["init", "show", "check"]

/-- The options of a command of the first level. -/
def optionsOf (command : String) : List OptionRule :=
  match command with
  | "simulate" =>
    [{ name := "fail", kind := .value (fun _ => true) true },
      { name := "fail-dispatch", kind := .value (Numeral.parseInt32? ·.toList |>.isSome) true },
      { name := "max-passes", kind := .value (Numeral.parseNat64? ·.toList |>.isSome) false }]
  | "digest" =>
    [{ name := "algorithm", kind := .value (DigestAlgorithm.ofName? · |>.isSome) false },
      { name := "sort", kind := .flag },
      { name := "filter", kind := .flag },
      { name := "feature-set", kind := .value (fun _ => true) false },
      { name := "sign", kind := .flag }]
  | "verify" => [{ name := "digest", kind := .value (fun _ => true) false }]
  | _ => []

/-- The options of a command on the configuration. -/
def configOptionsOf (command : String) : List OptionRule :=
  match command with
  | "init" =>
    [{ name := "node", kind := .value (fun _ => true) false }, { name := "force", kind := .flag }]
  | _ => []

/-! ## Commands -/

/-- What was given for a dry run. -/
def simulationOptions (g : Given) : SimulationOptions :=
  let default : SimulationOptions := {}
  { fail := g.values "fail"
    failDispatch := (g.values "fail-dispatch").filterMap (Numeral.parseInt32? ·.toList)
    maxPasses :=
      ((g.value? "max-passes").bind (Numeral.parseNat64? ·.toList)).getD default.maxPasses }

/-- What was given for a digest. -/
def digestOptions (g : Given) : DigestOptions :=
  { algorithm := ((g.value? "algorithm").bind DigestAlgorithm.ofName?).getD .auto
    sort := g.has "sort"
    filter := g.has "filter"
    featureSet := g.value? "feature-set"
    sign := g.has "sign" }

/-- The command of the first level with a name. -/
def command? (name : String) (g : Given) : Option Command :=
  g.operand.bind fun path =>
    match name with
    | "show" => some (.showGraph path)
    | "simulate" => some (.simulate path (simulationOptions g))
    | "digest" => some (.digest path (digestOptions g))
    | "verify" => some (.verify path (g.value? "digest"))
    | _ => none

/-- The command on the configuration with a name. -/
def configCommand? (name : String) (g : Given) : Option Command :=
  match name with
  | "init" => (g.value? "node").map fun node => .initConfig node (g.has "force")
  | "show" => some .showConfig
  | "check" => some .checkConfig
  | _ => none

/-! ## Reading -/

/-- The path of the configuration, from what was given at each level, the outermost first.  The
environment has a say where a level leaves the path open, and must then name one. -/
def configPath (environment : Option String) (levels : List Given) : Except Stop String :=
  let given := levels.map (·.value? "config")
  if environment = some "" && given.contains none then .error .usage
  else .ok ((given.filterMap id).getLast?.getD (environment.getD defaultConfigPath))

/-- Joins a command with what was given at all levels. -/
def invocation (environment : Option String) (levels : List Given) (command : Option Command) :
    Except Stop Invocation := do
  let path ← configPath environment levels
  match command with
  | some command =>
    .ok { configPath := path, json := levels.any (·.has "json"), command }
  | none => .error .usage

/-- The answer to a request for help on a topic. -/
def help (topics : List (List String)) (topic : List String) : Stop :=
  if topic = [] || topic ∈ topics then .help else .usage

/-- Reads the arguments of a command on the configuration. -/
def readConfigCommand (environment : Option String) (outer : Given) (args : List String) :
    Except Stop Invocation := do
  let (group, command) ←
    (groupLevel (programName ++ "-config") configCommandNames).read {} args
  match command with
  | none => .error .usage
  | some ("help", topic) => .error (help (("help" :: configCommandNames).map ([·])) topic)
  | some (name, args) =>
    let (inner, _) ← (configLevel name (configOptionsOf name)).read {} args
    invocation environment [outer, group, inner] (configCommand? name inner)

/-- Reads the arguments of the program; `environment` is the path of the configuration that the
environment names. -/
def read (environment : Option String) (args : List String) : Except Stop Invocation := do
  let (outer, command) ← (groupLevel programName commandNames).read {} args
  match command with
  | none => .error .usage
  | some ("help", topic) =>
    .error (help (("help" :: commandNames).map ([·]) ++
      ("help" :: configCommandNames).map (["config", ·])) topic)
  | some ("config", args) => readConfigCommand environment outer args
  | some (name, args) =>
    let (inner, _) ← (fileLevel name (optionsOf name)).read {} args
    invocation environment [outer, inner] (command? name inner)

end Arguments
end ClusterTransition
