import ClusterTransition.CommandLine.Arguments
import ClusterTransition.CommandLine.ConfigCommands
import ClusterTransition.CommandLine.SnapshotCommands

/-! # The program

The program reads its arguments, makes a plan from the files that it finds, and answers.  It ends
with the code 0 if all went well, with 1 if the command failed and with 2 if there was none.
-/

namespace ClusterTransition

/-- What the program answers. -/
structure Response where
  exitCode : Nat
  output : String := ""
  error : Option String := none
  deriving DecidableEq, Repr

/-- The version of the program. -/
def programVersion : String := "0.1.0"

/-- A short account of the commands. -/
def usageText : String :=
  String.join
    ["Cluster transition graphs: inspect, dry-run and fingerprint configuration\n\n",
      "Usage: crm [--config <PATH>] [--json] <COMMAND>\n\n",
      "Commands:\n",
      "  show <GRAPH>\n",
      "  simulate <GRAPH> [--fail <ACTION>] [--fail-dispatch <ID>] [--max-passes <N>]\n",
      "  digest <SNAPSHOT> [--algorithm auto|v1|v2] [--sort] [--filter]\n",
      "         [--feature-set <VERSION>] [--sign]\n",
      "  verify <SNAPSHOT> [--digest <DIGEST>]\n",
      "  config init --node <NODE> [--force]\n",
      "  config show\n",
      "  config check\n"]

/-- The answer where there is no command to carry out. -/
def Stop.response : Stop → Response
  | usage => { exitCode := 2, error := some "no such command; see --help" }
  | help => { exitCode := 0, output := usageText }
  | version program => { exitCode := 0, output := program ++ " " ++ programVersion ++ "\n" }

/-- The answer of a command. -/
def Outcome.response (o : Outcome) : Response :=
  { exitCode := if o.error.isSome then 1 else 0, output := o.output, error := o.error }

/-- The outcome of a command whose file could not be written. -/
def Outcome.notSaved (path : String) : Outcome :=
  { error := some (Error.file.within ("failed to write " ++ path)) }

namespace Invocation

/-- The paths at which a command looks. -/
def paths (i : Invocation) : List String :=
  i.configPath ::
    match i.command with
    | .showGraph path | .simulate path _ | .digest path _ => [path]
    | .verify path _ => [path, Files.signaturePath path]
    | .initConfig .. | .showConfig | .checkConfig => []

/-- What a command does. -/
def plan (i : Invocation) (files : Files) : Plan :=
  match i.command with
  | .showGraph path => GraphCommands.list files i.configPath path i.json
  | .simulate path options => GraphCommands.dryRun files i.configPath path options i.json
  | .digest path options => SnapshotCommands.digest files i.configPath path options i.json
  | .verify path expected => SnapshotCommands.verify files path expected i.json
  | .initConfig node force => ConfigCommands.init files i.configPath node force i.json
  | .showConfig => ConfigCommands.print files i.configPath i.json
  | .checkConfig => ConfigCommands.check files i.configPath i.json

end Invocation
end ClusterTransition
