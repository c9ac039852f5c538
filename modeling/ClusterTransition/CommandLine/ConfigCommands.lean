import ClusterTransition.CommandLine.GraphCommands

/-! # Commands on the configuration

A configuration is written for a node, printed, and checked.
-/

namespace ClusterTransition
namespace ConfigCommands

/-- The configuration at a path, which must be there. -/
def loadConfig (files : Files) (path : String) : Except String EngineConfig :=
  (files.loadConfig path).mapError (·.within "failed to load config")

/-- Writes a configuration.  A file that is there already is kept unless `force` is given. -/
def init (files : Files) (path node : String) (force json : Bool) : Plan :=
  if files path ≠ .missing ∧ !force then
    .fail (path ++ " already exists (use --force to overwrite)")
  else
    let config : EngineConfig := { node }
    .save path config.toYaml
      { output :=
          if json then
            (Json.object [("node", .text node), ("path", .text path)]).pretty ++ "\n"
          else "Wrote " ++ path ++ "\n" }

/-- Prints the configuration. -/
def print (files : Files) (path : String) (json : Bool) : Plan :=
  match loadConfig files path with
  | .error message => .fail message
  | .ok c => .print (if json then c.toJson.pretty ++ "\n" else c.toYaml)

/-- The text of remarks. -/
def remarksText (remarks : List ConfigWarning) (json : Bool) : String :=
  if json then
    (Json.object [("warnings", .list ConfigWarning.toJson remarks)]).pretty ++ "\n"
  else if remarks.isEmpty then "Config is valid. No warnings.\n"
  else String.join (remarks.map fun w => "[" ++ w.level.name ++ "] " ++ w.message ++ "\n")

/-- Lists the remarks about the configuration.  The command fails if one of them is an error. -/
def check (files : Files) (path : String) (json : Bool) : Plan :=
  match loadConfig files path with
  | .error message => .fail message
  | .ok c =>
    .finish
      { output := remarksText c.validate json
        error :=
          if c.validate.any (·.level = .error) then some "config validation found errors"
          else none }

end ConfigCommands
end ClusterTransition
