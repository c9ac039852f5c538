import ClusterTransition.Simulation

/-! # Commands

What the program `crm` can be asked to do.
-/

namespace ClusterTransition

/-- The digest that is asked for. -/
inductive DigestAlgorithm where
  /-- The one that belongs to the feature set. -/
  | auto
  | v1
  | v2
  deriving DecidableEq, Repr

/-- The algorithm with a name. -/
def DigestAlgorithm.ofName? : String → Option DigestAlgorithm
  | "auto" => some auto
  | "v1" => some v1
  | "v2" => some v2
  | _ => none

/-- How the digest of a snapshot is to be computed. -/
structure DigestOptions where
  algorithm : DigestAlgorithm := .auto
  sort : Bool := false
  filter : Bool := false
  featureSet : Option String := none
  /-- Whether the digest is written beside the snapshot. -/
  sign : Bool := false
  deriving DecidableEq, Repr

/-- A command with its arguments. -/
inductive Command where
  /-- Lists the synapses and actions of a graph. -/
  | showGraph (path : String)
  /-- Makes a dry run of a graph. -/
  | simulate (path : String) (options : SimulationOptions)
  /-- Computes the digest of a snapshot. -/
  | digest (path : String) (options : DigestOptions)
  /-- Compares a snapshot with a digest, which is read from its signature unless it is given. -/
  | verify (path : String) (expected : Option String)
  /-- Writes a configuration for a node. -/
  | initConfig (node : String) (force : Bool)
  /-- Prints the configuration. -/
  | showConfig
  /-- Lists what is wrong or doubtful about the configuration. -/
  | checkConfig
  deriving DecidableEq, Repr

/-- The path of the configuration, unless another one is given. -/
def defaultConfigPath : String := "crm.yaml"

/-- A command with the options that all commands have. -/
structure Invocation where
  configPath : String := defaultConfigPath
  /-- Whether the answer is JSON. -/
  json : Bool := false
  command : Command
  deriving DecidableEq, Repr

/-- What a command has to say: the text it prints, and why it failed if it did. -/
structure Outcome where
  output : String := ""
  error : Option String := none
  deriving DecidableEq, Repr

/-- What a command does once it has read its files. -/
inductive Plan where
  | finish (outcome : Outcome)
  /-- Writes a file; the outcome holds if that succeeds. -/
  | save (path content : String) (outcome : Outcome)
  deriving DecidableEq, Repr

namespace Plan

/-- Prints a text. -/
def print (text : String) : Plan := .finish { output := text }

/-- Fails without having printed anything. -/
def fail (message : String) : Plan := .finish { error := some message }

end Plan
end ClusterTransition
