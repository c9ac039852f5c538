import ClusterTransition.Graph.Basic
import ClusterTransition.Text.Split

/-! # Engine configuration

What an administrator sets for an engine: its node, the job limits, the defaults for graphs that do
not carry their own values, how often fencing is tried, and which digests peers expect.  `validate`
lists what is wrong or doubtful about a configuration, in the order of the settings.
-/

namespace ClusterTransition

/-! ## Settings -/

/-- The job limits of the nodes. -/
structure ThrottleConfig where
  defaultJobLimit : Int := 4
  /-- The limits of single nodes. -/
  nodeLimits : Table String Int := .empty
  deriving DecidableEq, Inhabited

/-- The number of jobs that may run at once on a node. -/
def ThrottleConfig.jobLimit (c : ThrottleConfig) (node : String) : Int :=
  (c.nodeLimits.get? node).getD c.defaultJobLimit

/-- Defaults for graphs that do not carry their own values. -/
structure TransitionConfig where
  transitionDelayMs : Int := 0
  networkDelayMs : Int := defaultNetworkDelay
  stonithTimeoutMs : Int := defaultNetworkDelay
  batchLimit : Int := 0
  deriving DecidableEq, Repr, Inhabited

/-- How fencing is tried. -/
structure FencingConfig where
  /-- The number of failures on one target after which the engine gives up on it. -/
  maxAttempts : Nat := 10
  deriving DecidableEq, Repr, Inhabited

/-- What peers expect of digests. -/
structure DigestConfig where
  /-- The feature set of the oldest peer. -/
  featureSet : Option String := none
  deriving DecidableEq, Repr, Inhabited

/-- The configuration of an engine. -/
structure EngineConfig where
  version : Nat := 1
  /-- The name of the node that the engine runs on. -/
  node : String
  throttle : ThrottleConfig := {}
  transition : TransitionConfig := {}
  fencing : FencingConfig := {}
  digest : DigestConfig := {}
  deriving DecidableEq, Inhabited

/-! ## Defaults for graphs -/

/-- Which values a graph document sets itself. -/
structure GraphOverrides where
  networkDelay : Bool
  stonithTimeout : Bool
  transitionDelay : Bool
  batchLimit : Bool
  deriving DecidableEq, Repr

/-- Fills in the values that a graph document leaves open. -/
def EngineConfig.applyDefaults (c : EngineConfig) (g : Graph) (set : GraphOverrides) : Graph :=
  { g with
    networkDelay := if set.networkDelay then g.networkDelay else c.transition.networkDelayMs
    stonithTimeout := if set.stonithTimeout then g.stonithTimeout else c.transition.stonithTimeoutMs
    transitionDelay :=
      if set.transitionDelay then g.transitionDelay else c.transition.transitionDelayMs
    batchLimit := if set.batchLimit then g.batchLimit else c.transition.batchLimit }

/-! ## Validation -/

/-- How serious a remark about a configuration is. -/
inductive WarnLevel where
  | warning
  | error
  deriving DecidableEq, Repr

/-- The stored name of a level. -/
def WarnLevel.name : WarnLevel → String
  | warning => "warning"
  | error => "error"

/-- The level with a stored name. -/
def WarnLevel.ofName? : String → Option WarnLevel
  | "warning" => some .warning
  | "error" => some .error
  | _ => none

/-- A remark about a configuration. -/
structure ConfigWarning where
  level : WarnLevel
  message : String
  deriving DecidableEq, Repr

/-- Whether a text has no characters but blanks. -/
def isBlankText (text : String) : Bool := (trimBlank text.toList).isEmpty

/-- Whether a text is a list of decimal numbers separated by points. -/
def isDottedVersion (text : String) : Bool :=
  (splitAll '.' text.toList).all fun part => !part.isEmpty && part.all Char.isDigit

namespace EngineConfig

/-- A remark, if there is reason for it. -/
def remark (reason : Bool) (level : WarnLevel) (message : String) : List ConfigWarning :=
  if reason then [{ level, message }] else []

/-- The remarks about the limit of one node. -/
def nodeRemarks (node : String) (limit : Int) : List ConfigWarning :=
  remark (limit ≤ 0) .warning
    ("node '" ++ node ++ "' has job limit " ++ Numeral.intText limit ++
      ": nothing will run there") ++
  remark (isBlankText node) .warning "empty node name in throttle.node_limits"

/-- The remarks about the job limits. -/
def throttleRemarks (c : ThrottleConfig) : List ConfigWarning :=
  remark (c.defaultJobLimit ≤ 0) .error
    ("throttle.default_job_limit=" ++ Numeral.intText c.defaultJobLimit ++
      " allows no resource operations") ++
  c.nodeLimits.entries.flatMap fun e => nodeRemarks e.1 e.2

/-- The remarks about the defaults for graphs. -/
def transitionRemarks (c : TransitionConfig) : List ConfigWarning :=
  remark (c.networkDelayMs ≤ 0) .error
    ("transition.network_delay_ms=" ++ Numeral.intText c.networkDelayMs ++ " must be positive") ++
  remark (c.stonithTimeoutMs ≤ 0) .warning
    ("transition.stonith_timeout_ms=" ++ Numeral.intText c.stonithTimeoutMs ++
      " leaves fencing without a deadline") ++
  remark (c.transitionDelayMs < 0) .warning
    "transition.transition_delay_ms is negative; treated as 0"

/-- The remarks about the feature set. -/
def digestRemarks (c : DigestConfig) : List ConfigWarning :=
  match c.featureSet with
  | none => []
  | some version =>
    remark (!isDottedVersion version) .warning
      ("digest.feature_set '" ++ version ++ "' is not a dotted version")

/-- All that is wrong or doubtful about a configuration. -/
def validate (c : EngineConfig) : List ConfigWarning :=
  remark (isBlankText c.node) .error "node name is empty" ++
  throttleRemarks c.throttle ++
  transitionRemarks c.transition ++
  remark (c.fencing.maxAttempts = 0) .warning
    "fencing.max_attempts=0: every fencing failure is excessive" ++
  digestRemarks c.digest

end EngineConfig
end ClusterTransition
