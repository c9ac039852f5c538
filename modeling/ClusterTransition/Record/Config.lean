import ClusterTransition.Record.Document
import ClusterTransition.Yaml.Printer

/-! # Stored configurations

The fields of an engine's configuration, in the order in which they are written.  All but the node
have defaults.
-/

namespace ClusterTransition

variable {ν : Type} (r : ValueReader ν)

/-! ## Reading -/

/-- Reads the job limits. -/
def ThrottleConfig.read? (v : ν) : Option ThrottleConfig := do
  match ← r.fields? ["default_job_limit", "node_limits"] v with
  | [defaultJobLimit, nodeLimits] =>
    return {
      defaultJobLimit := ← defaulting 4 r.int32? defaultJobLimit
      nodeLimits := ← defaulting .empty (r.tableOf? r.int32?) nodeLimits }
  | _ => none

/-- Reads the defaults for graphs. -/
def TransitionConfig.read? (v : ν) : Option TransitionConfig := do
  match ← r.fields? ["transition_delay_ms", "network_delay_ms", "stonith_timeout_ms",
      "batch_limit"] v with
  | [transitionDelayMs, networkDelayMs, stonithTimeoutMs, batchLimit] =>
    return {
      transitionDelayMs := ← defaulting 0 r.int64? transitionDelayMs
      networkDelayMs := ← defaulting defaultNetworkDelay r.int64? networkDelayMs
      stonithTimeoutMs := ← defaulting defaultNetworkDelay r.int64? stonithTimeoutMs
      batchLimit := ← defaulting 0 r.int32? batchLimit }
  | _ => none

/-- Reads how fencing is tried. -/
def FencingConfig.read? (v : ν) : Option FencingConfig := do
  match ← r.fields? ["max_attempts"] v with
  | [maxAttempts] => return { maxAttempts := ← defaulting 10 r.nat32? maxAttempts }
  | _ => none

/-- Reads what peers expect of digests. -/
def DigestConfig.read? (v : ν) : Option DigestConfig := do
  match ← r.fields? ["feature_set"] v with
  | [featureSet] => return { featureSet := ← r.optional r.string? featureSet }
  | _ => none

/-- Reads a configuration. -/
def EngineConfig.read? (v : ν) : Option EngineConfig := do
  match ← r.fields? ["version", "node", "throttle", "transition", "fencing", "digest"] v with
  | [version, node, throttle, transition, fencing, digest] =>
    return {
      version := ← defaulting 1 r.nat32? version
      node := ← required r.string? node
      throttle := ← defaulting {} (ThrottleConfig.read? r) throttle
      transition := ← defaulting {} (TransitionConfig.read? r) transition
      fencing := ← defaulting {} (FencingConfig.read? r) fencing
      digest := ← defaulting {} (DigestConfig.read? r) digest }
  | _ => none

/-- Reads a remark about a configuration. -/
def ConfigWarning.read? (v : ν) : Option ConfigWarning := do
  match ← r.fields? ["level", "message"] v with
  | [level, message] =>
    return {
      level := ← required (r.caseOf? WarnLevel.ofName?) level
      message := ← required r.string? message }
  | _ => none

/-! ## Writing -/

open Json

/-- The job limits as JSON. -/
def ThrottleConfig.toJson (c : ThrottleConfig) : Json :=
  Json.object <|
    [("default_job_limit", int c.defaultJobLimit)] ++ tableMember? "node_limits" int c.nodeLimits

/-- The defaults for graphs as JSON. -/
def TransitionConfig.toJson (c : TransitionConfig) : Json :=
  Json.object
    [("transition_delay_ms", int c.transitionDelayMs),
      ("network_delay_ms", int c.networkDelayMs),
      ("stonith_timeout_ms", int c.stonithTimeoutMs),
      ("batch_limit", int c.batchLimit)]

/-- How fencing is tried, as JSON. -/
def FencingConfig.toJson (c : FencingConfig) : Json :=
  Json.object [("max_attempts", nat c.maxAttempts)]

/-- What peers expect of digests, as JSON. -/
def DigestConfig.toJson (c : DigestConfig) : Json :=
  Json.object (member? "feature_set" text c.featureSet)

/-- A configuration as JSON. -/
def EngineConfig.toJson (c : EngineConfig) : Json :=
  Json.object
    [("version", nat c.version), ("node", text c.node), ("throttle", c.throttle.toJson),
      ("transition", c.transition.toJson), ("fencing", c.fencing.toJson),
      ("digest", c.digest.toJson)]

/-- A configuration as YAML settings. -/
def EngineConfig.toSettings (c : EngineConfig) : List (String × Yaml.Setting) :=
  let limits := c.throttle.nodeLimits.entries.map fun e => (e.1, Yaml.Setting.number e.2)
  let featureSet := c.digest.featureSet.toList.map fun v => ("feature_set", Yaml.Setting.text v)
  [("version", .number c.version), ("node", .text c.node),
    ("throttle", .group <|
      ("default_job_limit", .number c.throttle.defaultJobLimit) ::
        if limits.isEmpty then [] else [("node_limits", .group limits)]),
    ("transition", .group
      [("transition_delay_ms", .number c.transition.transitionDelayMs),
        ("network_delay_ms", .number c.transition.networkDelayMs),
        ("stonith_timeout_ms", .number c.transition.stonithTimeoutMs),
        ("batch_limit", .number c.transition.batchLimit)]),
    ("fencing", .group [("max_attempts", .number c.fencing.maxAttempts)]),
    ("digest", .group featureSet)]

/-- A configuration as it is stored. -/
def EngineConfig.toYaml (c : EngineConfig) : String := Yaml.render c.toSettings

/-- A remark about a configuration as JSON. -/
def ConfigWarning.toJson (w : ConfigWarning) : Json :=
  Json.object [("level", text w.level.name), ("message", text w.message)]

end ClusterTransition
