import ClusterTransition.Record.Action
import ClusterTransition.Simulation

/-! # Stored synapses, counters and reports

The JSON form of what is shown of a graph and its execution: synapses, the counters of a pass, how a
transition ended, and the report of a dry run.
-/

namespace ClusterTransition

open Json

/-! ## Synapses -/

/-- Reads an input. -/
def Input.ofJson? (v : Json) : Option Input := do
  match ← Json.fields? ["slot", "satisfied"] v with
  | [slot, satisfied] =>
    return {
      slot := ← required reader.nat64? slot
      satisfied := ← required Json.bool? satisfied }
  | _ => none

/-- An input as JSON. -/
def Input.toJson (i : Input) : Json :=
  Json.object [("slot", nat i.slot), ("satisfied", .bool i.satisfied)]

/-- Reads a synapse. -/
def Synapse.ofJson? (v : Json) : Option Synapse := do
  match ← Json.fields? ["id", "priority", "status", "actions", "inputs"] v with
  | [id, priority, status, actions, inputs] =>
    return {
      id := ← required reader.int32? id
      priority := ← required reader.int32? priority
      status := ← required (reader.caseOf? SynapseStatus.ofName?) status
      actions := ← required (reader.listOf? reader.nat64?) actions
      inputs := ← required (reader.listOf? Input.ofJson?) inputs }
  | _ => none

/-- A synapse as JSON. -/
def Synapse.toJson (s : Synapse) : Json :=
  Json.object
    [("id", int s.id), ("priority", int s.priority), ("status", text s.status.name),
      ("actions", list nat s.actions), ("inputs", list Input.toJson s.inputs)]

/-! ## Counters -/

/-- Reads the counters of a pass. -/
def PassCounters.ofJson? (v : Json) : Option PassCounters := do
  match ← Json.fields? ["fired", "pending", "skipped", "completed", "incomplete"] v with
  | [fired, pending, skipped, completed, incomplete] =>
    return {
      fired := ← required reader.nat64? fired
      pending := ← required reader.nat64? pending
      skipped := ← required reader.nat64? skipped
      completed := ← required reader.nat64? completed
      incomplete := ← required reader.nat64? incomplete }
  | _ => none

/-- The counters of a pass as JSON. -/
def PassCounters.toJson (c : PassCounters) : Json :=
  Json.object
    [("fired", nat c.fired), ("pending", nat c.pending), ("skipped", nat c.skipped),
      ("completed", nat c.completed), ("incomplete", nat c.incomplete)]

/-! ## Reports -/

/-- An event of the controller as JSON. -/
def ControlEvent.toJson (e : ControlEvent) : Json :=
  Json.object <| ("event", text e.name) ::
    match e with
    | startCooldown pause => [("after_ms", nat pause.millis)]
    | _ => []

/-- How a transition ended, as JSON. -/
def Notification.toJson (n : Notification) : Json :=
  Json.object <|
    [("transition", int n.transition), ("completion", text n.completion.name)] ++
      member? "reason" text n.reason ++ member? "event" ControlEvent.toJson n.event

/-- An executed action as JSON. -/
def ExecutedAction.toJson (a : ExecutedAction) : Json :=
  Json.object <|
    [("pass", nat a.pass), ("id", int a.id), ("type", text a.kind.name), ("label", text a.label)] ++
      member? "target" text a.target ++ [("outcome", text a.outcome.name)]

/-- The report of a dry run as JSON. -/
def SimulationReport.toJson (r : SimulationReport) : Json :=
  Json.object
    [("transition", int r.transition), ("source", text r.source), ("result", text r.result.name),
      ("passes", nat r.passes), ("counters", r.counters.toJson),
      ("abort_priority", int r.abortPriority), ("notification", r.notification.toJson),
      ("executed", list ExecutedAction.toJson r.executed), ("skipped", list int r.skipped),
      ("blocked", list int r.blocked)]

end ClusterTransition
