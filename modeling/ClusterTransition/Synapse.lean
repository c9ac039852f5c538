import ClusterTransition.Action

/-! # Synapses

A synapse is a group of actions that fire together once all the actions it waits for are confirmed.
Its status goes forward only: from unfired to ready, from ready to executing, and from executing to
confirmed or failed; an abort turns one that has not fired into a skipped one.
-/

namespace ClusterTransition

/-- Where a synapse is in its life. -/
inductive SynapseStatus where
  | unfired
  /-- All inputs are satisfied. -/
  | ready
  /-- Fired, and not all of its actions are confirmed. -/
  | executing
  | confirmed
  | failed
  /-- Vetoed by an abort. -/
  | skipped
  deriving DecidableEq, Repr

namespace SynapseStatus

/-- Whether the synapse has fired. -/
def isExecuted : SynapseStatus → Bool
  | executing | confirmed | failed => true
  | _ => false

/-- Whether the outcome of the synapse is known; a synapse that failed to fire counts. -/
def isConfirmed : SynapseStatus → Bool
  | confirmed | failed => true
  | _ => false

/-- Whether nothing more happens to the synapse. -/
def isSettled : SynapseStatus → Bool
  | confirmed | failed | skipped => true
  | _ => false

/-- The stored name. -/
def name : SynapseStatus → String
  | unfired => "unfired"
  | ready => "ready"
  | executing => "executing"
  | confirmed => "confirmed"
  | failed => "failed"
  | skipped => "skipped"

/-- The status with a stored name. -/
def ofName? : String → Option SynapseStatus
  | "unfired" => some unfired
  | "ready" => some ready
  | "executing" => some executing
  | "confirmed" => some confirmed
  | "failed" => some failed
  | "skipped" => some skipped
  | _ => none

end SynapseStatus

/-- What a synapse knows of one action that it waits for. -/
structure Input where
  /-- The place of the action in the graph. -/
  slot : Nat
  /-- The completion of the action has reached this synapse. -/
  satisfied : Bool
  deriving DecidableEq, Repr

/-- A group of actions that fire together. -/
structure Synapse where
  id : Int
  priority : Int
  status : SynapseStatus := .unfired
  /-- The places of the synapse's own actions, in the order in which they fire. -/
  actions : List Nat := []
  inputs : List Input := []
  deriving DecidableEq, Repr

end ClusterTransition
