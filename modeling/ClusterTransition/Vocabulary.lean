import ClusterTransition.Error

/-! # The words of a transition

The small enumerations that graphs, engines and reports share: kinds of action, what follows a
finished graph, the outcome of a pass and the status of an operation.  Each has the name under which
it is stored, and some have a second name for readers.
-/

namespace ClusterTransition

/-- The score that stands for infinity.  No abort vetoes a synapse of this priority. -/
def infinity : Int := 1000000

/-- The exit code of an operation whose result is not known. -/
def rcUnknown : Int := 193

/-! ## Kinds of action -/

/-- What sort of work an action is. -/
inductive ActionKind where
  /-- A marker in the ordering, confirmed as soon as it fires. -/
  | pseudo
  /-- An operation on a resource, carried out by a node. -/
  | resource
  /-- A control event of the cluster, such as a shutdown or the fencing of a node. -/
  | clusterEvent
  deriving DecidableEq, Repr

namespace ActionKind

/-- The stored name of a kind. -/
def name : ActionKind → String
  | pseudo => "pseudo_event"
  | resource => "rsc_op"
  | clusterEvent => "crm_event"

/-- The kind with a stored name. -/
def ofName? : String → Option ActionKind
  | "pseudo_event" => some pseudo
  | "rsc_op" => some resource
  | "crm_event" => some clusterEvent
  | _ => none

/-- Reads a kind from its stored name or from its everyday name. -/
def parse : String → Except Error ActionKind
  | "pseudo_event" | "pseudo" => .ok pseudo
  | "rsc_op" | "resource" => .ok resource
  | "crm_event" | "cluster_event" => .ok clusterEvent
  | text => .error (.invalidActionType text)

end ActionKind

/-! ## Completion actions -/

/-- What the controller does once a graph has finished, in order of severity. -/
inductive CompletionAction where
  | done
  | stop
  | restart
  | shutdown
  deriving DecidableEq, Repr

namespace CompletionAction

/-- The place in the order of severity. -/
def severity : CompletionAction → Nat
  | done => 0
  | stop => 1
  | restart => 2
  | shutdown => 3

/-- The stored name. -/
def name : CompletionAction → String
  | done => "done"
  | stop => "stop"
  | restart => "restart"
  | shutdown => "shutdown"

/-- Reads a completion action from its name. -/
def parse : String → Except Error CompletionAction
  | "done" => .ok done
  | "stop" => .ok stop
  | "restart" => .ok restart
  | "shutdown" => .ok shutdown
  | text => .error (.invalidCompletionAction text)

end CompletionAction

/-! ## Outcomes of a pass -/

/-- The outcome of one pass over a graph. -/
inductive PassResult where
  /-- New work was started. -/
  | active
  /-- Nothing was started, and confirmations are outstanding. -/
  | pending
  /-- All that could run has run. -/
  | complete
  /-- Finished, with synapses that an abort skipped or that failed. -/
  | stopped
  /-- Finished with open dependencies although nothing was aborted. -/
  | terminated
  deriving DecidableEq, Repr

namespace PassResult

/-- Whether the transition is over. -/
def isTerminal : PassResult → Bool
  | complete | stopped | terminated => true
  | active | pending => false

/-- The stored name. -/
def name : PassResult → String
  | active => "active"
  | pending => "pending"
  | complete => "complete"
  | stopped => "stopped"
  | terminated => "terminated"

/-- The outcome with a stored name. -/
def ofName? : String → Option PassResult
  | "active" => some active
  | "pending" => some pending
  | "complete" => some complete
  | "stopped" => some stopped
  | "terminated" => some terminated
  | _ => none

/-- The name for readers. -/
def title : PassResult → String
  | active => "In-progress"
  | pending => "Pending"
  | complete => "Complete"
  | stopped => "Stopped"
  | terminated => "Terminated"

end PassResult

/-! ## Status of an operation -/

/-- How the execution of an operation ended, apart from its exit code. -/
inductive OpStatus where
  | pending
  | done
  | cancelled
  | timedOut
  | notSupported
  | error
  deriving DecidableEq, Repr

namespace OpStatus

/-- The number that stands for a status. -/
def code : OpStatus → Int
  | pending => -1
  | done => 0
  | cancelled => 1
  | timedOut => 2
  | notSupported => 3
  | error => 4

/-- The status that a number stands for. -/
def ofCode? : Int → Option OpStatus
  | -1 => some pending
  | 0 => some done
  | 1 => some cancelled
  | 2 => some timedOut
  | 3 => some notSupported
  | 4 => some error
  | _ => none

/-- The stored name. -/
def name : OpStatus → String
  | pending => "pending"
  | done => "done"
  | cancelled => "cancelled"
  | timedOut => "timed_out"
  | notSupported => "not_supported"
  | error => "error"

/-- The status with a stored name. -/
def ofName? : String → Option OpStatus
  | "pending" => some pending
  | "done" => some done
  | "cancelled" => some cancelled
  | "timed_out" => some timedOut
  | "not_supported" => some notSupported
  | "error" => some error
  | _ => none

/-- The name for readers. -/
def title : OpStatus → String
  | pending => "pending"
  | done => "complete"
  | cancelled => "cancelled"
  | timedOut => "timed out"
  | notSupported => "not supported"
  | error => "error"

end OpStatus

end ClusterTransition
