import ClusterTransition.Controller
import ClusterTransition.Engine.Reports

/-! # The transition loop

The loop carries one graph through to its end.  It runs passes as long as one is requested, and then
waits for an event: a report to the engine, an abort, or the request to shut this node down.  Events
that do not belong to the transition leave it as it is.

`TransitionLoop.settle` runs the requested passes and `TransitionLoop.apply` takes in one event.
Between them the loop waits.
-/

namespace ClusterTransition

/-- What can happen to a running transition. -/
inductive EngineEvent where
  | actionResult (result : ActionResult)
  | fencingResult (call : Nat) (outcome : Except String Unit)
  | timeout (action : ActionId)
  | abort (priority : Int) (action : CompletionAction) (reason : String)
  /-- An administrator declared a node safe. -/
  | nodeConfirmed (target : String)
  /-- This node was asked to shut down. -/
  | shutdown

/-- A transition under way. -/
structure TransitionLoop (ε : Type) where
  graph : Graph
  engine : Engine ε
  controller : Controller := {}

/-- How a transition ended. -/
structure TransitionOutcome (ε : Type) where
  result : PassResult
  notification : Notification
  graph : Graph
  engine : Engine ε

namespace TransitionLoop

variable {ε : Type} (c : Cluster ε)

/-- A loop for a graph and a new engine with the given uuid, at its start. -/
def new (graph : Graph) (config : EngineConfig) (env : ε)
    (uuid : String := Engine.defaultUuid) : TransitionLoop ε where
  graph
  engine := (Engine.new config env uuid).startTransition
  controller := ({} : Controller).beginTransition

/-- Runs one pass. -/
def pass (l : TransitionLoop ε) : PassResult × TransitionLoop ε :=
  let (result, graph, engine) := l.graph.run (Engine.dispatcher c) l.engine
  (result, { l with graph, engine })

/-- Runs the requested passes, at most `n` of them, and answers the result that ends the transition
if there is one. -/
def runRequested : Nat → TransitionLoop ε → Option PassResult × TransitionLoop ε
  | 0, l => (none, l)
  | n + 1, l =>
    let (requested, engine) := l.engine.takePassRequest
    let l := { l with engine }
    if requested then
      let (result, l) := l.pass c
      if result.isTerminal then (some result, l) else runRequested n l
    else (none, l)

/-- Runs passes until none is requested or the transition ends.  A pass requests another only if it
dispatches an action, and no action is dispatched twice, so two passes more than there are actions
are enough. -/
def settle (l : TransitionLoop ε) : Option PassResult × TransitionLoop ε :=
  l.runRequested c (l.graph.actions.length + 2)

/-- Asks for another pass. -/
def requestPass (l : TransitionLoop ε) : TransitionLoop ε :=
  { l with engine := l.engine.requestPass }

/-- Takes in one event. -/
def apply (l : TransitionLoop ε) : EngineEvent → TransitionLoop ε
  | .actionResult result =>
    let (_, graph, engine) := l.engine.processResult l.graph result
    { l with graph, engine }
  | .fencingResult call outcome =>
    let (_, graph, engine) := l.engine.fencingResult c l.graph call outcome
    { l with graph, engine }
  | .timeout action =>
    let engine := { l.engine with timers := l.engine.timers.cancel action }
    let (_, graph, engine) := engine.actionTimedOut c l.graph action
    { l with graph, engine }
  | .abort priority action reason =>
    requestPass { l with graph := l.graph.abort priority action reason }
  | .nodeConfirmed target =>
    let (_, graph, engine) := l.engine.confirmNodeSafe c l.graph target
    { l with graph, engine }
  | .shutdown =>
    requestPass { l with
      graph := l.graph.abort infinity .stop "Shutdown requested"
      controller := { l.controller with shutdownRequested := true } }

/-- Concludes a transition that ended with `result`. -/
def finish (l : TransitionLoop ε) (result : PassResult) : TransitionOutcome ε :=
  let engine := { l.engine with timers := l.engine.timers.clear }
  let (notification, _, graph) := l.controller.notify l.graph engine.tooManyFenceFailures
  { result, notification, graph, engine }

/-- Carries a transition through a list of events.  The answer is how it ended, or the loop that
waits for an event when the list has none left. -/
def run : List EngineEvent → TransitionLoop ε → TransitionOutcome ε ⊕ TransitionLoop ε
  | [], l =>
    match l.settle c with
    | (some result, l) => .inl (l.finish result)
    | (none, l) => .inr l
  | event :: events, l =>
    match l.settle c with
    | (some result, l) => .inl (l.finish result)
    | (none, l) => run events (l.apply c event)

end TransitionLoop
end ClusterTransition
