import ClusterTransition.Duration
import ClusterTransition.Graph.Basic

/-! # What follows a transition

The controller knows in the large what the resource manager is doing: executing a graph, computing
a new one, or nothing.  When a graph is finished it turns the graph's completion action into the
next event.
-/

namespace ClusterTransition

/-- What the resource manager is doing. -/
inductive ControllerState where
  /-- A graph is being executed. -/
  | transitionEngine
  /-- A new graph is being computed. -/
  | policyEngine
  | idle
  deriving DecidableEq, Repr

/-- The stored name of a state. -/
def ControllerState.name : ControllerState → String
  | transitionEngine => "transition_engine"
  | policyEngine => "policy_engine"
  | idle => "idle"

/-- The state with a stored name. -/
def ControllerState.ofName? : String → Option ControllerState
  | "transition_engine" => some .transitionEngine
  | "policy_engine" => some .policyEngine
  | "idle" => some .idle
  | _ => none

/-- What the controller asks of its surroundings. -/
inductive ControlEvent where
  /-- The cluster is in the state that the graph described. -/
  | success
  /-- A new graph is to be computed now. -/
  | recompute
  /-- A new graph is to be computed once the pause is over. -/
  | startCooldown (pause : Duration)
  | invokePolicyEngine
  | stop
  | terminate
  deriving DecidableEq, Repr

/-- The stored name of an event. -/
def ControlEvent.name : ControlEvent → String
  | success => "success"
  | recompute => "recompute"
  | startCooldown _ => "start_cooldown"
  | invokePolicyEngine => "invoke_policy_engine"
  | stop => "stop"
  | terminate => "terminate"

/-- How a transition ended. -/
structure Notification where
  transition : Int
  completion : CompletionAction
  reason : Option String
  /-- Nothing is left to do where there is no event. -/
  event : Option ControlEvent
  deriving DecidableEq, Repr

/-- The controller. -/
structure Controller where
  state : ControllerState := .idle
  /-- An administrator asked for the shutdown of this node. -/
  shutdownRequested : Bool := false
  inTransition : Bool := false
  deriving DecidableEq, Repr, Inhabited

namespace Controller

/-- Starts the execution of a graph. -/
def beginTransition (c : Controller) : Controller :=
  { c with state := .transitionEngine, inTransition := true }

/-- The event that a restart leads to. -/
def restartEvent (c : Controller) (transitionDelay : Int) (tooManyFenceFailures : Bool) :
    Option ControlEvent :=
  match c.state with
  | .transitionEngine =>
    if tooManyFenceFailures then some .success
    else if 0 < transitionDelay then
      some (.startCooldown (Duration.ofMillis transitionDelay.toNat))
    else some .recompute
  | .policyEngine => some .invokePolicyEngine
  | .idle => none

/-- The event that a finished graph leads to. -/
def eventFor (c : Controller) (g : Graph) (tooManyFenceFailures : Bool) : Option ControlEvent :=
  match g.completionAction with
  | .done | .stop => if c.state = .transitionEngine then some .success else none
  | .restart => c.restartEvent g.transitionDelay tooManyFenceFailures
  | .shutdown => if c.shutdownRequested then some .stop else some .terminate

/-- The state after an event. -/
def stateAfter (state : ControllerState) : Option ControlEvent → ControllerState
  | some .success | some .stop | some .terminate => .idle
  | some .recompute | some (.startCooldown _) => .policyEngine
  | some .invokePolicyEngine | none => state

/-- Concludes a transition: answers how it ended, and clears what the graph held about its end. -/
def notify (c : Controller) (g : Graph) (tooManyFenceFailures : Bool) :
    Notification × Controller × Graph :=
  let event := c.eventFor g tooManyFenceFailures
  ({ transition := g.id, completion := g.completionAction, reason := g.abortReason, event },
   { c with state := stateAfter c.state event, inTransition := false },
   { g with completionAction := .done, abortReason := none, complete := true })

end Controller
end ClusterTransition
