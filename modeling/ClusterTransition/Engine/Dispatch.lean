import ClusterTransition.Engine.Basic
import ClusterTransition.Graph.Pass

/-! # How an engine dispatches actions

Markers are confirmed at once.  Resource operations and cluster events are sent as requests and
guarded by a timer, unless nobody waits for their result.  Resource operations also hold job slots
while they run.  Fencing is handed over to the cluster, under a call number.  A shutdown of the
engine's own node is no request: it ends the transition.
-/

namespace ClusterTransition
namespace Engine

variable {ε : Type} (c : Cluster ε)

/-- The request for an action. -/
def requestFor (e : Engine ε) (g : Graph) (a : Action) (target : String) : ActionRequest where
  action := a.id
  kind := a.kind
  task := a.task.getD ""
  transitionKey := (TransitionKey.mk a.id g.id a.targetRc e.uuid).encode
  target
  op := a.op

/-- Sends the request for an action to the node it is routed over. -/
def sendRequest (e : Engine ε) (g : Graph) (a : Action) (target : String) : Bool × Engine ε :=
  let (ok, env) := c.send (a.route.getD target) (e.requestFor g a target) e.env
  (ok, { e with env })

/-- Confirms a marker. -/
def dispatchPseudo (id : ActionId) (g : Graph) (e : Engine ε) : Bool × Graph × Engine ε :=
  (true, e.finishAction g id)

/-- Charges an action that was sent to the ledger and arms its timer. -/
def awaitResult (e : Engine ε) (g : Graph) (a : Action) : Graph × Engine ε :=
  let e := { e with ledger := e.ledger.recordAction a 1 }
  let g := g.modifyAction a.id fun a => { a with counted := true }
  e.startActionTimer g a.id

/-- What follows once a resource operation was sent: nobody waits for the result, or it came
already, or it is awaited. -/
def resourceSent (e : Engine ε) (g : Graph) (a : Action) : Graph × Engine ε :=
  if a.noWait then
    (((g.confirmAction a.id).2.update a.id).2, e.requestPass)
  else if a.status.isConfirmed then (g, e)
  else e.awaitResult g a

/-- Sends a resource operation. -/
def dispatchResource (id : ActionId) (g : Graph) (e : Engine ε) : Bool × Graph × Engine ε :=
  match g.action? id with
  | none => (false, g, e)
  | some a =>
    match a.target with
    | none => (false, g, e)
    | some target =>
      match e.sendRequest c g a target with
      | (false, e) => (false, g, e)
      | (true, e) =>
        let (g, e) := e.resourceSent g a
        if a.recordPending then (true, e.recordStatus c g id .pending rcUnknown)
        else (true, g, e)

/-- Ends the transition for the shutdown of the engine's own node. -/
def localShutdown (id : ActionId) (g : Graph) (e : Engine ε) : Graph × Engine ε :=
  e.finishAction
    { g with completionAction := .shutdown, abortReason := some "local shutdown" } id

/-- Sends an event of the cluster. -/
def dispatchEvent (id : ActionId) (g : Graph) (e : Engine ε) : Bool × Graph × Engine ε :=
  match g.action? id with
  | none => (false, g, e)
  | some a =>
    match a.target with
    | none => (false, g, e)
    | some target =>
      let route := a.route.getD target
      let isShutdown := a.task = some "do_shutdown"
      if isShutdown && route = e.localNode then (true, localShutdown id g e)
      else
        let e := if isShutdown then e.expectDown route else e
        match e.sendRequest c g a target with
        | (false, e) => (false, g, e)
        | (true, e) => (true, if a.noWait then e.finishAction g id else e.startActionTimer g id)

/-- Starts the fencing of a node. -/
def dispatchFencing (id : ActionId) (g : Graph) (e : Engine ε) : Bool × Graph × Engine ε :=
  match g.action? id with
  | none => (false, g, e)
  | some a =>
    match a.target, nonempty a.op.targetUuid, a.stonithAction with
    | some target, some uuid, some kind =>
      match c.fence target kind g.stonithTimeout.toNat e.env with
      | (none, env) => (false, g, { e with env })
      | (some call, env) =>
        let fence : FenceCall := { action := id, transition := g.id, target, uuid }
        (true, g, { e with env, fenceCalls := e.fenceCalls.insert call fence })
    | _, _, _ => (false, g, e)

/-- Whether an action fits within the job limits. -/
def allows (id : ActionId) (g : Graph) (e : Engine ε) : Bool :=
  match g.action? id with
  | none => false
  | some a => e.ledger.mayFire e.jobLimit g a

/-- The engine as a dispatcher. -/
def dispatcher : Dispatcher (Engine ε) where
  dispatch
    | .pseudo => dispatchPseudo
    | .resource => dispatchResource c
    | .clusterEvent => dispatchEvent c
    | .fencing => dispatchFencing c
  allowed id g e := (allows id g e, e)

end Engine
end ClusterTransition
