import ClusterTransition.Engine.Dispatch

/-! # What an engine does with reports

Four things are reported to an engine: the result of an action, the expiry of an action's timer, the
outcome of a fencing request, and an administrator's word that a node is safe.  Each completes
actions, spreads the completion through the graph and asks for another pass.  Reports that belong to
another engine or another transition are refused.
-/

namespace ClusterTransition
namespace Engine

variable {ε : Type} (c : Cluster ε)

/-! ## Results -/

/-- Whether a result is other than expected.  A key without an expected exit code leaves it to the
action. -/
def resultFailed (a : Action) (key : TransitionKey) (result : ActionResult) : Bool :=
  let expected := if 0 ≤ key.targetRc then key.targetRc else a.targetRc
  result.status ≠ .done || result.rc ≠ expected

/-- Fails an action that ran, and asks for a new graph. -/
def failExecuted (g : Graph) (id : ActionId) (reason : String) : Graph :=
  (g.failAction id .execution).2.abort infinity .restart reason

/-- The action that a result is for, with the key that it came under. -/
def resultAction (e : Engine ε) (g : Graph) (result : ActionResult) :
    Except Error (TransitionKey × Action) :=
  match TransitionKey.decode result.transitionKey with
  | .error err => .error err
  | .ok key =>
    if key.uuid ≠ e.uuid then .error (.foreignResult e.uuid key.uuid)
    else if key.transition ≠ g.id then .error (.staleResult g.id key.transition)
    else
      match g.action? key.action with
      | none => .error (.actionNotFound key.action)
      | some a => .ok (key, a)

/-- Applies the result of an action, and tells whether the action was still waiting for it. -/
def processResult (e : Engine ε) (g : Graph) (result : ActionResult) :
    Except Error Bool × Graph × Engine ε :=
  match e.resultAction g result with
  | .error err => (.error err, g, e)
  | .ok (key, a) =>
    let e := { e with timers := e.timers.cancel a.id }
    if a.status.isConfirmed then (.ok false, g, e)
    else
      let g :=
        if resultFailed a key result && !a.canFail then failExecuted g a.id "Event failed" else g
      (.ok true, e.finishAction g a.id)

/-! ## Timers -/

/-- Fails an action whose timer has expired.  The answer says whether it was still waiting for a
result. -/
def actionTimedOut (e : Engine ε) (g : Graph) (id : ActionId) : Bool × Graph × Engine ε :=
  match g.action? id with
  | none => (false, g, e)
  | some a =>
    if a.status.isConfirmed then (false, g, e)
    else
      let g := (g.failAction id .timedOut).2
      let (g, e) :=
        if a.isResourceOp && !a.sentUpdate then e.recordStatus c g id .timedOut rcUnknown
        else (g, e)
      (true, e.finishAction g id)

/-- Applies the expiry of several timers, in order. -/
def actionsTimedOut (e : Engine ε) (g : Graph) : List ActionId → List Bool × Graph × Engine ε
  | [] => ([], g, e)
  | id :: rest =>
    let (ok, g, e) := e.actionTimedOut c g id
    let (oks, g, e) := e.actionsTimedOut g rest
    (ok :: oks, g, e)

/-! ## Fencing -/

/-- Completes a fencing request whose target is known to be safe. -/
def nodeFenced (e : Engine ε) (g : Graph) (fence : FenceCall) : Graph × Engine ε :=
  let (_, env) := c.storeFenced fence.target fence.uuid e.env
  let e := { e with
    env
    fenceFailures := e.fenceFailures.erase fence.target
    expectedDown := e.expectedDown.filter (· ≠ fence.target) }
  e.finishAction g fence.action

/-- Counts the failure of a fencing request, fails its action and asks for a new graph. -/
def fencingFailed (e : Engine ε) (g : Graph) (fence : FenceCall) : Graph × Engine ε :=
  let failures := e.fenceFailuresOf fence.target + 1
  let e := { e with fenceFailures := e.fenceFailures.insert fence.target failures }
  e.finishAction (failExecuted g fence.action "Stonith failed") fence.action

/-- Applies the outcome of a fencing request: nothing if it succeeded, else the reason. -/
def fencingResult (e : Engine ε) (g : Graph) (call : Nat) (outcome : Except String Unit) :
    Except Error Bool × Graph × Engine ε :=
  match e.fenceCalls.get? call with
  | none => (.error (.unknownFenceCall call), g, e)
  | some fence =>
    let e := { e with fenceCalls := e.fenceCalls.erase call }
    if fence.transition ≠ g.id then (.error (.staleResult g.id fence.transition), g, e)
    else
      match outcome with
      | .ok () => (.ok true, e.nodeFenced c g fence)
      | .error _ => (.ok true, e.fencingFailed g fence)

/-- Completes the given fencing requests as if they had succeeded. -/
def completeFencing (e : Engine ε) (g : Graph) : List (Nat × FenceCall) → Graph × Engine ε
  | [] => (g, e)
  | (call, fence) :: rest =>
    let e := { e with fenceCalls := e.fenceCalls.erase call }
    let (g, e) := e.nodeFenced c g fence
    e.completeFencing g rest

/-- Declares a node safe without fencing it.  The outstanding requests for it in this transition
complete as if they had succeeded, in no particular order (here that of the table); the answer says
whether there were any. -/
def confirmNodeSafe (e : Engine ε) (g : Graph) (target : String) :
    Except Error Bool × Graph × Engine ε :=
  match c.confirmSafe target e.env with
  | (.error err, env) => (.error err, g, { e with env })
  | (.ok (), env) =>
    let e := { e with env }
    let calls := e.fenceCalls.entries.filter fun f =>
      f.2.target = target && f.2.transition = g.id
    (.ok !calls.isEmpty, e.completeFencing c g calls)

end Engine
end ClusterTransition
