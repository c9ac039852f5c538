import ClusterTransition.Graph.Basic

/-! # How a completion spreads

When the result of an action is known, the graph is updated with it.  A synapse that is executing
is confirmed once all of its actions are; a synapse that has not fired marks the inputs that the
action satisfies, and is ready once nothing holds it up.  A synapse whose outcome is known does not
change.

A failed action satisfies no input, unless the action may fail or the synapse has the priority of
infinity.
-/

namespace ClusterTransition

/-! ## Readiness -/

/-- Whether an input lets its synapse go: it is satisfied, and its action did not fail in a way that
matters to the synapse. -/
def Input.isOpen (actions : List Action) (priority : Int) (i : Input) : Bool :=
  match actions[i.slot]? with
  | none => i.satisfied
  | some a => i.satisfied && !(a.status.isFailed && !a.canFail && priority < infinity)

/-- Whether every input lets the synapse go. -/
def Synapse.inputsSatisfied (actions : List Action) (s : Synapse) : Bool :=
  s.inputs.all (Input.isOpen actions s.priority)

/-! ## One synapse -/

/-- Whether the inputs of a synapse that refer to an action become satisfied by its completion. -/
def Synapse.accepts (a : Action) (s : Synapse) : Bool :=
  !a.status.isFailed || a.canFail || s.priority = infinity

/-- Marks the inputs at `slot`. -/
def Input.satisfy (slot : Nat) (i : Input) : Input :=
  if i.slot = slot then { i with satisfied := true } else i

/-- Marks the inputs of a synapse that has not fired.  Also tells whether anything changed. -/
def Synapse.satisfyInputs (actions : List Action) (slot : Nat) (s : Synapse) : Bool × Synapse :=
  if s.inputs.any fun i => i.slot = slot && !i.satisfied then
    let marked := { s with inputs := s.inputs.map (Input.satisfy slot) }
    (true, if marked.inputsSatisfied actions then { marked with status := .ready } else marked)
  else (false, s)

/-- Confirms the action at `slot` on behalf of an executing synapse that owns it.  Also tells
whether anything changed. -/
def Synapse.confirmMember (actions : List Action) (slot : Nat) (s : Synapse) :
    Bool × List Action :=
  match actions[slot]? with
  | none => (false, actions)
  | some a =>
    if s.actions.contains slot && !a.status.isConfirmed then
      (true, actions.modify slot fun a => { a with status := .confirmed })
    else (false, actions)

/-- Whether the results of all the synapse's actions but the one at `slot` are known. -/
def Synapse.othersConfirmed (actions : List Action) (slot : Nat) (s : Synapse) : Bool :=
  s.actions.all fun member =>
    member = slot || ((actions[member]?.map (·.status.isConfirmed)).getD true)

/-- What the completion of the action at `slot` does to one synapse: whether anything changed, the
synapse and the actions.  `a` is the action as it was when the update began. -/
def Synapse.absorb (slot : Nat) (a : Action) (actions : List Action) (s : Synapse) :
    Bool × Synapse × List Action :=
  match s.status with
  | .confirmed | .failed | .skipped => (false, s, actions)
  | .executing =>
    let (changed, actions) := s.confirmMember actions slot
    if s.othersConfirmed actions slot then (true, { s with status := .confirmed }, actions)
    else (changed, s, actions)
  | .unfired | .ready =>
    if s.accepts a then
      let (changed, s) := s.satisfyInputs actions slot
      (changed, s, actions)
    else (false, s, actions)

/-! ## The graph -/

/-- Takes the completion of the action at `slot` through a list of synapses, in order. -/
def absorbAll (slot : Nat) (a : Action) :
    List Action → List Synapse → Bool × List Synapse × List Action
  | actions, [] => (false, [], actions)
  | actions, s :: rest =>
    let (changed, s, actions) := s.absorb slot a actions
    let (changedRest, rest, actions) := absorbAll slot a actions rest
    (changed || changedRest, s :: rest, actions)

/-- Spreads the completion of an action.  Also tells whether anything changed. -/
def Graph.update (g : Graph) (id : ActionId) : Bool × Graph :=
  match g.slotOf? id with
  | none => (false, g)
  | some slot =>
    match g.actions[slot]? with
    | none => (false, g)
    | some a =>
      let (changed, synapses, actions) := absorbAll slot a g.actions g.synapses
      (changed, { g with synapses, actions })

end ClusterTransition
