import ClusterTransition.Synapse

/-! # Transition graphs

A graph owns a list of actions and an ordered list of synapses, which refer to the actions by their
slots.  Besides these it holds the settings of the transition and what is known about its end: the
abort level, the reason of the first abort and the completion action.

This module has the graph itself, its construction, the lookups and the changes of status that
dispatchers make.  How completions spread is in `Graph.Propagation`, and how a pass runs is in
`Graph.Pass`.
-/

namespace ClusterTransition

/-- What one pass has counted; every pass starts from zero. -/
structure PassCounters where
  fired : Nat := 0
  pending : Nat := 0
  skipped : Nat := 0
  completed : Nat := 0
  incomplete : Nat := 0
  deriving DecidableEq, Repr, Inhabited

/-- The slack added to every action timer unless a graph says otherwise, in milliseconds. -/
def defaultNetworkDelay : Int := 60000

/-- A transition graph with the state of its execution. -/
structure Graph where
  id : Int
  /-- Where the graph came from. -/
  source : String := ""
  /-- How many synapses may wait for confirmation at once; unlimited unless positive. -/
  batchLimit : Int := 0
  /-- How many migrations may run at once on a node; unlimited unless positive. -/
  migrationLimit : Int := -1
  /-- The slack added to every action timer, in milliseconds. -/
  networkDelay : Int := defaultNetworkDelay
  stonithTimeout : Int := defaultNetworkDelay
  /-- The pause before a new graph is computed after a restart, in milliseconds. -/
  transitionDelay : Int := 0
  /-- Synapses of a lower priority than this are skipped. -/
  abortPriority : Int := 0
  abortReason : Option String := none
  completionAction : CompletionAction := .done
  complete : Bool := false
  counters : PassCounters := {}
  synapses : List Synapse := []
  actions : List Action := []
  deriving DecidableEq

namespace Graph

/-! ## Lookups -/

/-- The slot of the action with this id. -/
def slotOf? (g : Graph) (id : ActionId) : Option Nat := g.actions.findIdx? (·.id = id)

/-- The action with this id. -/
def action? (g : Graph) (id : ActionId) : Option Action := g.actions.find? (·.id = id)

/-- The synapse that owns the action with this id. -/
def synapseOf? (g : Graph) (id : ActionId) : Option Synapse :=
  (g.slotOf? id).bind fun slot => g.synapses.find? (·.actions.contains slot)

/-! ## Construction -/

/-- Appends a synapse that owns nothing and waits for nothing. -/
def addSynapse (g : Graph) (id priority : Int) : Graph :=
  { g with synapses := g.synapses ++ [{ id, priority }] }

/-- Appends an action and gives it to the synapse at `pos`, in place: tells what went wrong, if
anything did, and the graph that is left.  Ids are unique in a graph. -/
def addActionInPlace (g : Graph) (pos : Nat) (a : Action) : Except Error Unit × Graph :=
  if (g.slotOf? a.id).isSome then (.error (.duplicateAction a.id), g)
  else
    let slot := g.actions.length
    let g := { g with actions := g.actions ++ [a] }
    (.ok (), { g with
      synapses := g.synapses.modify pos fun s => { s with actions := s.actions ++ [slot] } })

/-- Makes the synapse at `pos` wait for an action of the graph, in place: tells what went wrong, if
anything did, and the graph that is left. -/
def addInputInPlace (g : Graph) (pos : Nat) (id : ActionId) : Except Error Unit × Graph :=
  match g.slotOf? id with
  | none => (.error (.unknownInput ((g.synapses[pos]?.map (·.id)).getD 0) id), g)
  | some slot =>
    (.ok (), { g with
      synapses := g.synapses.modify pos fun s => { s with inputs := s.inputs ++ [⟨slot, false⟩] } })

/-- The graph with one more action. -/
def addAction (g : Graph) (pos : Nat) (a : Action) : Except Error Graph :=
  match g.addActionInPlace pos a with
  | (.error e, _) => .error e
  | (.ok (), g) => .ok g

/-- The graph with one more input. -/
def addInput (g : Graph) (pos : Nat) (id : ActionId) : Except Error Graph :=
  match g.addInputInPlace pos id with
  | (.error e, _) => .error e
  | (.ok (), g) => .ok g

/-! ## Changes of status -/

/-- Changes the action with this id, if there is one. -/
def modifyAction (g : Graph) (id : ActionId) (f : Action → Action) : Graph :=
  match g.slotOf? id with
  | none => g
  | some slot => { g with actions := g.actions.modify slot f }

/-- Sets the status of the action at a slot. -/
def setStatusAt (g : Graph) (slot : Nat) (status : ActionStatus) : Graph :=
  { g with actions := g.actions.modify slot fun a => { a with status } }

/-- Sets the status of the synapse at `pos`. -/
def setSynapseStatus (g : Graph) (pos : Nat) (status : SynapseStatus) : Graph :=
  { g with synapses := g.synapses.modify pos fun s => { s with status } }

/-- Gives an action its final status, unless it has one.  Also tells whether it did. -/
def settle (g : Graph) (id : ActionId) (status : ActionStatus) : Bool × Graph :=
  match g.action? id with
  | none => (false, g)
  | some a =>
    if a.status.isConfirmed then (false, g)
    else (true, g.modifyAction id fun a => { a with status })

/-- Marks an action confirmed, unless its result is already known. -/
def confirmAction (g : Graph) (id : ActionId) : Bool × Graph := g.settle id .confirmed

/-- Marks an action failed, unless its result is already known. -/
def failAction (g : Graph) (id : ActionId) (kind : FailureKind) : Bool × Graph :=
  g.settle id (.failed kind)

/-! ## Aborts -/

/-- Asks for an early end.  The abort level and the completion action only rise, and the first
reason stays. -/
def abort (g : Graph) (priority : Int) (action : CompletionAction) (reason : String) : Graph :=
  { g with
    completionAction :=
      if g.completionAction.severity < action.severity then action else g.completionAction
    abortPriority := if g.abortPriority < priority then priority else g.abortPriority
    abortReason := g.abortReason.or (some reason) }

end Graph

end ClusterTransition
