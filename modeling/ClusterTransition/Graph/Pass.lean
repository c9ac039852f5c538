import ClusterTransition.Graph.Propagation

/-! # Passes

One pass visits the synapses in order.  A synapse whose inputs are satisfied fires, which hands its
actions one after the other to a dispatcher; the pass ends early at the batch limit.  A dispatcher
says whether an action was set going, and may change the graph at once; results that arrive later
come in through `Graph.update`.

The pass does not know how actions are carried out.  It is written for any dispatcher, over any
state that the dispatcher keeps.
-/

namespace ClusterTransition

/-! ## Dispatchers -/

/-- The four ways in which actions are carried out. -/
inductive Channel where
  | pseudo
  | resource
  | clusterEvent
  | fencing
  deriving DecidableEq, Repr

/-- The way in which an action is carried out; an event of the cluster without a task has none. -/
def Action.channel? (a : Action) : Option Channel :=
  match a.kind with
  | .pseudo => some .pseudo
  | .resource => some .resource
  | .clusterEvent =>
    match a.task with
    | none => none
    | some "stonith" => some .fencing
    | some _ => some .clusterEvent

/-- Carries out actions, with a state of type `σ`. -/
structure Dispatcher (σ : Type) where
  /-- Sets an action going.  The answer says whether that worked; the graph may change on the way,
  and the outcome of the action may come later. -/
  dispatch : Channel → ActionId → Graph → σ → Bool × Graph × σ
  /-- Whether an action that is not a marker may go now.  A refusal puts its synapse off to a later
  pass. -/
  allowed : ActionId → Graph → σ → Bool × σ

/-! ## Firing one synapse -/

/-- What becomes of a synapse that a pass visits. -/
inductive FireDecision where
  | fire
  /-- Not now: an input is open or an action may not go yet. -/
  | defer
  /-- Never: an abort vetoes it. -/
  | skip
  deriving DecidableEq, Repr

namespace Graph

variable {σ : Type} (d : Dispatcher σ)

/-- Asks for each action at the given slots whether it may go.  Markers always may; of the other
actions the first that may not decides. -/
def checkActions (pos : Nat) (priority : Int) :
    List Nat → Graph → σ → FireDecision × Graph × σ
  | [], g, st => (.fire, g, st)
  | slot :: slots, g, st =>
    match g.actions[slot]? with
    | none => checkActions pos priority slots g st
    | some a =>
      if a.isPseudo then checkActions pos priority slots g st
      else if priority < g.abortPriority then (.skip, g.setSynapseStatus pos .skipped, st)
      else
        match d.allowed a.id g st with
        | (true, st) => checkActions pos priority slots g st
        | (false, st) => (.defer, g, st)

/-- Decides whether the synapse at `pos` fires.  One whose inputs are satisfied is marked ready. -/
def shouldFire (pos : Nat) (s : Synapse) (g : Graph) (st : σ) : FireDecision × Graph × σ :=
  if s.inputsSatisfied g.actions then
    checkActions d pos s.priority s.actions (g.setSynapseStatus pos .ready) st
  else (.defer, g, st)

/-- Hands the action at a slot to the dispatcher.  An action that was handed over before is not
handed over again. -/
def initiateAction (slot : Nat) (g : Graph) (st : σ) : Bool × Graph × σ :=
  match g.actions[slot]? with
  | none => (false, g, st)
  | some a =>
    if a.status.isExecuted then (false, g, st)
    else
      let g := g.setStatusAt slot .executed
      match a.channel? with
      | none => (false, g, st)
      | some channel => d.dispatch channel a.id g st

/-- Hands over the actions at the given slots, up to the first that cannot be set going; that one
fails, and the synapse at `pos` with it. -/
def fireActions (pos : Nat) : List Nat → Graph → σ → Bool × Graph × σ
  | [], g, st => (true, g, st)
  | slot :: slots, g, st =>
    match initiateAction d slot g st with
    | (true, g, st) => fireActions pos slots g st
    | (false, g, st) =>
      (false, (g.setStatusAt slot (.failed .initiation)).setSynapseStatus pos .failed, st)

/-- Fires the synapse at `pos`, which owns the actions at the given slots. -/
def fireSynapse (pos : Nat) (slots : List Nat) (g : Graph) (st : σ) : Bool × Graph × σ :=
  fireActions d pos slots (g.setSynapseStatus pos .executing) st

/-! ## The pass -/

/-- Whether as many synapses wait for confirmation as may. -/
def batchFull (g : Graph) : Bool := 0 < g.batchLimit && g.batchLimit ≤ g.counters.pending

/-- Whether the outcome of the synapse at `pos` is known. -/
def isConfirmedAt (g : Graph) (pos : Nat) : Bool :=
  (g.synapses[pos]?.map (·.status.isConfirmed)).getD false

/-- Changes the counters. -/
def count (g : Graph) (f : PassCounters → PassCounters) : Graph :=
  { g with counters := f g.counters }

/-- What follows when a synapse could not be fired: everything below infinity is vetoed. -/
def fireFailed (g : Graph) : Graph :=
  { g with
    abortPriority := infinity
    abortReason := g.abortReason.or (some "action initiation failed")
    counters := { g.counters with
      fired := g.counters.fired - 1
      skipped := g.counters.skipped + 1
      incomplete := g.counters.incomplete + 1 } }

/-- Fires the synapse at `pos` and counts it, as pending unless its outcome is known at once. -/
def fireCounted (pos : Nat) (slots : List Nat) (g : Graph) (st : σ) : Graph × σ :=
  let g := g.count fun c => { c with fired := c.fired + 1 }
  let (ok, g, st) := fireSynapse d pos slots g st
  let g := if ok then g else g.fireFailed
  let g := if g.isConfirmedAt pos then g else g.count fun c => { c with pending := c.pending + 1 }
  (g, st)

/-- Visits the synapse at `pos`. -/
def visit (pos : Nat) (s : Synapse) (g : Graph) (st : σ) : Graph × σ :=
  match s.status with
  | .failed | .skipped => (g.count fun c => { c with skipped := c.skipped + 1 }, st)
  | .confirmed | .executing => (g, st)
  | .unfired | .ready =>
    match shouldFire d pos s g st with
    | (.fire, g, st) => fireCounted d pos s.actions g st
    | (.skip, g, st) =>
      (g.count fun c => { c with skipped := c.skipped + 1, incomplete := c.incomplete + 1 }, st)
    | (.defer, g, st) => (g.count fun c => { c with incomplete := c.incomplete + 1 }, st)

/-- Visits the synapses at the given positions, until the batch limit is reached. -/
def visitAll : List Nat → Graph → σ → Graph × σ
  | [], g, st => (g, st)
  | pos :: rest, g, st =>
    if g.batchFull then (g, st)
    else
      match g.synapses[pos]? with
      | none => visitAll rest g st
      | some s =>
        let (g, st) := visit d pos s g st
        visitAll rest g st

/-- The counters with which a pass begins. -/
def startCounters (g : Graph) : PassCounters where
  completed := g.synapses.countP (·.status.isConfirmed)
  pending := g.synapses.countP (·.status = .executing)

/-- The outcome of a pass, from what it has counted.  A pass that started nothing and has nothing
outstanding ends the transition. -/
def classify (g : Graph) : PassResult :=
  let c := g.counters
  if c.pending = 0 ∧ c.fired = 0 then
    if c.incomplete ≠ 0 ∧ g.abortPriority ≤ 0 then .terminated
    else if c.skipped ≠ 0 then .stopped
    else .complete
  else if c.fired = 0 then .pending
  else .active

/-- Runs one pass. -/
def run (g : Graph) (st : σ) : PassResult × Graph × σ :=
  let g := { g with counters := g.startCounters }
  let (g, st) := visitAll d (List.range g.synapses.length) g st
  let result := g.classify
  (result, { g with complete := g.complete || result.isTerminal }, st)

end Graph

end ClusterTransition
