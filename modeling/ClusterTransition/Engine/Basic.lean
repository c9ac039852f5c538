import ClusterTransition.Config
import ClusterTransition.Engine.Cluster
import ClusterTransition.Graph.Propagation
import ClusterTransition.Ledger
import ClusterTransition.Timers
import ClusterTransition.TransitionKey

/-! # The transition engine

The engine carries out graphs for real.  It sends requests with transition keys and guards them by
timers, hands fencing over to the cluster, and charges running jobs to the ledger.  Its state is a
value; how it dispatches actions is in `Engine.Dispatch`, and what it does with reports is in
`Engine.Reports`.
-/

namespace ClusterTransition

/-- A fencing request whose outcome is not known. -/
structure FenceCall where
  action : ActionId
  transition : Int
  target : String
  uuid : String
  deriving DecidableEq, Repr

/-- An engine in surroundings of type `ε`. -/
structure Engine (ε : Type) where
  /-- The state of the surroundings. -/
  env : ε
  timers : Timers := {}
  /-- The job limit of each node. -/
  jobLimit : String → Int
  ledger : Ledger := {}
  /-- The identity of the engine, which is part of every key. -/
  uuid : String
  localNode : String
  maxFenceAttempts : Nat
  /-- The nodes that were asked to shut down. -/
  expectedDown : List String := []
  /-- The outstanding fencing requests, by call number. -/
  fenceCalls : Table Nat FenceCall := .empty
  /-- The failures of fencing since the last success, by node. -/
  fenceFailures : Table String Nat := .empty
  /-- Another pass is due. -/
  passRequested : Bool := false

namespace Engine

variable {ε : Type}

/-- The uuid of an engine for which none is drawn, as in a rehearsal. -/
def defaultUuid : String := "6f1e8a52-7d0c-4c1b-9a3e-2b5d4c3a1f00"

/-- A new engine with the settings of a configuration.  Its uuid is drawn at random by whoever makes
the engine; any text may come out, and engines are told apart by it. -/
def new (config : EngineConfig) (env : ε) (uuid : String := defaultUuid) : Engine ε where
  env
  jobLimit := config.throttle.jobLimit
  uuid
  localNode := config.node
  maxFenceAttempts := config.fencing.maxAttempts

/-- Whether a node was asked to shut down. -/
def isExpectedDown (e : Engine ε) (node : String) : Bool := e.expectedDown.contains node

/-- Notes that a node was asked to shut down. -/
def expectDown (e : Engine ε) (node : String) : Engine ε :=
  if e.isExpectedDown node then e else { e with expectedDown := node :: e.expectedDown }

/-- How often the fencing of a node has failed since the last success. -/
def fenceFailuresOf (e : Engine ε) (node : String) : Nat := (e.fenceFailures.get? node).getD 0

/-- Whether the fencing of some node has failed too often to go on. -/
def tooManyFenceFailures (e : Engine ε) : Bool :=
  e.fenceFailures.values.any fun n => e.maxFenceAttempts ≤ n

/-- Asks for another pass. -/
def requestPass (e : Engine ε) : Engine ε := { e with passRequested := true }

/-- Takes back the request for another pass.  Also tells whether there was one. -/
def takePassRequest (e : Engine ε) : Bool × Engine ε :=
  (e.passRequested, { e with passRequested := false })

/-! ## Steps that several operations share -/

/-- Prepares for the execution of a graph: the job counts start from zero. -/
def startTransition (e : Engine ε) : Engine ε :=
  { e with ledger := e.ledger.reset, passRequested := true }

/-- Gives back the job slots of an action, if it holds any. -/
def release (e : Engine ε) (g : Graph) (id : ActionId) : Graph × Engine ε :=
  match g.action? id with
  | none => (g, e)
  | some a =>
    if a.counted then
      (g.modifyAction id fun a => { a with counted := false },
       { e with ledger := e.ledger.recordAction a (-1) })
    else (g, e)

/-- Marks an action confirmed and gives back its job slots. -/
def actionConfirmed (e : Engine ε) (g : Graph) (id : ActionId) : Graph × Engine ε :=
  let (g, e) := e.release g id
  ((g.confirmAction id).2, e)

/-- Marks an action confirmed, spreads its completion and asks for another pass. -/
def finishAction (e : Engine ε) (g : Graph) (id : ActionId) : Graph × Engine ε :=
  let (g, e) := e.actionConfirmed g id
  ((g.update id).2, e.requestPass)

/-- The timeout of an action that is sent: its own if it is positive, else the network delay. -/
def coercedTimeout (networkDelay timeoutMs : Int) : Int :=
  if timeoutMs ≤ 0 then networkDelay else timeoutMs

/-- How long the timer of an action runs: the timeout and the network delay, within 64 bits. -/
def timerSpan (networkDelay timeoutMs : Int) : Duration :=
  Duration.ofMillis (Numeral.clampInt64 (timeoutMs + networkDelay)).toNat

/-- Arms the timer of an action. -/
def startActionTimer (e : Engine ε) (g : Graph) (id : ActionId) : Graph × Engine ε :=
  match g.action? id with
  | none => (g, e)
  | some a =>
    let timeoutMs := coercedTimeout g.networkDelay a.op.timeoutMs
    (g.modifyAction id fun a => { a with op := { a.op with timeoutMs } },
     { e with timers := e.timers.set id (timerSpan g.networkDelay timeoutMs) })

/-- Stores a status record of an action, and notes on the action that the store took it. -/
def recordStatus (c : Cluster ε) (e : Engine ε) (g : Graph) (id : ActionId) (status : OpStatus)
    (rc : Int) : Graph × Engine ε :=
  match g.action? id with
  | none => (g, e)
  | some a =>
    let (ok, env) := c.storeStatus a status rc e.env
    (if ok then g.modifyAction id fun a => { a with sentUpdate := true } else g, { e with env })

end Engine
end ClusterTransition
