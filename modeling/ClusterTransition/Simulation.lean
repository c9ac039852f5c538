import ClusterTransition.Controller
import ClusterTransition.Graph.Pass

/-! # Dry runs

A dry run walks a graph to its end without a cluster: each action is taken to be completed in the
moment in which it is dispatched.  Actions can be made to fail, by id or by operation key, to see
how a failure spreads.  The report lists what was executed, what an abort skipped and what never
became ready.
-/

namespace ClusterTransition

/-- What a dry run should do. -/
structure SimulationOptions where
  /-- The actions that run but fail, by id or by operation key. -/
  fail : List String := []
  /-- The ids of the actions that cannot be dispatched. -/
  failDispatch : List Int := []
  maxPasses : Nat := 1000
  deriving DecidableEq, Repr, Inhabited

/-- What became of an action in a dry run. -/
inductive SimOutcome where
  | confirmed
  | failed
  /-- It failed, which it may. -/
  | ignored
  | notDispatched
  deriving DecidableEq, Repr

/-- The stored name of an outcome. -/
def SimOutcome.name : SimOutcome → String
  | confirmed => "confirmed"
  | failed => "failed"
  | ignored => "ignored"
  | notDispatched => "not_dispatched"

/-- One action that a dry run executed. -/
structure ExecutedAction where
  /-- The number of the pass, from one. -/
  pass : Nat
  id : Int
  kind : ActionKind
  label : String
  target : Option String
  outcome : SimOutcome
  deriving DecidableEq, Repr

/-- Whether an action failed, in its execution or before. -/
def ExecutedAction.isFailed (a : ExecutedAction) : Bool :=
  match a.outcome with
  | .failed | .notDispatched => true
  | .confirmed | .ignored => false

/-- What came of a dry run. -/
structure SimulationReport where
  transition : Int
  source : String
  result : PassResult
  passes : Nat
  counters : PassCounters
  abortPriority : Int
  notification : Notification
  executed : List ExecutedAction
  /-- The synapses that an abort vetoed. -/
  skipped : List Int
  /-- The synapses that never fired: first those with open inputs, then the ready ones. -/
  blocked : List Int
  deriving DecidableEq, Repr

/-- The actions that failed. -/
def SimulationReport.failed (r : SimulationReport) : List ExecutedAction :=
  r.executed.filter (·.isFailed)

/-! ## Executing an action -/

/-- The state of a dry run: the number of the pass and what was executed so far. -/
structure Simulator where
  options : SimulationOptions
  pass : Nat := 0
  executed : List ExecutedAction := []
  deriving DecidableEq, Repr

namespace Simulator

/-- Whether an action is to fail. -/
def shouldFail (options : SimulationOptions) (a : Action) : Bool :=
  options.fail.any fun f => f = Numeral.intText a.id || a.op.key = some f

/-- Notes what became of an action. -/
def log (s : Simulator) (a : Action) (outcome : SimOutcome) : Simulator :=
  { s with executed := s.executed ++
      [{ pass := s.pass, id := a.id, kind := a.kind, label := a.label, target := a.target
         outcome }] }

/-- What becomes of an action that is dispatched. -/
def outcomeOf (options : SimulationOptions) (a : Action) : SimOutcome :=
  if options.failDispatch.contains a.id then .notDispatched
  else if !a.isPseudo && shouldFail options a then
    if a.canFail then .ignored else .failed
  else .confirmed

/-- The graph after the failure of an action that ran. -/
def failGraph (g : Graph) (id : ActionId) : Graph :=
  (g.failAction id .execution).2.abort infinity .restart "Event failed"

/-- Executes an action and completes it at once. -/
def execute (id : ActionId) (g : Graph) (s : Simulator) : Bool × Graph × Simulator :=
  match g.action? id with
  | none => (false, g, s)
  | some a =>
    let outcome := outcomeOf s.options a
    match outcome with
    | .notDispatched => (false, g, s.log a outcome)
    | .failed => (true, (((failGraph g id).confirmAction id).2.update id).2, s.log a outcome)
    | .confirmed | .ignored => (true, ((g.confirmAction id).2.update id).2, s.log a outcome)

/-- The dry run as a dispatcher, which never holds anything back. -/
def dispatcher : Dispatcher Simulator where
  dispatch _ := execute
  allowed _ _ s := (true, s)

/-! ## The run -/

/-- Runs passes until the end of the transition, at most `n` of them. -/
def passes : Nat → PassResult → Graph → Simulator → PassResult × Graph × Simulator
  | 0, result, g, s => (result, g, s)
  | n + 1, _, g, s =>
    let (result, g, s) := g.run dispatcher { s with pass := s.pass + 1 }
    if result.isTerminal then (result, g, s) else passes n result g s

/-- The ids of the synapses with a status, in the order of the graph. -/
def synapsesWith (g : Graph) (status : SynapseStatus) : List Int :=
  (g.synapses.filter (·.status = status)).map (·.id)

end Simulator

/-- Walks a graph to its end, or through as many passes as allowed. -/
def simulate (options : SimulationOptions) (g : Graph) : SimulationReport × Graph :=
  let (result, g, s) := Simulator.passes options.maxPasses .pending g { options }
  let (notification, _, done) := ({} : Controller).beginTransition.notify g false
  ({ transition := g.id
     source := g.source
     result
     passes := s.pass
     counters := g.counters
     abortPriority := g.abortPriority
     notification
     executed := s.executed
     skipped := Simulator.synapsesWith g .skipped
     blocked := Simulator.synapsesWith g .unfired ++ Simulator.synapsesWith g .ready },
   done)

end ClusterTransition
