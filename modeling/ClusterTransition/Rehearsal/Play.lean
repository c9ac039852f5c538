import ClusterTransition.Rehearsal.Stage

/-! # Playing a transition

A play runs a transition loop against a stage, under a clock that jumps.  As long as events are
queued the clock stands still; when the loop waits and the queue is empty, the clock moves to the
next report under way or the next timer, whichever is first.  If there is neither, the loop would
wait for ever, and the play is stalled.
-/

namespace ClusterTransition

/-- A transition that is being played. -/
structure Play where
  loop : TransitionLoop Stage
  now : Duration := 0
  /-- The events that wait to be taken in. -/
  queue : List EngineEvent := []
  /-- The events that will be queued later, with the time of each. -/
  agenda : List (Duration × EngineEvent) := []

/-- How a play ends. -/
inductive PlayResult where
  | finished (outcome : TransitionOutcome Stage) (time : Duration)
  /-- The loop waits for something that will not come. -/
  | stalled (stage : Stage)

namespace Play

/-- Queues the events that are due and puts the others on the agenda. -/
def schedule (p : Play) (events : List (Duration × EngineEvent)) : Play :=
  let isDue (e : Duration × EngineEvent) : Bool := e.1 ≤ p.now
  { p with
    queue := p.queue ++ (events.filter isDue).map (·.2)
    agenda := p.agenda ++ events.filter fun e => !isDue e }

/-- Replaces the state of the stage. -/
def withStage (p : Play) (stage : Stage) : Play :=
  { p with loop := { p.loop with engine := { p.loop.engine with env := stage } } }

/-- Takes over the reports that the stage has sent on their way. -/
def collect (p : Play) : Play :=
  let stage := p.loop.engine.env
  (p.withStage { stage with outbox := [] }).schedule
    (stage.outbox.map fun e => (p.now.saturatingAdd e.1, e.2))

/-- The time of the next event that is not queued, if there is one. -/
def nextTime? (p : Play) : Option Duration :=
  (p.agenda.map (·.1) ++ p.loop.engine.timers.deadlines.values).min?

/-- Moves the clock and queues what is due then: reports first, and then the expired timers. -/
def moveTo (p : Play) (time : Duration) : Play :=
  let (expired, timers) := p.loop.engine.timers.advance (time - p.loop.engine.timers.now)
  let p := { p with
    now := time
    agenda := []
    loop := { p.loop with engine := { p.loop.engine with timers } } }.schedule p.agenda
  { p with queue := p.queue ++ expired.map .timeout }

/-- Plays until the end of the transition, in at most `n` steps; each takes in an event or moves the
clock. -/
def run : Nat → Play → PlayResult
  | 0, p => .stalled p.loop.engine.env
  | n + 1, p =>
    match p.loop.settle Stage.cluster with
    | (some result, loop) => .finished (loop.finish result) p.now
    | (none, loop) =>
      let p := { p with loop }.collect
      match p.queue with
      | event :: queue =>
        run n ({ p with queue, loop := p.loop.apply Stage.cluster event }.collect)
      | [] =>
        match p.nextTime? with
        | none => .stalled p.loop.engine.env
        | some time => run n (p.moveTo time)

/-- Plays a transition with events at given times.  Besides these each action causes at most one
expired timer, one report on its fencing and its scripted replies, and each event takes at most two
steps. -/
def start (graph : Graph) (config : EngineConfig) (stage : Stage)
    (events : List (Duration × EngineEvent)) : PlayResult :=
  let play := ({ loop := .new graph config stage } : Play).schedule events
  run (2 * (events.length + graph.actions.length * (stage.replies.length + 2)) + 4) play

end Play
end ClusterTransition
