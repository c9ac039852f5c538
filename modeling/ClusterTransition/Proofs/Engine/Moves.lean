import ClusterTransition.Engine.Reports
import ClusterTransition.Proofs.Engine.Dispatching
import ClusterTransition.Proofs.Pass.Recording
import ClusterTransition.Simulation

/-! # Runs of an engine on a graph

Between its start and its end a transition sees passes, reports and aborts, in any order and with
any contents.  A `Move` is one of them, and a run is a list of moves, made one after the other on a
graph and its engine.

All that a move does to the graph, passes apart, is edits on behalf of actions (`Move.reported`).
The same holds inside a pass: both the engine and the dry run only edit the graph on behalf of the
action that they dispatch (`Engine.dispatcher_handles`, `Simulator.dispatcher_handles`).
-/

namespace ClusterTransition

open ClusterTransition.Graph (Edits)

/-! ## Moves -/

/-- What can happen to a graph and its engine. -/
inductive Move where
  /-- One pass. -/
  | pass
  /-- A report about an action that was sent. -/
  | result (result : ActionResult)
  /-- The expiry of an action's timer. -/
  | timeout (id : ActionId)
  /-- The outcome of a fencing request. -/
  | fencing (call : Nat) (outcome : Except String Unit)
  /-- An administrator's word that a node is safe. -/
  | nodeSafe (target : String)
  | abort (priority : Int) (action : CompletionAction) (reason : String)

namespace Move

variable {ε : Type} (c : Cluster ε)

/-- What a move does. -/
def make : Move → Graph × Engine ε → Graph × Engine ε
  | pass, (g, e) => (g.run (Engine.dispatcher c) e).2
  | result r, (g, e) => (e.processResult g r).2
  | timeout id, (g, e) => (e.actionTimedOut c g id).2
  | fencing call outcome, (g, e) => (e.fencingResult c g call outcome).2
  | nodeSafe target, (g, e) => (e.confirmNodeSafe c g target).2
  | abort priority action reason, (g, e) => (g.abort priority action reason, e)

/-- What a run does. -/
def makeAll (moves : List Move) (s : Graph × Engine ε) : Graph × Engine ε :=
  moves.foldl (fun s m => m.make c s) s

/-- The dispatch calls of a move. -/
def calls : Move → Graph × Engine ε → List DispatchCall
  | pass, (g, e) => g.calls (Engine.dispatcher c) e
  | _, _ => []

/-- The dispatch calls of a run, in order. -/
def allCalls : List Move → Graph × Engine ε → List DispatchCall
  | [], _ => []
  | m :: moves, s => m.calls c s ++ allCalls moves (m.make c s)

/-- What every move keeps, every run keeps. -/
theorem makeAll_induction {P : Graph × Engine ε → Prop} (hmove : ∀ m s, P s → P (make c m s))
    (moves : List Move) {s : Graph × Engine ε} (h : P s) : P (makeAll c moves s) := by
  induction moves generalizing s with
  | nil => exact h
  | cons m moves ih => exact ih (hmove m s h)

end Move

/-! ## Dry runs -/

namespace Simulator

/-- One pass of a dry run. -/
def onePass (s : Graph × Simulator) : Graph × Simulator :=
  (s.1.run dispatcher { s.2 with pass := s.2.pass + 1 }).2

/-- The dispatch calls of a dry run of at most `n` passes, in order. -/
def allCalls : Nat → Graph × Simulator → List DispatchCall
  | 0, _ => []
  | n + 1, s =>
    s.1.calls dispatcher { s.2 with pass := s.2.pass + 1 } ++
      if (s.1.run dispatcher { s.2 with pass := s.2.pass + 1 }).1.isTerminal then []
      else allCalls n (onePass s)

theorem dispatcher_steady : dispatcher.Steady := fun _ _ _ => rfl

end Simulator

/-! ## Dispatchers that only edit -/

/-- Whatever the dispatcher does to the graph, it does on behalf of the action it carries out. -/
def Dispatcher.Handles {σ : Type} (d : Dispatcher σ) : Prop :=
  ∀ channel id g st, Edits id g (d.dispatch channel id g st).2.1

theorem Dispatcher.Handles.recording {σ : Type} {d : Dispatcher σ} (hd : d.Handles) :
    d.recording.Handles :=
  fun channel id g st => hd channel id g st.1

theorem Simulator.dispatcher_handles : Simulator.dispatcher.Handles := by
  intro channel id g s
  simp only [Simulator.dispatcher, Simulator.execute]
  split
  · exact .refl
  · rename_i a ha
    split
    · exact .refl
    · refine .trans (b := Simulator.failGraph g id) ?_ (Edits.finish _ rfl)
      exact .tail (.single (.settle g (.failed .execution) rfl)) (.abort ..)
    all_goals exact Edits.finish g rfl

namespace Engine

variable {ε : Type} (c : Cluster ε)

theorem dispatcher_steady : (dispatcher c).Steady := fun _ _ _ => rfl

theorem dispatcher_handles : (dispatcher c).Handles :=
  fun channel id g e => (dispatcher_advances c channel id g e).edits

/-! ## Reports -/

theorem failExecuted_edits (g : Graph) (id : ActionId) (reason : String) :
    Edits id g (failExecuted g id reason) :=
  .tail (.single (.settle g (.failed .execution) rfl)) (.abort ..)

theorem actionConfirmed_edits (e : Engine ε) (g : Graph) (id : ActionId) :
    Edits id g (e.actionConfirmed g id).1 :=
  (release_advances e g id).edits.tail (.settle _ .confirmed rfl)

theorem processResult_edits (e : Engine ε) (g : Graph) (r : ActionResult) :
    ∃ id, Edits id g (e.processResult g r).2.1 := by
  simp only [processResult]
  split
  · exact ⟨0, .refl⟩
  · rename_i key a _
    split
    · exact ⟨0, .refl⟩
    · refine ⟨a.id, .trans ?_ (finishAction_advances _ _ a.id).edits⟩
      split
      · exact failExecuted_edits g a.id _
      · exact .refl

theorem actionTimedOut_edits (e : Engine ε) (g : Graph) (id : ActionId) :
    Edits id g (e.actionTimedOut c g id).2.1 := by
  simp only [actionTimedOut]
  split
  · exact .refl
  · split
    · exact .refl
    · refine .head (.settle g (.failed .timedOut) rfl) ?_
      dsimp only
      split
      · exact (recordStatus_advances c e _ id _ _).edits.trans
          (finishAction_advances _ _ id).edits
      · exact (finishAction_advances _ _ id).edits

theorem nodeFenced_edits (e : Engine ε) (g : Graph) (fence : FenceCall) :
    Edits fence.action g (e.nodeFenced c g fence).1 :=
  (finishAction_advances _ g fence.action).edits

theorem fencingFailed_edits (e : Engine ε) (g : Graph) (fence : FenceCall) :
    Edits fence.action g (e.fencingFailed g fence).1 :=
  (failExecuted_edits g fence.action _).trans (finishAction_advances _ _ fence.action).edits

theorem fencingResult_edits (e : Engine ε) (g : Graph) (call : Nat)
    (outcome : Except String Unit) : ∃ id, Edits id g (e.fencingResult c g call outcome).2.1 := by
  simp only [fencingResult]
  split
  · exact ⟨0, .refl⟩
  · rename_i fence _
    split
    · exact ⟨0, .refl⟩
    · split
      · exact ⟨fence.action, nodeFenced_edits c _ g fence⟩
      · exact ⟨fence.action, fencingFailed_edits _ g fence⟩

end Engine

/-- What reports do to a graph: edits, each on behalf of some action. -/
abbrev Graph.Reported : Graph → Graph → Prop :=
  Relation.ReflTransGen fun g g' => ∃ id, Edits id g g'

theorem Engine.completeFencing_reported {ε : Type} (c : Cluster ε) (e : Engine ε) (g : Graph)
    (calls : List (Nat × FenceCall)) : Graph.Reported g (e.completeFencing c g calls).1 := by
  induction calls generalizing e g with
  | nil => exact .refl
  | cons head rest ih =>
    simp only [completeFencing]
    exact .head ⟨head.2.action, nodeFenced_edits c _ g head.2⟩ (ih _ _)

/-- A move that is no pass only edits the graph. -/
theorem Move.reported {ε : Type} (c : Cluster ε) {m : Move} (hm : m ≠ .pass)
    (s : Graph × Engine ε) : Graph.Reported s.1 (m.make c s).1 := by
  cases m with
  | pass => exact absurd rfl hm
  | result r => exact .single (Engine.processResult_edits s.2 s.1 r)
  | timeout id => exact .single ⟨id, Engine.actionTimedOut_edits c s.2 s.1 id⟩
  | fencing call outcome => exact .single (Engine.fencingResult_edits c s.2 s.1 call outcome)
  | nodeSafe target =>
    simp only [make, Engine.confirmNodeSafe]
    split
    · exact .refl
    · exact Engine.completeFencing_reported c _ s.1 _
  | abort priority action reason => exact .single ⟨0, .single (.abort ..)⟩

/-! ## The plan stays -/

theorem Graph.Reported.plan {g g' : Graph} (h : Graph.Reported g g') : g'.plan = g.plan := by
  induction h with
  | refl => rfl
  | tail _ step ih =>
    obtain ⟨id, hedits⟩ := step
    exact hedits.plan.trans ih

@[simp] theorem Graph.plan_failFiring (g : Graph) (pos slot : Nat) :
    (g.failFiring pos slot).plan = g.plan := by
  simp [Graph.failFiring]

/-- What a dispatch does to the graph that the pass hands to it. -/
theorem Dispatcher.Handles.edits {σ : Type} {d : Dispatcher σ} (hd : d.Handles)
    {channel : Channel} {id : ActionId} {g g' : Graph} {st st' : σ} {ok : Bool}
    (h : d.dispatch channel id g st = (ok, g', st')) : Edits id g g' := by
  have := hd channel id g st
  rwa [h] at this

theorem PassStep.plan {σ : Type} {d : Dispatcher σ} (hd : d.Handles) {x y : PassState σ}
    (h : PassStep d x y) : y.graph.plan = x.graph.plan := by
  cases h with
  | dispatch _ _ _ _ _ hgoes =>
    exact (hd.edits hgoes).plan.trans (Graph.plan_setStatusAt ..)
  | refuse _ _ _ _ _ hstays =>
    exact (Graph.plan_failFiring ..).trans
      ((hd.edits hstays).plan.trans (Graph.plan_setStatusAt ..))
  | ready | skip | fire | unroutable | again => simp
  | count | fired | conclude => rfl

/-- A pass keeps the plan. -/
theorem Graph.plan_run {σ : Type} {d : Dispatcher σ} (hsteady : d.Steady) (hd : d.Handles)
    (g : Graph) (st : σ) : (g.run d st).2.1.plan = g.plan :=
  Graph.run_induction hsteady (P := fun x => x.graph.plan = g.plan)
    (fun _ _ hstep hx => (hstep.plan hd).trans hx) g st rfl

/-- **No move changes the plan of the graph.** -/
theorem Move.plan {ε : Type} (c : Cluster ε) (m : Move) (s : Graph × Engine ε) :
    (m.make c s).1.plan = s.1.plan := by
  by_cases hm : m = .pass
  · subst hm
    exact Graph.plan_run (Engine.dispatcher_steady c) (Engine.dispatcher_handles c) s.1 s.2
  · exact (Move.reported c hm s).plan

/-- No run changes the plan of the graph. -/
theorem Move.plan_makeAll {ε : Type} (c : Cluster ε) (moves : List Move) (s : Graph × Engine ε) :
    (makeAll c moves s).1.plan = s.1.plan :=
  makeAll_induction (P := fun s' => s'.1.plan = s.1.plan) c (fun m s' hs => (m.plan c s').trans hs)
    moves rfl

/-! ## The job limits stay -/

namespace Engine

variable {ε : Type} (c : Cluster ε) (e : Engine ε) (g : Graph)

@[simp] theorem frame_nodeFenced (fence : FenceCall) :
    (e.nodeFenced c g fence).2.frame = e.frame :=
  frame_finishAction ..

@[simp] theorem frame_fencingFailed (fence : FenceCall) :
    (e.fencingFailed g fence).2.frame = e.frame :=
  frame_finishAction ..

theorem jobLimit_processResult (r : ActionResult) :
    (e.processResult g r).2.2.jobLimit = e.jobLimit := by
  simp only [processResult]
  split
  · rfl
  · split
    · rfl
    · exact jobLimit_of_frame (frame_finishAction ..)

theorem jobLimit_actionTimedOut (id : ActionId) :
    (e.actionTimedOut c g id).2.2.jobLimit = e.jobLimit := by
  simp only [actionTimedOut]
  split
  · rfl
  · split
    · rfl
    · refine jobLimit_of_frame ((frame_finishAction ..).trans ?_)
      split
      · exact frame_recordStatus ..
      · rfl

theorem jobLimit_fencingResult (call : Nat) (outcome : Except String Unit) :
    (e.fencingResult c g call outcome).2.2.jobLimit = e.jobLimit := by
  simp only [fencingResult]
  split
  · rfl
  · rename_i fence _
    let erased : Engine ε := { e with fenceCalls := e.fenceCalls.erase call }
    split
    · rfl
    · split
      · have hframe := jobLimit_of_frame (frame_nodeFenced c erased g fence)
        exact hframe
      · have hframe := jobLimit_of_frame (frame_fencingFailed erased g fence)
        exact hframe

theorem jobLimit_completeFencing (calls : List (Nat × FenceCall)) :
    (e.completeFencing c g calls).2.jobLimit = e.jobLimit := by
  induction calls generalizing e g with
  | nil => rfl
  | cons head rest ih =>
    let erased : Engine ε := { e with fenceCalls := e.fenceCalls.erase head.1 }
    have hframe := jobLimit_of_frame (frame_nodeFenced c erased g head.2)
    exact (ih _ _).trans hframe

theorem jobLimit_confirmNodeSafe (target : String) :
    (e.confirmNodeSafe c g target).2.2.jobLimit = e.jobLimit := by
  simp only [confirmNodeSafe]
  split
  · rfl
  · exact jobLimit_completeFencing ..

end Engine

theorem PassStep.jobLimit {ε : Type} {c : Cluster ε} {x y : PassState (Engine ε)}
    (h : PassStep (Engine.dispatcher c) x y) : y.state.jobLimit = x.state.jobLimit := by
  cases h with
  | @dispatch g g' e e' pos slot slots a channel _ _ _ hgoes =>
    have := Engine.jobLimit_dispatch c channel a.id (g.setStatusAt slot .executed) e
    rwa [hgoes] at this
  | @refuse g g' e e' pos slot slots a channel _ _ _ hstays =>
    have := Engine.jobLimit_dispatch c channel a.id (g.setStatusAt slot .executed) e
    rwa [hstays] at this
  | count | ready | skip | fire | unroutable | again | fired | conclude => rfl

/-- No move changes a job limit. -/
theorem Move.jobLimit {ε : Type} (c : Cluster ε) (m : Move) (s : Graph × Engine ε) :
    (m.make c s).2.jobLimit = s.2.jobLimit := by
  cases m with
  | pass =>
    exact Graph.run_induction (Engine.dispatcher_steady c)
      (P := fun x => x.state.jobLimit = s.2.jobLimit)
      (fun _ _ hstep hx => hstep.jobLimit.trans hx) s.1 s.2 rfl
  | result r => exact Engine.jobLimit_processResult s.2 s.1 r
  | timeout id => exact Engine.jobLimit_actionTimedOut c s.2 s.1 id
  | fencing call outcome => exact Engine.jobLimit_fencingResult c s.2 s.1 call outcome
  | nodeSafe target => exact Engine.jobLimit_confirmNodeSafe c s.2 s.1 target
  | abort => rfl

theorem Move.jobLimit_makeAll {ε : Type} (c : Cluster ε) (moves : List Move)
    (s : Graph × Engine ε) : (makeAll c moves s).2.jobLimit = s.2.jobLimit :=
  makeAll_induction (P := fun s' => s'.2.jobLimit = s.2.jobLimit) c
    (fun m s' hs => (m.jobLimit c s').trans hs) moves rfl

end ClusterTransition
