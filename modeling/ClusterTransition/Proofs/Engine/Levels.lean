import ClusterTransition.Proofs.Engine.Once

/-! # How the abort level rises

The abort level of a graph is the priority below which nothing new is started.  An abort raises it
to the priority that it carries, unless the level is higher already.  All else that raises it takes
it to infinity: the failure of an action that ran, in an engine or in a dry run, and the failure to
set an action going (`Graph.Raises`).

So as long as no abort asks for more than infinity, the level never falls, and it is always the
highest priority that was asked for so far (`Turn.level_makeAll`).
-/

namespace ClusterTransition

open ClusterTransition.Graph (Advances)

namespace Graph

/-- The abort level stays or rises to infinity. -/
def Raises (g g' : Graph) : Prop :=
  g'.abortPriority = g.abortPriority ∨ g'.abortPriority = infinity

variable {g g' g'' : Graph} {id : ActionId}

theorem Raises.refl (g : Graph) : g.Raises g := .inl rfl

theorem Raises.trans (h : g.Raises g') (h' : g'.Raises g'') : g.Raises g'' := by
  rcases h' with h' | h'
  · rw [Raises, h']
    exact h
  · exact .inr h'

/-- A level that rises to infinity does not fall if it is at most infinity. -/
theorem Raises.le (h : g.Raises g') (hg : g.abortPriority ≤ infinity) :
    g.abortPriority ≤ g'.abortPriority := by
  rcases h with h | h <;> omega

theorem Raises.bounded (h : g.Raises g') (hg : g.abortPriority ≤ infinity) :
    g'.abortPriority ≤ infinity := by
  rcases h with h | h <;> omega

theorem abortPriority_abort (priority : Int) (action : CompletionAction) (reason : String) :
    (g.abort priority action reason).abortPriority = max g.abortPriority priority := by
  simp only [abort]
  split <;> omega

theorem Raises.abort (g : Graph) (action : CompletionAction) (reason : String) :
    g.Raises (g.abort infinity action reason) := by
  rw [Raises, abortPriority_abort]
  omega

theorem abortPriority_modifyAction (g : Graph) (id : ActionId) (f : Action → Action) :
    (g.modifyAction id f).abortPriority = g.abortPriority := by
  simp only [modifyAction]
  split <;> rfl

theorem abortPriority_settle (g : Graph) (id : ActionId) (status : ActionStatus) :
    (g.settle id status).2.abortPriority = g.abortPriority := by
  simp only [settle]
  split
  · rfl
  · split
    · rfl
    · exact abortPriority_modifyAction ..

theorem abortPriority_update (g : Graph) (id : ActionId) :
    (g.update id).2.abortPriority = g.abortPriority := by
  simp only [update]
  split
  · rfl
  · split <;> rfl

/-- **No advance changes the abort level.** -/
theorem abortPriority_of_advances (h : Advances id g g') : g'.abortPriority = g.abortPriority := by
  induction h with
  | refl => rfl
  | tail _ step ih =>
    refine Eq.trans ?_ ih
    cases step with
    | note => exact abortPriority_modifyAction ..
    | finish => exact (abortPriority_update ..).trans (abortPriority_settle ..)
    | shutdown => rfl

end Graph

/-! ## Dispatchers -/

/-- Whatever the dispatcher does, the abort level stays or rises to infinity. -/
def Dispatcher.Raises {σ : Type} (d : Dispatcher σ) : Prop :=
  ∀ (channel : Channel) (id : ActionId) (g : Graph) (st : σ),
    g.Raises (d.dispatch channel id g st).2.1

theorem Dispatcher.Raises.recording {σ : Type} {d : Dispatcher σ} (hd : d.Raises) :
    d.recording.Raises :=
  fun channel id g st => hd channel id g st.1

theorem Engine.dispatcher_raises {ε : Type} (c : Cluster ε) : (dispatcher c).Raises :=
  fun channel id g e =>
    .inl (Graph.abortPriority_of_advances (dispatcher_advances c channel id g e))

/-- An action that failed while it ran raises the level. -/
theorem Engine.failExecuted_raises (g : Graph) (id : ActionId) (reason : String) :
    g.Raises (failExecuted g id reason) := by
  have hsettle : g.Raises (g.failAction id .execution).2 := .inl (Graph.abortPriority_settle ..)
  exact hsettle.trans (.abort ..)

theorem Simulator.dispatcher_raises : Simulator.dispatcher.Raises := by
  intro channel id g s
  have hfinish (g : Graph) : ((g.confirmAction id).2.update id).2.abortPriority = g.abortPriority :=
    (Graph.abortPriority_update ..).trans (Graph.abortPriority_settle ..)
  have hfail : g.Raises (failGraph g id) := by
    have hsettle : g.Raises (g.failAction id .execution).2 := .inl (Graph.abortPriority_settle ..)
    exact hsettle.trans (.abort ..)
  simp only [dispatcher, execute]
  split
  · exact .refl g
  · split
    · exact .refl g
    · exact hfail.trans (.inl (hfinish _))
    all_goals exact .inl (hfinish g)

/-- **In every step of a pass the abort level stays or rises to infinity.** -/
theorem PassStep.raises {σ : Type} {d : Dispatcher σ} (hd : d.Raises) {x y : PassState σ}
    (h : PassStep d x y) : x.graph.Raises y.graph := by
  cases h with
  | count | ready | skip | fire | fired | conclude => exact .inl rfl
  | @dispatch g g' st st' _ slot _ a channel _ _ _ hgoes =>
    have hraises := hd channel a.id (g.setStatusAt slot .executed) st
    rwa [hgoes] at hraises
  | refuse | unroutable | again => exact .inr rfl

/-! ## Moves and turns -/

namespace Engine

variable {ε : Type} (c : Cluster ε)

theorem abortPriority_finishAction (e : Engine ε) (g : Graph) (id : ActionId) :
    (e.finishAction g id).1.abortPriority = g.abortPriority :=
  Graph.abortPriority_of_advances (finishAction_advances e g id)

theorem processResult_raises (e : Engine ε) (g : Graph) (r : ActionResult) :
    g.Raises (e.processResult g r).2.1 := by
  simp only [processResult]
  split
  · exact .refl g
  · split
    · exact .refl g
    · refine .trans ?_ (.inl (abortPriority_finishAction ..))
      split
      · exact failExecuted_raises ..
      · exact .refl g

theorem actionTimedOut_raises (e : Engine ε) (g : Graph) (id : ActionId) :
    g.Raises (e.actionTimedOut c g id).2.1 := by
  simp only [actionTimedOut]
  split
  · exact .refl g
  · split
    · exact .refl g
    · have hfails : g.Raises (g.failAction id .timedOut).2 := .inl (Graph.abortPriority_settle ..)
      refine hfails.trans (.trans ?_ (.inl (abortPriority_finishAction ..)))
      split
      · exact .inl (Graph.abortPriority_of_advances (recordStatus_advances c ..))
      · exact .refl _

theorem nodeFenced_raises (e : Engine ε) (g : Graph) (fence : FenceCall) :
    g.Raises (e.nodeFenced c g fence).1 :=
  .inl (abortPriority_finishAction ..)

theorem fencingResult_raises (e : Engine ε) (g : Graph) (call : Nat)
    (outcome : Except String Unit) : g.Raises (e.fencingResult c g call outcome).2.1 := by
  simp only [fencingResult]
  split
  · exact .refl g
  · split
    · exact .refl g
    · split
      · exact nodeFenced_raises ..
      · exact (failExecuted_raises g _ _).trans (.inl (abortPriority_finishAction ..))

theorem completeFencing_raises (e : Engine ε) (g : Graph) (calls : List (Nat × FenceCall)) :
    g.Raises (e.completeFencing c g calls).1 := by
  induction calls generalizing e g with
  | nil => exact .refl g
  | cons head rest ih => exact (nodeFenced_raises c _ g head.2).trans (ih _ _)

end Engine

/-- The priority that a turn asks for if it is an abort. -/
def Turn.asked? : Turn → Option Int
  | move (.abort priority _ _) => some priority
  | _ => none

/-- In a run of passes with one dispatcher the level stays or rises to infinity. -/
theorem Graph.run_raises {σ : Type} {d : Dispatcher σ} (hsteady : d.Steady) (hd : d.Raises)
    (g : Graph) (st : σ) : g.Raises (g.run d st).2.1 :=
  Graph.run_induction hsteady (P := fun x => g.Raises x.graph)
    (fun _ _ hstep hx => hx.trans (hstep.raises hd)) g st (.refl g)

namespace Turn

variable {ε : Type} (c : Cluster ε)

/-- **A turn raises the level to the priority that it asks for**, or to infinity, or not at all. -/
theorem level_make (t : Turn) (s : Graph × Engine ε) :
    (t.asked? = none ∧ s.1.Raises (t.make c s).1) ∨ ∃ priority, t.asked? = some priority ∧
      (t.make c s).1.abortPriority = max s.1.abortPriority priority := by
  cases t with
  | confirmed id =>
    refine .inl ⟨rfl, .inl ?_⟩
    have hrelease := Graph.abortPriority_of_advances (Engine.release_advances s.2 s.1 id)
    exact (Graph.abortPriority_settle ..).trans hrelease
  | dryPass st =>
    exact .inl ⟨rfl,
      Graph.run_raises Simulator.dispatcher_steady Simulator.dispatcher_raises s.1 st⟩
  | move m =>
    cases m with
    | pass =>
      exact .inl ⟨rfl, Graph.run_raises (Engine.dispatcher_steady c) (Engine.dispatcher_raises c)
        s.1 s.2⟩
    | result r => exact .inl ⟨rfl, Engine.processResult_raises s.2 s.1 r⟩
    | timeout id => exact .inl ⟨rfl, Engine.actionTimedOut_raises c s.2 s.1 id⟩
    | fencing call outcome => exact .inl ⟨rfl, Engine.fencingResult_raises c s.2 s.1 call outcome⟩
    | nodeSafe target =>
      refine .inl ⟨rfl, ?_⟩
      simp only [make, Move.make, Engine.confirmNodeSafe]
      split
      · exact .refl s.1
      · exact Engine.completeFencing_raises c _ s.1 _
    | abort priority action reason => exact .inr ⟨priority, rfl, Graph.abortPriority_abort ..⟩

/-- No turn of the list asks for more than infinity. -/
def Bounded (turns : List Turn) : Prop :=
  ∀ t ∈ turns, ∀ priority, t.asked? = some priority → priority ≤ infinity

theorem le_level_make {t : Turn} (ht : ∀ priority, t.asked? = some priority → priority ≤ infinity)
    {s : Graph × Engine ε} (hs : s.1.abortPriority ≤ infinity) :
    s.1.abortPriority ≤ (t.make c s).1.abortPriority ∧
      (t.make c s).1.abortPriority ≤ infinity := by
  rcases t.level_make c s with ⟨-, hraises⟩ | ⟨priority, hasked, hmax⟩
  · exact ⟨hraises.le hs, hraises.bounded hs⟩
  · have hpriority := ht priority hasked
    omega

/-- **The abort level is the highest priority that was asked for**: it never falls, it is no lower
than what any turn asked for, and it is what it was before, or infinity, or what a turn asked
for. -/
theorem level_makeAll {turns : List Turn} (hturns : Bounded turns) {s : Graph × Engine ε}
    (hs : s.1.abortPriority ≤ infinity) :
    s.1.abortPriority ≤ (makeAll c turns s).1.abortPriority ∧
      (makeAll c turns s).1.abortPriority ≤ infinity ∧
      (∀ t ∈ turns, ∀ priority, t.asked? = some priority →
        priority ≤ (makeAll c turns s).1.abortPriority) ∧
      ((makeAll c turns s).1.abortPriority = s.1.abortPriority ∨
        (makeAll c turns s).1.abortPriority = infinity ∨
        ∃ t ∈ turns, t.asked? = some (makeAll c turns s).1.abortPriority) := by
  induction turns generalizing s with
  | nil => exact ⟨Int.le_refl _, hs, by simp, .inl rfl⟩
  | cons t turns ih =>
    have hfirst := le_level_make c (hturns t (List.mem_cons_self ..)) hs
    obtain ⟨hle, hbounded, hasked, hvalue⟩ :=
      ih (fun u hu => hturns u (List.mem_cons_of_mem _ hu)) hfirst.2
    have hmake : makeAll c (t :: turns) s = makeAll c turns (t.make c s) := rfl
    rw [hmake]
    refine ⟨Int.le_trans hfirst.1 hle, hbounded, fun u hu priority hpriority => ?_, ?_⟩
    · rcases List.mem_cons.mp hu with rfl | hu
      · rcases u.level_make c s with ⟨hnone, -⟩ | ⟨_, hsome, hmax⟩
        · rw [hnone] at hpriority
          cases hpriority
        · obtain rfl := Option.some.inj (hsome.symm.trans hpriority)
          omega
      · exact hasked u hu priority hpriority
    · rcases hvalue with hsame | hinfinity | ⟨u, hu, heq⟩
      · rw [hsame]
        rcases t.level_make c s with ⟨-, hraises⟩ | ⟨priority, hsome, hmax⟩
        · exact hraises.imp_right .inl
        · rcases Int.le_total s.1.abortPriority priority with hle' | hle'
          · refine .inr (.inr ⟨t, List.mem_cons_self .., ?_⟩)
            rw [hsome, hmax, Int.max_eq_right hle']
          · exact .inl (hmax.trans (Int.max_eq_left hle'))
      · exact .inr (.inl hinfinity)
      · exact .inr (.inr ⟨u, List.mem_cons_of_mem _ hu, heq⟩)

end Turn
end ClusterTransition
