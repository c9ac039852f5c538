import ClusterTransition.Proofs.Engine.Levels
import ClusterTransition.Proofs.Pass.Counting

/-! # Aborts veto for good

A synapse that owns more than markers and is below the abort level is never started again.  A pass
asks for the level before it fires a synapse, and the level only rises; so whatever raised it, and
wherever in a pass that was, the synapse stays as it is or is skipped (`Graph.Vetoed`).  Conversely
only what is below the level is ever skipped (`Graph.Ruled`).

`veto_lasts` says both of every run, from every instant of it on.
-/

namespace ClusterTransition

open ClusterTransition.Graph (Edits Reported)

/-! ## What the level says of the synapses -/

namespace Graph

/-- The abort level is at most infinity, only synapses below it were skipped, and it is infinity
once the firing of a synapse has failed. -/
structure Ruled (g : Graph) : Prop where
  bounded : g.abortPriority ≤ infinity
  skipped : ∀ s ∈ g.synapses, s.status = .skipped → s.priority < g.abortPriority
  failed : ∀ s ∈ g.synapses, s.status = .failed → g.abortPriority = infinity

/-- The synapse at `pos`, which owns the actions with the ids `ids`, owns more than markers, is
below `level` and has not fired; and the abort level is at least `level`. -/
structure Vetoed (level : Int) (pos : Nat) (ids : List ActionId) (g : Graph) : Prop where
  raised : level ≤ g.abortPriority
  synapse : ∃ s, g.synapses[pos]? = some s ∧ s.priority < level ∧ s.status.isExecuted = false ∧
    g.idsAt s.actions = ids ∧ ∃ k ∈ s.actions, ∃ a, g.actions[k]? = some a ∧ a.isPseudo = false

variable {g g' : Graph} {id : ActionId} {level : Int} {pos : Nat} {ids : List ActionId}

/-- Completions are spread to the synapses, and the level does not fall. -/
theorem Ruled.absorbs (h : g.Ruled) (hle : g.abortPriority ≤ g'.abortPriority)
    (hbounded : g'.abortPriority ≤ infinity)
    (habsorbs : ∀ (p : Nat) (s' : Synapse), g'.synapses[p]? = some s' →
      ∃ s, g.synapses[p]? = some s ∧ s'.plan = s.plan ∧ s.status.Absorbs s'.status) :
    g'.Ruled := by
  refine ⟨hbounded, fun s' hs' hskipped => ?_, fun s' hs' hfailed => ?_⟩
  · obtain ⟨p, hp⟩ := List.getElem?_of_mem hs'
    obtain ⟨s, hs, hplan, hstatus⟩ := habsorbs p s' hp
    rw [hskipped] at hstatus
    rcases hstatus with hsame | ⟨-, h⟩ | ⟨-, h⟩
    · have hbelow := h.skipped s (List.mem_of_getElem? hs) hsame.symm
      have hpriority := Synapse.priority_eq_of_plan hplan
      omega
    · cases h
    · cases h
  · obtain ⟨p, hp⟩ := List.getElem?_of_mem hs'
    obtain ⟨s, hs, -, hstatus⟩ := habsorbs p s' hp
    have hlevel := h.failed s (List.mem_of_getElem? hs) (hstatus.failed_iff.mp hfailed)
    omega

/-- A synapse gets a status: skipped only below the level, failed only at the level of infinity. -/
theorem Ruled.setSynapseStatus (h : g.Ruled) {status : SynapseStatus}
    (hskipped : status = .skipped → ∀ s, g.synapses[pos]? = some s → s.priority < g.abortPriority)
    (hfailed : status ≠ .failed) : (g.setSynapseStatus pos status).Ruled := by
  refine ⟨h.bounded, fun s' hs' hstatus => ?_, fun s' hs' hstatus => ?_⟩
  all_goals
    obtain ⟨p, hp⟩ := List.getElem?_of_mem hs'
    obtain ⟨s, hs, ⟨rfl, rfl⟩ | ⟨-, rfl⟩⟩ := setSynapseStatus_cases hp
  · exact hskipped hstatus s hs
  · exact h.skipped s' (List.mem_of_getElem? hs) hstatus
  · exact absurd hstatus hfailed
  · exact h.failed s' (List.mem_of_getElem? hs) hstatus

theorem Ruled.failFiring (h : g.Ruled) (pos slot : Nat) : (g.failFiring pos slot).Ruled := by
  refine ⟨Int.le_refl _, fun s' hs' hstatus => ?_, fun _ _ _ => rfl⟩
  obtain ⟨p, hp⟩ := List.getElem?_of_mem hs'
  obtain ⟨s, hs, ⟨rfl, rfl⟩ | ⟨-, rfl⟩⟩ := setSynapseStatus_cases hp
  · cases hstatus
  · exact Int.lt_of_lt_of_le (h.skipped s' (List.mem_of_getElem? hs) hstatus) h.bounded

/-- The veto lasts as long as the synapse does not fire. -/
theorem Vetoed.of_idle (h : g.Vetoed level pos ids) (hplan : g'.plan = g.plan)
    (hle : g.abortPriority ≤ g'.abortPriority)
    (hidle : ∀ s s', g.synapses[pos]? = some s → g'.synapses[pos]? = some s' →
      s.status.isExecuted = false → s'.status.isExecuted = false) : g'.Vetoed level pos ids := by
  obtain ⟨s, hs, hpriority, hstatus, hids, k, hk, a, ha, hkind⟩ := h.synapse
  obtain ⟨s', hs', hsame⟩ := synapse_of_plan hplan.symm hs
  obtain ⟨a', ha', hsame'⟩ := action_of_plan hplan.symm ha
  have hactions := Synapse.actions_eq_of_plan hsame
  refine ⟨Int.le_trans h.raised hle, s', hs', ?_, hidle s s' hs hs' hstatus, ?_, k, hactions ▸ hk,
    a', ha', ?_⟩
  · rwa [← Synapse.priority_eq_of_plan hsame]
  · rw [← hactions, idsAt_of_plan hplan, hids]
  · have hpseudo : a.plan.isPseudo = a'.plan.isPseudo := by rw [hsame']
    exact hpseudo.symm.trans hkind

/-! ### Synapses that have not fired -/

variable {s s' : Synapse}

/-- Edits do not fire a synapse. -/
theorem Edits.idle {id : ActionId} (hedits : Edits id g g') (hs : g.synapses[pos]? = some s)
    (hs' : g'.synapses[pos]? = some s') (hidle : s.status.isExecuted = false) :
    s'.status.isExecuted = false := by
  obtain ⟨t, ht, -, hsame⟩ := hedits.isExecuted hs'
  obtain rfl : s = t := Option.some.inj (hs.symm.trans ht)
  rw [hsame, hidle]

/-- What is written to a synapse leaves one idle that it does not fire. -/
theorem idle_setSynapseStatus {p : Nat} {status : SynapseStatus}
    (hstatus : status.isExecuted = false ∨ pos ≠ p) (hs : g.synapses[pos]? = some s)
    (hs' : (g.setSynapseStatus p status).synapses[pos]? = some s')
    (hidle : s.status.isExecuted = false) : s'.status.isExecuted = false := by
  obtain ⟨t, ht, ⟨rfl, rfl⟩ | ⟨-, rfl⟩⟩ := setSynapseStatus_cases hs'
  · exact hstatus.resolve_right fun hne => hne rfl
  · obtain rfl : s = s' := Option.some.inj (hs.symm.trans ht)
    exact hidle

theorem idle_failFiring {p : Nat} (slot : Nat) (hne : pos ≠ p) (hs : g.synapses[pos]? = some s)
    (hs' : (g.failFiring p slot).synapses[pos]? = some s') (hidle : s.status.isExecuted = false) :
    s'.status.isExecuted = false := by
  rw [← synapses_setStatusAt g slot (.failed .initiation)] at hs
  exact idle_setSynapseStatus (.inr hne) hs hs' hidle

end Graph

/-! ## A pass -/

section Pass

variable {σ : Type} {d : Dispatcher σ} {level : Int} {pos : Nat} {ids : List ActionId}

/-- **Every step of a pass keeps to the level.** -/
theorem PassStep.ruled (hd : d.Handles) (hraises : d.Raises) {x y : PassState σ}
    (hx : x.graph.Ruled) (h : PassStep d x y) : y.graph.Ruled := by
  have hle := (h.raises hraises).le hx.bounded
  have hbounded := (h.raises hraises).bounded hx.bounded
  have hmark {g g' : Graph} {slot : Nat} {id : ActionId} (hx : g.Ruled)
      (hedits : Edits id (g.setStatusAt slot .executed) g')
      (hle : g.abortPriority ≤ g'.abortPriority) (hbounded : g'.abortPriority ≤ infinity) :
      g'.Ruled := by
    have hset : (g.setStatusAt slot .executed).Ruled := ⟨hx.bounded, hx.skipped, hx.failed⟩
    exact hset.absorbs hle hbounded fun p s' hs' => hedits.absorbs hs'
  cases h with
  | count | fired | conclude => exact ⟨hx.bounded, hx.skipped, hx.failed⟩
  | ready => exact hx.setSynapseStatus (by simp) (by simp)
  | skip st hs hready hslot ha hpseudo hlevel =>
    refine hx.setSynapseStatus (fun _ t ht => ?_) (by simp)
    obtain rfl := Option.some.inj (hs.symm.trans ht)
    exact hlevel
  | @fire g st pos s =>
    have hfires : (g.setSynapseStatus pos .executing).Ruled :=
      hx.setSynapseStatus (by simp) (by simp)
    exact ⟨hfires.bounded, hfires.skipped, hfires.failed⟩
  | dispatch _ _ _ _ _ hgoes => exact hmark hx (hd.edits hgoes) hle hbounded
  | @refuse g g' st st' pos slot slots a channel _ _ _ hstays =>
    have hstep := hraises channel a.id (g.setStatusAt slot .executed) st
    rw [hstays] at hstep
    have hrefused := hmark hx (hd.edits hstays) (hstep.le hx.bounded) (hstep.bounded hx.bounded)
    exact hrefused.failFiring pos slot
  | @unroutable g st pos slot =>
    have hset : (g.setStatusAt slot .executed).Ruled := ⟨hx.bounded, hx.skipped, hx.failed⟩
    exact hset.failFiring pos slot
  | again => exact hx.failFiring _ _

/-- **A step of a pass does not fire what is vetoed.** -/
theorem PassStep.vetoed (hd : d.Handles) (hraises : d.Raises) {x y : PassState σ}
    (hx : x.Orderly) (hruled : x.graph.Ruled) (hv : x.graph.Vetoed level pos ids)
    (h : PassStep d x y) : y.graph.Vetoed level pos ids := by
  have hplan := h.plan hd
  have hle := (h.raises hraises).le hruled.bounded
  -- the synapse that is being fired is another
  have hother {g : Graph} {p : Nat} {s t : Synapse} (hs : g.synapses[p]? = some s)
      (hfired : s.status.isExecuted) (ht : g.synapses[pos]? = some t)
      (hidle : t.status.isExecuted = false) : pos ≠ p := by
    rintro rfl
    obtain rfl : s = t := Option.some.inj (hs.symm.trans ht)
    rw [hfired] at hidle
    cases hidle
  cases h with
  | count | fired | conclude =>
    refine hv.of_idle hplan hle fun s s' hs hs' hidle => ?_
    obtain rfl : s = s' := Option.some.inj (hs.symm.trans hs')
    exact hidle
  | ready | skip => exact hv.of_idle hplan hle fun s s' => Graph.idle_setSynapseStatus (.inl rfl)
  | @fire g st p s hs hready hinputs hallowed =>
    -- its level was asked for
    obtain ⟨t, ht, hbelow, -, -, k, hk, a, ha, hkind⟩ := hv.synapse
    refine hv.of_idle hplan hle fun u u' => Graph.idle_setSynapseStatus (.inr ?_)
    rintro rfl
    obtain rfl : s = t := Option.some.inj (hs.symm.trans ht)
    have hlevel := (hallowed k hk a ha hkind).1
    have hveto := hv.raised
    dsimp only at hveto
    omega
  | dispatch _ _ _ _ _ hgoes =>
    exact hv.of_idle hplan hle fun s s' hs => (hd.edits hgoes).idle hs
  | @refuse g g' st st' p slot slots a channel _ _ _ hstays =>
    refine hv.of_idle hplan hle fun s s' hs hs' hidle => ?_
    obtain ⟨-, -, f, hf, hfired, -⟩ := hx.firing p _ rfl
    have hplan' : g'.plan = g.plan := (hd.edits hstays).plan.trans (Graph.plan_setStatusAt ..)
    obtain ⟨t, ht, -⟩ := Graph.synapse_of_plan hplan'.symm hs
    exact Graph.idle_failFiring slot (hother hf hfired hs hidle) ht hs'
      ((hd.edits hstays).idle hs ht hidle)
  | @unroutable _ _ p slot | @again _ _ p slot =>
    refine hv.of_idle hplan hle fun s s' hs hs' hidle => ?_
    obtain ⟨-, -, f, hf, hfired, -⟩ := hx.firing p _ rfl
    exact Graph.idle_failFiring slot (hother hf hfired hs hidle) hs hs' hidle

/-- **A step of a pass does not hand over what is vetoed.** -/
theorem PassStep.uncalled {x y : PassState (σ × List DispatchCall)} (hx : x.Orderly)
    (hv : x.graph.Vetoed level pos ids) (h : PassStep d.recording x y) :
    ∃ new, y.state.2 = x.state.2 ++ new ∧ ∀ call ∈ new, call.id ∉ ids := by
  obtain ⟨t, ht, -, hidle, rfl, -⟩ := hv.synapse
  have hcall {g : Graph} {st : σ × List DispatchCall} {p slot : Nat} {slots : List Nat} {a : Action}
      (hx : PassState.Orderly ⟨.firing p (slot :: slots), g, st⟩) (ha : g.actions[slot]? = some a)
      (ht : g.synapses[pos]? = some t) : a.id ∉ g.idsAt t.actions := by
    obtain ⟨-, -, s, hs, hfired, hsub⟩ := hx.firing p _ rfl
    refine hx.wellFormed.notMem_idsAt hs ht ?_ (hsub (List.mem_cons_self ..)) ha
    rintro rfl
    obtain rfl : s = t := Option.some.inj (hs.symm.trans ht)
    rw [hfired] at hidle
    cases hidle
  cases h with
  | count | ready | skip | fire | unroutable | again | fired | conclude => exact ⟨[], by simp⟩
  | dispatch p slots ha hpending hchannel hgoes =>
    simp only [Dispatcher.recording, Prod.mk.injEq] at hgoes
    obtain ⟨-, -, rfl⟩ := hgoes
    exact ⟨_, rfl, by simpa using hcall hx ha ht⟩
  | refuse p slots ha hpending hchannel hstays =>
    simp only [Dispatcher.recording, Prod.mk.injEq] at hstays
    obtain ⟨-, -, rfl⟩ := hstays
    exact ⟨_, rfl, by simpa using hcall hx ha ht⟩

end Pass

/-! ## Turns -/

/-- What a run of turns keeps: the graph is well formed, no action runs before its owner has fired,
and the statuses of the synapses agree with the abort level. -/
structure Graph.Governed (g : Graph) : Prop where
  wellFormed : g.WellFormed
  untouched : g.Untouched
  ruled : g.Ruled

/-- The graph `m` occurs in the pass, which hands over the calls `rest` after that. -/
def Graph.Occurs {σ : Type} (d : Dispatcher σ) (g : Graph) (st : σ) (m : Graph)
    (rest : List DispatchCall) : Prop :=
  ∃ x : PassState (σ × List DispatchCall), x.graph = m ∧
    PassSteps d.recording ⟨.visiting, g, (st, [])⟩ x ∧
    PassSteps d.recording x
      ⟨.visiting, (g.run d.recording (st, [])).2.1, (g.run d.recording (st, [])).2.2⟩ ∧
    g.calls d st = x.state.2 ++ rest

section Pass

variable {σ : Type} {d : Dispatcher σ} {level : Int} {pos : Nat} {ids : List ActionId}

/-- Steps of a pass keep the level up, and what is vetoed they neither fire nor hand over. -/
theorem PassSteps.governed (hd : d.Handles) (hraises : d.Raises)
    {x y : PassState (σ × List DispatchCall)} (hx : x.Orderly) (hruled : x.graph.Ruled)
    (h : PassSteps d.recording x y) :
    y.Orderly ∧ y.graph.Ruled ∧ x.graph.abortPriority ≤ y.graph.abortPriority ∧
      ∀ level pos ids, x.graph.Vetoed level pos ids → y.graph.Vetoed level pos ids ∧
        ∃ new, y.state.2 = x.state.2 ++ new ∧ ∀ call ∈ new, call.id ∉ ids := by
  induction h with
  | refl => exact ⟨hx, hruled, Int.le_refl _, fun _ _ _ hv => ⟨hv, [], by simp⟩⟩
  | tail _ step ih =>
    obtain ⟨hx', hruled', hle, hkeep⟩ := ih
    refine ⟨hx'.step hd.recording step, step.ruled hd.recording hraises.recording hruled', ?_, ?_⟩
    · exact Int.le_trans hle ((step.raises hraises.recording).le hruled'.bounded)
    · intro level pos ids hv
      obtain ⟨hv', new, hnew, hcalls⟩ := hkeep level pos ids hv
      obtain ⟨more, hmore, hcalls'⟩ := step.uncalled hx' hv'
      refine ⟨step.vetoed hd.recording hraises.recording hx' hruled' hv', new ++ more, ?_, ?_⟩
      · rw [hmore, hnew, List.append_assoc]
      · intro call hmem
        rcases List.mem_append.mp hmem with hmem | hmem
        · exact hcalls call hmem
        · exact hcalls' call hmem

/-- From each instant of a pass to its end. -/
theorem Graph.Occurs.governed (hd : d.Handles) (hraises : d.Raises) {g m : Graph}
    {st : σ} {rest : List DispatchCall} (hg : g.Governed) (h : g.Occurs d st m rest) :
    m.Governed ∧ g.abortPriority ≤ m.abortPriority ∧
      m.abortPriority ≤ (g.run d st).2.1.abortPriority ∧
      ∀ level pos ids, m.Vetoed level pos ids →
        (g.run d st).2.1.Vetoed level pos ids ∧ ∀ call ∈ rest, call.id ∉ ids := by
  obtain ⟨x, rfl, hbefore, hafter, hrest⟩ := h
  have hstart : PassState.Orderly ⟨.visiting, g, (st, ([] : List DispatchCall))⟩ :=
    ⟨hg.wellFormed, hg.untouched, by simp⟩
  obtain ⟨hx, hruled, hle, -⟩ := hbefore.governed hd hraises hstart hg.ruled
  obtain ⟨-, -, hle', hkeep⟩ := hafter.governed hd hraises hx hruled
  have hend : (g.run d st).2.1 = (g.run d.recording (st, [])).2.1 := by
    rw [Graph.run_recording d g (st, [])]
    rfl
  rw [hend]
  refine ⟨⟨hx.wellFormed, hx.untouched, hruled⟩, hle, hle', fun level pos ids hv => ?_⟩
  obtain ⟨hv', new, hnew, hcalls⟩ := hkeep level pos ids hv
  have hall : g.calls d st = x.state.2 ++ new := hnew
  rw [List.append_cancel_left (hrest.symm.trans hall)]
  exact ⟨hv', hcalls⟩

/-- The graph with which a pass begins occurs in it, and the whole pass is still to come. -/
theorem Graph.occurs_start (hsteady : d.Steady) (g : Graph) (st : σ) :
    g.Occurs d st g (g.calls d st) :=
  ⟨_, rfl, .refl, Graph.run_steps hsteady.recording g (st, []), rfl⟩

/-- The graph that a pass leaves occurs in it, and nothing is still to come. -/
theorem Graph.occurs_end (hsteady : d.Steady) (g : Graph) (st : σ) :
    g.Occurs d st (g.run d.recording (st, [])).2.1 [] :=
  ⟨_, rfl, Graph.run_steps hsteady.recording g (st, []), .refl, (List.append_nil _).symm⟩

end Pass

namespace Turn

variable {ε : Type} (c : Cluster ε)

/-- The dispatch calls of several turns, in order. -/
def allCalls : List Turn → Graph × Engine ε → List DispatchCall
  | [], _ => []
  | t :: turns, s => t.calls c s ++ allCalls turns (t.make c s)

/-- The graph `m` occurs in the run of the turns, which hand over the calls `rest` after that. -/
inductive Instant : List Turn → Graph × Engine ε → Graph → List DispatchCall → Prop where
  /-- Between two turns. -/
  | between (turns : List Turn) (s : Graph × Engine ε) :
      Instant turns s s.1 (allCalls c turns s)
  /-- In the middle of a pass. -/
  | pass {turns : List Turn} {s : Graph × Engine ε} {m : Graph} {rest : List DispatchCall}
      (h : s.1.Occurs (Engine.dispatcher c) s.2 m rest) :
      Instant (.move .pass :: turns) s m (rest ++ allCalls c turns (make c (.move .pass) s))
  /-- In the middle of a pass of a dry run. -/
  | dryPass {st : Simulator} {turns : List Turn} {s : Graph × Engine ε} {m : Graph}
      {rest : List DispatchCall} (h : s.1.Occurs Simulator.dispatcher st m rest) :
      Instant (.dryPass st :: turns) s m (rest ++ allCalls c turns (make c (.dryPass st) s))
  | later {t : Turn} {turns : List Turn} {s : Graph × Engine ε} {m : Graph}
      {rest : List DispatchCall} (h : Instant turns (t.make c s) m rest) :
      Instant (t :: turns) s m rest

/-- A turn is a pass, or it does no more than edits: it hands over nothing and comes upon nothing. -/
theorem pass_or_reported (t : Turn) (s : Graph × Engine ε) :
    (∃ (σ : Type) (d : Dispatcher σ) (st : σ), d.Steady ∧ d.Handles ∧ d.Raises ∧
      (t.make c s).1 = (s.1.run d st).2.1 ∧ t.calls c s = s.1.calls d st ∧
      t.encounters c s = s.1.encountersOf d st) ∨
    Reported s.1 (t.make c s).1 ∧ t.calls c s = [] ∧ t.encounters c s = [] := by
  cases t with
  | confirmed id =>
    exact .inr ⟨.single ⟨id, Engine.actionConfirmed_edits s.2 s.1 id⟩, rfl, rfl⟩
  | dryPass st =>
    exact .inl ⟨_, _, st, Simulator.dispatcher_steady, Simulator.dispatcher_handles,
      Simulator.dispatcher_raises, rfl, rfl, rfl⟩
  | move m =>
    by_cases hm : m = .pass
    · subst hm
      exact .inl ⟨_, _, s.2, Engine.dispatcher_steady c, Engine.dispatcher_handles c,
        Engine.dispatcher_raises c, rfl, rfl, rfl⟩
    · refine .inr ⟨m.reported c hm s, ?_⟩
      cases m with
      | pass => exact absurd rfl hm
      | result | timeout | fencing | nodeSafe | abort => exact ⟨rfl, rfl⟩

end Turn

/-- Reports let the synapses absorb completions, and no more. -/
theorem Graph.Reported.absorbs {g g' : Graph} (h : Reported g g') {p : Nat} {s' : Synapse}
    (hs' : g'.synapses[p]? = some s') :
    ∃ s, g.synapses[p]? = some s ∧ s'.plan = s.plan ∧ s.status.Absorbs s'.status := by
  induction h generalizing s' with
  | refl => exact ⟨s', hs', rfl, .refl _⟩
  | tail _ step ih =>
    obtain ⟨id, hedits⟩ := step
    obtain ⟨s₁, hs₁, hplan₁, hstatus₁⟩ := Graph.Edits.absorbs hedits hs'
    obtain ⟨s, hs, hplan, hstatus⟩ := ih hs₁
    exact ⟨s, hs, hplan₁.trans hplan, hstatus.trans hstatus₁⟩

/-- A synapse that has not fired does not fire by absorbing completions. -/
theorem SynapseStatus.Absorbs.isExecuted {s t : SynapseStatus} (h : s.Absorbs t) :
    t.isExecuted = s.isExecuted := by
  rcases h with rfl | ⟨rfl, rfl⟩ | ⟨rfl, rfl⟩ <;> rfl

namespace Graph.Governed

variable {ε : Type} {c : Cluster ε} {s : Graph × Engine ε}

/-- **Every turn keeps to the level**, and what is vetoed it neither fires nor hands over. -/
theorem turn {t : Turn} (ht : ∀ priority, t.asked? = some priority → priority ≤ infinity)
    (h : s.1.Governed) :
    (t.make c s).1.Governed ∧ ∀ level pos ids, s.1.Vetoed level pos ids →
      (t.make c s).1.Vetoed level pos ids ∧ ∀ call ∈ t.calls c s, call.id ∉ ids := by
  obtain ⟨hle, hbounded⟩ := Turn.le_level_make c ht h.ruled.bounded
  rcases t.pass_or_reported c s with ⟨σ, d, st, hsteady, hd, hraises, hmake, hcalls, -⟩ |
    ⟨hreported, hcalls, -⟩
  · rw [hmake, hcalls]
    have hend : (s.1.run d st).2.1 = (s.1.run d.recording (st, [])).2.1 := by
      rw [Graph.run_recording d s.1 (st, [])]
      rfl
    have hlast := (Graph.occurs_end hsteady s.1 st).governed hd hraises h
    rw [← hend] at hlast
    exact ⟨hlast.1, ((Graph.occurs_start hsteady s.1 st).governed hd hraises h).2.2.2⟩
  · rw [hcalls]
    refine ⟨⟨h.wellFormed.of_plan hreported.plan, h.untouched.reported hreported,
      h.ruled.absorbs hle hbounded fun p s' hs' => hreported.absorbs hs'⟩,
      fun level pos ids hv => ?_⟩
    refine ⟨hv.of_idle hreported.plan hle fun t t' ht ht' hidle => ?_, by simp⟩
    obtain ⟨u, hu, -, hstatus⟩ := hreported.absorbs ht'
    obtain rfl : t = u := Option.some.inj (ht.symm.trans hu)
    rw [hstatus.isExecuted, hidle]

theorem turns {turns : List Turn} (hturns : Turn.Bounded turns) (h : s.1.Governed) :
    (Turn.makeAll c turns s).1.Governed ∧ ∀ level pos ids, s.1.Vetoed level pos ids →
      ∀ call ∈ Turn.allCalls c turns s, call.id ∉ ids := by
  induction turns generalizing s with
  | nil => exact ⟨h, by simp [Turn.allCalls]⟩
  | cons t turns ih =>
    obtain ⟨hgoverned, hkeep⟩ := h.turn (c := c) (hturns t (List.mem_cons_self ..))
    obtain ⟨hend, hrest⟩ := ih (fun u hu => hturns u (List.mem_cons_of_mem _ hu)) hgoverned
    refine ⟨hend, fun level pos ids hv call hcall => ?_⟩
    obtain ⟨hv', hcalls⟩ := hkeep level pos ids hv
    rcases List.mem_append.mp hcall with hcall | hcall
    · exact hcalls call hcall
    · exact hrest level pos ids hv' call hcall

/-- **From every instant of a run on**: the level does not fall, and what is vetoed is not handed
over. -/
theorem instant {turns : List Turn} (hturns : Turn.Bounded turns) (h : s.1.Governed) {m : Graph}
    {rest : List DispatchCall} (hm : Turn.Instant c turns s m rest) :
    m.Governed ∧ s.1.abortPriority ≤ m.abortPriority ∧
      m.abortPriority ≤ (Turn.makeAll c turns s).1.abortPriority ∧
      ∀ level pos ids, m.Vetoed level pos ids → ∀ call ∈ rest, call.id ∉ ids := by
  have hpass {σ : Type} {d : Dispatcher σ} {st : σ} {t : Turn} {turns : List Turn}
      {s : Graph × Engine ε} {m : Graph} {rest : List DispatchCall}
      (hturns : Turn.Bounded (t :: turns)) (h : s.1.Governed) (hd : d.Handles) (hraises : d.Raises)
      (hmake : (t.make c s).1 = (s.1.run d st).2.1)
      (hoccurs : s.1.Occurs d st m rest) :
      m.Governed ∧ s.1.abortPriority ≤ m.abortPriority ∧
        m.abortPriority ≤ (Turn.makeAll c (t :: turns) s).1.abortPriority ∧
        ∀ level pos ids, m.Vetoed level pos ids →
          ∀ call ∈ rest ++ Turn.allCalls c turns (t.make c s), call.id ∉ ids := by
    obtain ⟨hm, hle, hle', hkeep⟩ := hoccurs.governed hd hraises h
    rw [← hmake] at hle' hkeep
    have hlater : Turn.Bounded turns := fun u hu => hturns u (List.mem_cons_of_mem _ hu)
    have hafter := (h.turn (c := c) (hturns t (List.mem_cons_self ..))).1
    have hlevel := (Turn.level_makeAll c hlater hafter.ruled.bounded).1
    refine ⟨hm, hle, Int.le_trans hle' hlevel, fun level pos ids hv call hcall => ?_⟩
    obtain ⟨hv', hcalls⟩ := hkeep level pos ids hv
    rcases List.mem_append.mp hcall with hcall | hcall
    · exact hcalls call hcall
    · exact (hafter.turns hlater).2 level pos ids hv' call hcall
  induction hm with
  | between turns s =>
    exact ⟨h, Int.le_refl _, (Turn.level_makeAll c hturns h.ruled.bounded).1, (h.turns hturns).2⟩
  | pass hoccurs =>
    exact hpass hturns h (Engine.dispatcher_handles c) (Engine.dispatcher_raises c) rfl hoccurs
  | dryPass hoccurs =>
    exact hpass hturns h Simulator.dispatcher_handles Simulator.dispatcher_raises rfl hoccurs
  | @later t turns s m rest _ ih =>
    have ht := hturns t (List.mem_cons_self ..)
    obtain ⟨hm, hle, hle', hkeep⟩ := ih (fun u hu => hturns u (List.mem_cons_of_mem _ hu))
      (h.turn (c := c) ht).1
    exact ⟨hm, Int.le_trans (Turn.le_level_make c ht h.ruled.bounded).1 hle, hle', hkeep⟩

end Graph.Governed

theorem Graph.Fresh.governed {g : Graph} (hw : g.WellFormed) (h : g.Fresh) : g.Governed where
  wellFormed := hw
  untouched := h.untouched
  ruled := by
    refine ⟨by rw [h.level]; decide, fun s hs hstatus => ?_, fun s hs hstatus => ?_⟩ <;>
    · rw [h.synapses s hs] at hstatus
      cases hstatus

/-- **A veto lasts, and nothing else is skipped.**  Take a run of turns on a graph of the loader in
which no abort asks for more than infinity: passes with an engine or of dry runs, reports, aborts.
At any time the abort level is the highest priority so far: zero at the start, no lower than what
any abort asked for, and only ever one of these or infinity.  At every instant after that, also in
the middle of a pass, the level is between what it was and what it is at the end; it is infinity
once the firing of a synapse has failed; and each synapse that was skipped is below it.  From that
instant on, no action of a synapse that owns more than markers, is below the level and has not yet
fired is handed over. -/
theorem veto_lasts {d : GraphDocument} {g : Graph} (h : d.toGraph = .ok g) {ε : Type}
    (c : Cluster ε) (e : Engine ε) {before turns : List Turn}
    (hbounded : Turn.Bounded (before ++ turns)) {s s' : Graph × Engine ε}
    (hs : Turn.makeAll c before (g, e) = s) (hs' : Turn.makeAll c turns s = s') :
    (0 ≤ s.1.abortPriority ∧
      (∀ t ∈ before, ∀ priority, t.asked? = some priority → priority ≤ s.1.abortPriority) ∧
      (s.1.abortPriority = 0 ∨ s.1.abortPriority = infinity ∨
        ∃ t ∈ before, t.asked? = some s.1.abortPriority)) ∧
    ∀ m rest, Turn.Instant c turns s m rest →
      (s.1.abortPriority ≤ m.abortPriority ∧ m.abortPriority ≤ s'.1.abortPriority) ∧
      (∀ t ∈ m.synapses, t.status = .failed → m.abortPriority = infinity) ∧
      (∀ t ∈ m.synapses, t.status = .skipped → t.priority < m.abortPriority) ∧
      ∀ t ∈ m.synapses, (∃ k ∈ t.actions, ∃ a, m.actions[k]? = some a ∧ a.isPseudo = false) →
        t.priority < m.abortPriority → t.status.isExecuted = false →
        ∀ call ∈ rest, call.id ∉ m.idsAt t.actions := by
  have hloaded := GraphDocument.loadedAs_of_toGraph h
  have hstart : g.Governed := hloaded.fresh.governed hloaded.wellFormed
  have hbefore : Turn.Bounded before := fun t ht => hbounded t (List.mem_append_left _ ht)
  have hturns : Turn.Bounded turns := fun t ht => hbounded t (List.mem_append_right _ ht)
  have hzero := hloaded.fresh.level
  obtain ⟨hle, -, hasked, hvalue⟩ :=
    Turn.level_makeAll c hbefore (s := (g, e)) hstart.ruled.bounded
  have hgoverned := (hstart.turns (c := c) (s := (g, e)) hbefore).1
  rw [hs] at hle hasked hvalue hgoverned
  rw [hzero] at hle hvalue
  refine ⟨⟨hle, hasked, hvalue⟩, fun m rest hm => ?_⟩
  obtain ⟨hmiddle, hfrom, hto, hkeep⟩ := hgoverned.instant hturns hm
  rw [hs'] at hto
  refine ⟨⟨hfrom, hto⟩, hmiddle.ruled.failed, hmiddle.ruled.skipped, ?_⟩
  intro t ht hkind hbelow hidle call hcall
  obtain ⟨pos, hpos⟩ := List.getElem?_of_mem ht
  have hvetoed : m.Vetoed m.abortPriority pos (m.idsAt t.actions) :=
    ⟨Int.le_refl _, t, hpos, hbelow, hidle, rfl, hkind⟩
  exact hkeep _ _ _ hvetoed call hcall

/-- A start, and two starts that wait for it, one of them with the priority of infinity. -/
def GraphDocument.abortedStarts : GraphDocument where
  transitionId := 1
  synapses :=
    [{ id := 0
       actions := [{ id := 1, kind := .resource, task := some "start", target := some "node1" }] },
     { id := 1, priority := infinity
       actions := [{ id := 2, kind := .resource, task := some "start", target := some "node1" }]
       inputs := [1] },
     { id := 2
       actions := [{ id := 3, kind := .resource, task := some "start", target := some "node2" }]
       inputs := [1] }]

/-- A pass, and an abort of all but the most urgent work. -/
def Turn.passAndAbort : List Turn :=
  [.move .pass, .move (.abort infinity .restart "new status")]

/-- The result of the first start, a pass, and a pass of a dry run. -/
def Turn.resultAndPasses : List Turn :=
  [.move (.result
      { transitionKey := "1:1:0:6f1e8a52-7d0c-4c1b-9a3e-2b5d4c3a1f00", status := .done, rc := 0 }),
    .move .pass, .dryPass { options := {} }]

/-- The transition is aborted while the first start runs.  When that is over, the urgent one of the
other starts goes, and the third is skipped. -/
theorem abortedStarts_veto : ∃ g, GraphDocument.abortedStarts.toGraph = .ok g ∧
    let s := Turn.makeAll .willing Turn.passAndAbort
      (g, (Engine.new { node := "node1" } 0).startTransition)
    s.1.abortPriority = infinity ∧
      (Turn.allCalls .willing Turn.resultAndPasses s).map (·.id) = [2] ∧
      (Turn.makeAll .willing Turn.resultAndPasses s).1.synapses.map (·.status) =
        [.confirmed, .executing, .skipped] ∧
      (∀ t ∈ s.1.synapses, t.priority = 0 → t.status.isExecuted = false →
        ∀ call ∈ Turn.allCalls .willing Turn.resultAndPasses s, call.id ∉ s.1.idsAt t.actions) := by
  have hfacts : ∀ g, GraphDocument.abortedStarts.toGraph = .ok g →
      let s := Turn.makeAll .willing Turn.passAndAbort
        (g, (Engine.new { node := "node1" } 0).startTransition)
      (s.1.abortPriority = infinity ∧
        (Turn.allCalls .willing Turn.resultAndPasses s).map (·.id) = [2] ∧
        (Turn.makeAll .willing Turn.resultAndPasses s).1.synapses.map (·.status) =
          [.confirmed, .executing, .skipped]) ∧
      ∀ t ∈ s.1.synapses, ∃ k ∈ t.actions, ∃ a ∈ s.1.actions[k]?, a.isPseudo = false := by
    rintro _ ⟨⟩
    decide +kernel
  obtain ⟨g, hg⟩ : ∃ g, GraphDocument.abortedStarts.toGraph = .ok g := ⟨_, rfl⟩
  obtain ⟨⟨hlevel, hcalls, hstatuses⟩, hkinds⟩ := hfacts g hg
  have hbounded : Turn.Bounded (Turn.passAndAbort ++ Turn.resultAndPasses) := by
    intro t ht priority hasked
    simp only [Turn.passAndAbort, Turn.resultAndPasses, List.cons_append, List.nil_append,
      List.mem_cons, List.not_mem_nil, or_false] at ht
    rcases ht with rfl | rfl | rfl | rfl | rfl
    · cases hasked
    · exact Int.le_of_eq (Option.some.inj hasked).symm
    · cases hasked
    · cases hasked
    · cases hasked
  have hveto := (veto_lasts hg .willing (Engine.new { node := "node1" } 0).startTransition hbounded
    rfl rfl).2 _ _ (.between ..)
  refine ⟨g, hg, hlevel, hcalls, hstatuses, fun t ht hpriority hidle => ?_⟩
  refine hveto.2.2.2 t ht (hkinds t ht) ?_ hidle
  rw [hpriority, hlevel]
  decide

end ClusterTransition
