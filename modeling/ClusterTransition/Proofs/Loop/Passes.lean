import ClusterTransition.Loop
import ClusterTransition.Proofs.Engine.Arrival
import ClusterTransition.Proofs.Engine.Requests
import Mathlib.Data.Finset.Card
import Mathlib.Data.Finset.Range

/-! # The loop waits with nothing left to do

The loop runs passes until one requests no other.  That comes about: a pass that requests another
has handed over an action that was pending, and there are only so many
(`TransitionLoop.runRequested_quiet`).  The last of these passes leaves a further one nothing to do.

An event changes that only if it completes an action or aborts the transition, and then it requests
a pass.  All other events, those that are refused among them, leave the graph, the ledger and the
job limits as they are (`TransitionLoop.apply_leftAlone`).  So whenever the loop waits for an event,
a further pass would call no dispatcher (`waits_with_nothing_to_do`).
-/

namespace ClusterTransition

/-! ## Passes come to an end -/

namespace Graph

/-- The slots of the actions that are pending. -/
def pendingSlots (g : Graph) : Finset Nat :=
  (Finset.range g.actions.length).filter fun k => g.statusAt k = some .pending

theorem mem_pendingSlots {g : Graph} {k : Nat} :
    k ∈ g.pendingSlots ↔ g.statusAt k = some .pending := by
  simp only [pendingSlots, Finset.mem_filter, Finset.mem_range, and_iff_right_iff_imp]
  intro hk
  obtain ⟨a, ha, -⟩ := Option.map_eq_some_iff.mp hk
  exact (List.getElem?_eq_some_iff.mp ha).1

theorem card_pendingSlots_le (g : Graph) : g.pendingSlots.card ≤ g.actions.length :=
  (Finset.card_filter_le ..).trans_eq (Finset.card_range _)

end Graph

/-- How many passes may still be requested: one for each pending action, and the one that is. -/
def PassState.budget {ε : Type} (x : PassState (Engine ε)) : Nat :=
  x.graph.pendingSlots.card + if x.state.passRequested then 1 else 0

/-- **A request takes up a pending action.** -/
theorem PassStep.budget_le {ε : Type} {c : Cluster ε} {x y : PassState (Engine ε)}
    (h : PassStep (Engine.dispatcher c) x y) : y.budget ≤ x.budget := by
  have hd := Engine.dispatcher_handles c
  have hsub : y.graph.pendingSlots ⊆ x.graph.pendingSlots := fun k hk =>
    Graph.mem_pendingSlots.mpr (h.pending_of_step hd (Graph.mem_pendingSlots.mp hk))
  have hle := Finset.card_le_card hsub
  have hkept (hsame : y.state.passRequested = x.state.passRequested) : y.budget ≤ x.budget := by
    unfold PassState.budget
    rw [hsame]
    exact Nat.add_le_add_right hle _
  -- one that is handed over is pending no more, and makes up for a request
  have htaken {slot : Nat} (hbefore : x.graph.statusAt slot = some .pending)
      (hafter : y.graph.statusAt slot ≠ some .pending) : y.budget ≤ x.budget := by
    have hlt : y.graph.pendingSlots.card < x.graph.pendingSlots.card :=
      Finset.card_lt_card ((Finset.ssubset_iff_of_subset hsub).mpr ⟨slot,
        Graph.mem_pendingSlots.mpr hbefore, fun hk => hafter (Graph.mem_pendingSlots.mp hk)⟩)
    unfold PassState.budget
    split <;> omega
  have hmarked {g : Graph} {slot : Nat} {a : Action} (ha : g.actions[slot]? = some a) :
      (g.setStatusAt slot .executed).statusAt slot ≠ some .pending := by
    rw [Graph.statusAt_setStatusAt, if_pos rfl, Graph.statusAt_eq ha]
    simp
  cases h with
  | count | ready | skip | fire | unroutable | again | fired | conclude => exact hkept rfl
  | dispatch _ _ ha hpending _ hgoes =>
    exact htaken (hpending ▸ Graph.statusAt_eq ha) fun hk =>
      hmarked ha (Graph.pending_of_edits (hd.edits hgoes) hk)
  | @refuse g g' _ _ pos slot _ _ _ ha hpending _ hstays =>
    refine htaken (hpending ▸ Graph.statusAt_eq ha) fun hk => ?_
    have hfails : (g'.failFiring pos slot).statusAt slot =
        (g'.statusAt slot).map fun _ => .failed .initiation := by
      have hset := Graph.statusAt_setStatusAt g' slot slot (.failed .initiation)
      rwa [if_pos rfl] at hset
    rw [hfails] at hk
    simp at hk

/-- A pass that requests another one has handed over an action that was pending. -/
theorem Graph.run_budget {ε : Type} {c : Cluster ε} {g g' : Graph} {e e' : Engine ε}
    {result : PassResult} (hpass : g.run (Engine.dispatcher c) e = (result, g', e')) :
    g'.pendingSlots.card + (if e'.passRequested then 1 else 0) ≤
      g.pendingSlots.card + if e.passRequested then 1 else 0 := by
  have hend := Graph.run_induction (Engine.dispatcher_steady c)
    (P := fun x => x.budget ≤ PassState.budget ⟨.visiting, g, e⟩)
    (fun _ _ hstep hx => hstep.budget_le.trans hx) g e (Nat.le_refl _)
  rwa [hpass] at hend

namespace TransitionLoop

variable {ε : Type} {c : Cluster ε}

/-- Where no pass is requested none is run. -/
theorem runRequested_idle (n : Nat) {l : TransitionLoop ε} (h : l.engine.passRequested = false) :
    l.runRequested c n = (none, l) := by
  obtain ⟨g, e, controller⟩ := l
  have hsame : { e with passRequested := false } = e := by rw [← h]
  cases n with
  | zero => rfl
  | succ n =>
    have hstops : runRequested c (n + 1) ⟨g, e, controller⟩ =
        (none, ⟨g, { e with passRequested := false }, controller⟩) := by
      unfold runRequested
      exact if_neg (Bool.eq_false_iff.mp h)
    rw [hstops, hsame]

/-- A requested pass is run. -/
theorem runRequested_step (n : Nat) {l : TransitionLoop ε} (h : l.engine.passRequested = true)
    {result : PassResult} {g : Graph} {e : Engine ε}
    (hpass : l.graph.run (Engine.dispatcher c) { l.engine with passRequested := false } =
      (result, g, e)) :
    l.runRequested c (n + 1) =
      if result.isTerminal then (some result, { l with graph := g, engine := e })
      else runRequested c n { l with graph := g, engine := e } := by
  simp only [runRequested, Engine.takePassRequest, h, if_true, pass, hpass]

/-- What the loop does that does not end the transition. -/
theorem runRequested_cases {n : Nat} {l l' : TransitionLoop ε}
    (h : l.runRequested c (n + 1) = (none, l')) :
    (l.engine.passRequested = false ∧ l' = l) ∨
      (l.engine.passRequested = true ∧ ∃ result g e,
        l.graph.run (Engine.dispatcher c) { l.engine with passRequested := false } =
          (result, g, e) ∧ result.isTerminal = false ∧
          runRequested c n { l with graph := g, engine := e } = (none, l')) := by
  cases hrequested : l.engine.passRequested with
  | false =>
    rw [runRequested_idle _ hrequested] at h
    exact .inl ⟨rfl, (congrArg Prod.snd h).symm⟩
  | true =>
    obtain ⟨⟨result, g, e⟩, hpass⟩ : ∃ out, l.graph.run (Engine.dispatcher c)
      { l.engine with passRequested := false } = out := ⟨_, rfl⟩
    rw [runRequested_step n hrequested hpass] at h
    refine .inr ⟨rfl, result, g, e, hpass, ?_⟩
    cases hends : result.isTerminal with
    | true =>
      rw [hends, if_pos rfl] at h
      cases h
    | false =>
      rw [hends, if_neg Bool.false_ne_true] at h
      exact ⟨rfl, h⟩

/-- **The passes come to an end** before their number runs out. -/
theorem runRequested_quiet {n : Nat} {l l' : TransitionLoop ε}
    (hn : l.graph.pendingSlots.card + (if l.engine.passRequested then 1 else 0) < n)
    (h : l.runRequested c n = (none, l')) : l'.engine.passRequested = false := by
  induction n generalizing l with
  | zero => exact absurd hn (Nat.not_lt_zero _)
  | succ n ih =>
    rcases runRequested_cases h with ⟨hquiet, rfl⟩ | ⟨hrequested, result, g, e, hpass, -, hrest⟩
    · exact hquiet
    · have hspent := Graph.run_budget hpass
      rw [hrequested] at hn
      simp only [if_true, Bool.false_eq_true, if_false] at hn hspent
      exact ih (l := { l with graph := g, engine := e }) (by dsimp only; omega) hrest

theorem settle_quiet {l l' : TransitionLoop ε} (h : l.settle c = (none, l')) :
    l'.engine.passRequested = false := by
  refine runRequested_quiet ?_ h
  have := l.graph.card_pendingSlots_le
  split <;> omega

/-! ## The loop between events -/

/-- Where the loop that began with `g` stands between its passes and events.  Whenever no pass is
requested a further one has nothing to do, and some synapse executes. -/
structure Sound (g : Graph) (l : TransitionLoop ε) : Prop where
  plan : l.graph.plan = g.plan
  settled : l.graph.Settled l.engine.ledger
  membership : l.graph.Membership
  quiet : l.engine.passRequested = false →
    l.graph.Stuck l.engine ∧ ∃ s ∈ l.graph.synapses, s.status = .executing

theorem sound_new {d : GraphDocument} {g : Graph} (h : d.toGraph = .ok g) (config : EngineConfig)
    (env : ε) (uuid : String) : Sound g (new g config env uuid) where
  plan := rfl
  settled := Graph.settled_of_toGraph h (Engine.new config env uuid)
  membership := by
    have hloaded := GraphDocument.loadedAs_of_toGraph h
    exact .of_fresh hloaded.wellFormed hloaded.fresh
  quiet := by
    intro hquiet
    cases hquiet

theorem Sound.runRequested {g₀ : Graph} {n : Nat} {l l' : TransitionLoop ε} (hl : Sound g₀ l)
    (h : l.runRequested c n = (none, l')) : Sound g₀ l' := by
  induction n generalizing l with
  | zero =>
    cases h
    exact hl
  | succ n ih =>
    rcases runRequested_cases h with ⟨-, rfl⟩ | ⟨-, result, g, e, hpass, hopen, hrest⟩
    · exact hl
    · have hstart : l.graph.Settled { l.engine with passRequested := false }.ledger := hl.settled
      have hplan := Move.plan c .pass (l.graph, { l.engine with passRequested := false })
      have hsettled := Move.settled c .pass (s := (l.graph, _)) hstart
      have hmembers := Move.membership c .pass
        (s := (l.graph, { l.engine with passRequested := false })) hl.membership
      simp only [Move.make, hpass] at hplan hsettled hmembers
      refine ih (l := { l with graph := g, engine := e })
        ⟨hplan.trans hl.plan, hsettled, hmembers, fun hquiet => ?_⟩ hrest
      obtain ⟨hstuck, hexec⟩ := Graph.stuck_of_quiet hstart hpass hquiet
      exact ⟨hstuck, hexec hopen⟩

end TransitionLoop

/-! ## Reports that request no pass -/

namespace Engine

variable {ε : Type} (c : Cluster ε)

/-- Unless it requests a pass, `out` is as `g` and `e` were in all that a pass depends on. -/
def LeftAlone (g : Graph) (e : Engine ε) (out : Graph × Engine ε) : Prop :=
  out.2.passRequested = false →
    e.passRequested = false ∧ out.1 = g ∧ out.2.ledger = e.ledger ∧ out.2.jobLimit = e.jobLimit

variable (e : Engine ε) (g : Graph)

theorem LeftAlone.of_finish {e e' : Engine ε} {g g' : Graph} (id : ActionId) :
    LeftAlone g e (e'.finishAction g' id) := by
  intro hquiet
  rw [passRequested_finishAction] at hquiet
  cases hquiet

theorem processResult_leftAlone (r : ActionResult) : LeftAlone g e (e.processResult g r).2 := by
  simp only [processResult]
  split
  · exact fun hquiet => ⟨hquiet, rfl, rfl, rfl⟩
  · split
    · exact fun hquiet => ⟨hquiet, rfl, rfl, rfl⟩
    · exact .of_finish _

theorem actionTimedOut_leftAlone (id : ActionId) : LeftAlone g e (e.actionTimedOut c g id).2 := by
  simp only [actionTimedOut]
  split
  · exact fun hquiet => ⟨hquiet, rfl, rfl, rfl⟩
  · split
    · exact fun hquiet => ⟨hquiet, rfl, rfl, rfl⟩
    · exact .of_finish _

theorem fencingResult_leftAlone (call : Nat) (outcome : Except String Unit) :
    LeftAlone g e (e.fencingResult c g call outcome).2 := by
  simp only [fencingResult]
  split
  · exact fun hquiet => ⟨hquiet, rfl, rfl, rfl⟩
  · split
    · exact fun hquiet => ⟨hquiet, rfl, rfl, rfl⟩
    · split <;> exact .of_finish _

theorem completeFencing_leftAlone (calls : List (Nat × FenceCall)) :
    LeftAlone g e (e.completeFencing c g calls) := by
  induction calls generalizing e g with
  | nil => exact fun hquiet => ⟨hquiet, rfl, rfl, rfl⟩
  | cons head rest ih =>
    intro hquiet
    -- the first request that completes asks for a pass, and no later one takes that back
    obtain ⟨hbefore, -⟩ := ih _ _ hquiet
    cases hbefore

theorem confirmNodeSafe_leftAlone (target : String) :
    LeftAlone g e (e.confirmNodeSafe c g target).2 := by
  simp only [confirmNodeSafe]
  split
  · exact fun hquiet => ⟨hquiet, rfl, rfl, rfl⟩
  · exact completeFencing_leftAlone c _ g _

end Engine

/-! ## Events -/

namespace TransitionLoop

variable {ε : Type} {c : Cluster ε}

/-- **An event that requests no pass changes nothing that a pass depends on.** -/
theorem apply_leftAlone (l : TransitionLoop ε) (event : EngineEvent) :
    Engine.LeftAlone l.graph l.engine ((l.apply c event).graph, (l.apply c event).engine) := by
  cases event with
  | actionResult result => exact Engine.processResult_leftAlone l.engine l.graph result
  | fencingResult call outcome =>
    exact Engine.fencingResult_leftAlone c l.engine l.graph call outcome
  | timeout action =>
    exact Engine.actionTimedOut_leftAlone c
      { l.engine with timers := l.engine.timers.cancel action } l.graph action
  | nodeConfirmed target => exact Engine.confirmNodeSafe_leftAlone c l.engine l.graph target
  | abort | shutdown =>
    intro hquiet
    cases hquiet

/-- But for the surroundings, an event is a move of the engine, and no pass. -/
theorem exists_move_of_apply (l : TransitionLoop ε) (event : EngineEvent) :
    ∃ (m : Move) (e : Engine ε), m ≠ .pass ∧ e.ledger = l.engine.ledger ∧
      (l.apply c event).graph = (m.make c (l.graph, e)).1 ∧
      (l.apply c event).engine.ledger = (m.make c (l.graph, e)).2.ledger := by
  cases event with
  | actionResult result => exact ⟨.result result, l.engine, by simp, rfl, rfl, rfl⟩
  | fencingResult call outcome => exact ⟨.fencing call outcome, l.engine, by simp, rfl, rfl, rfl⟩
  | timeout action =>
    exact ⟨.timeout action, { l.engine with timers := l.engine.timers.cancel action }, by simp, rfl,
      rfl, rfl⟩
  | nodeConfirmed target => exact ⟨.nodeSafe target, l.engine, by simp, rfl, rfl, rfl⟩
  | abort priority action reason =>
    exact ⟨.abort priority action reason, l.engine, by simp, rfl, rfl, rfl⟩
  | shutdown =>
    exact ⟨.abort infinity .stop "Shutdown requested", l.engine, by simp, rfl, rfl, rfl⟩

theorem Sound.apply {g₀ : Graph} {l : TransitionLoop ε} (hl : Sound g₀ l) (event : EngineEvent) :
    Sound g₀ (l.apply c event) := by
  obtain ⟨m, e, -, hsame, hmade, hcharged⟩ := l.exists_move_of_apply (c := c) event
  have hplan := m.plan c (l.graph, e)
  have hsettled := m.settled c (s := (l.graph, e)) (hsame ▸ hl.settled)
  have hmembers := m.membership c (s := (l.graph, e)) hl.membership
  rw [← hmade, ← hcharged] at hsettled
  rw [← hmade] at hplan hmembers
  refine ⟨hplan.trans hl.plan, hsettled, hmembers, fun hquiet => ?_⟩
  obtain ⟨hbefore, hgraph, hledger, hlimit⟩ := l.apply_leftAlone event hquiet
  dsimp only at hgraph hledger hlimit
  obtain ⟨hstuck, hexec⟩ := hl.quiet hbefore
  rw [hgraph]
  refine ⟨hstuck.imp_right fun hputOff s hs hwaits => ?_, hexec⟩
  exact (hputOff s hs hwaits).of_le rfl (fun _ h => h) (hledger ▸ .refl _) hlimit

/-- **Wherever the loop waits it is sound, and no pass is requested.** -/
theorem Sound.run {g₀ : Graph} {l l' : TransitionLoop ε} (hl : Sound g₀ l)
    {events : List EngineEvent} (h : l.run c events = .inr l') :
    Sound g₀ l' ∧ l'.engine.passRequested = false := by
  induction events generalizing l with
  | nil =>
    simp only [TransitionLoop.run] at h
    split at h
    · cases h
    · rename_i l₁ hsettle
      cases h
      exact ⟨hl.runRequested hsettle, settle_quiet hsettle⟩
  | cons event events ih =>
    simp only [TransitionLoop.run] at h
    split at h
    · cases h
    · rename_i l₁ hsettle
      exact ih ((hl.runRequested hsettle).apply event) h

end TransitionLoop

/-- **The loop waits with nothing left to do.**  Take any graph of the loader, configuration,
surroundings and events, and an engine with any uuid.  Wherever the loop waits for a further event
no pass is requested, and one more pass would call no dispatcher. -/
theorem waits_with_nothing_to_do {d : GraphDocument} {g : Graph} (h : d.toGraph = .ok g) {ε : Type}
    (c : Cluster ε) (config : EngineConfig) (env : ε) (uuid : String) (events : List EngineEvent)
    {l : TransitionLoop ε}
    (hwaits : (TransitionLoop.new g config env uuid).run c events = .inr l) :
    l.engine.passRequested = false ∧ l.graph.calls (Engine.dispatcher c) l.engine = [] := by
  obtain ⟨hsound, hquiet⟩ := (TransitionLoop.sound_new h config env uuid).run hwaits
  exact ⟨hquiet, (hsound.quiet hquiet).1.calls_eq_nil hsound.membership.wellFormed⟩

/-- Two starts, of which one at a time may be under way. -/
def GraphDocument.oneByOne : GraphDocument where
  transitionId := 1
  batchLimit := some 1
  synapses :=
    [{ id := 0
       actions := [{ id := 1, kind := .resource, task := some "start", target := some "node1" }] },
     { id := 1
       actions := [{ id := 2, kind := .resource, task := some "start", target := some "node2" }] }]

/-- The loop waits with the first start under way. -/
theorem oneByOne_run : ∃ g l, GraphDocument.oneByOne.toGraph = .ok g ∧
    (TransitionLoop.new g { node := "node1" } 0).run .willing [] = .inr l ∧
    l.graph.synapses.map (·.status) = [.executing, .unfired] := by
  have hfacts : ∀ g, GraphDocument.oneByOne.toGraph = .ok g →
      let out := (TransitionLoop.new g { node := "node1" } 0).run .willing []
      out.isRight ∧ out.elim (fun _ => []) (fun l => l.graph.synapses.map (·.status)) =
        [.executing, .unfired] := by
    rintro _ ⟨⟩
    decide +kernel
  obtain ⟨g, hg⟩ : ∃ g, GraphDocument.oneByOne.toGraph = .ok g := ⟨_, rfl⟩
  obtain ⟨hright, hstatuses⟩ := hfacts g hg
  obtain ⟨l, hl⟩ := Sum.isRight_iff.mp hright
  rw [hl] at hstatuses
  exact ⟨g, l, hg, hl, hstatuses⟩

/-- The batch limit keeps the second start back, from a further pass too. -/
theorem oneByOne_waits : ∃ g l, GraphDocument.oneByOne.toGraph = .ok g ∧
    (TransitionLoop.new g { node := "node1" } 0).run .willing [] = .inr l ∧
    l.graph.synapses.map (·.status) = [.executing, .unfired] ∧
    l.engine.passRequested = false ∧ l.graph.calls (Engine.dispatcher .willing) l.engine = [] := by
  obtain ⟨g, l, hg, hl, hstatuses⟩ := oneByOne_run
  exact ⟨g, l, hg, hl, hstatuses, waits_with_nothing_to_do hg .willing _ 0 _ [] hl⟩

end ClusterTransition
