import ClusterTransition.Proofs.Engine.Residue
import ClusterTransition.Proofs.Engine.Veto
import Mathlib.Data.List.Chain

/-! # What brings the abort level down

An abort raises the abort level and the completion action or leaves them; neither is meant to come
down before the controller reads them.  The completion action does not.  The abort level has one
writer that does not look at what it overwrites: a pass that cannot fire a synapse sets it to
infinity, and an abort may have asked for more than that.

`level_falls_iff` says that this is the only way down: a turn lowers the level exactly if it begins
above infinity and a synapse fails in it.  As long as no abort asks for more than infinity, the
level only rises.
-/

namespace ClusterTransition

open ClusterTransition.Graph (Edits)

namespace Graph

/-! ## What edits do to the abort fields -/

variable {g g' : Graph} {id : ActionId}

/-- The abort level is no lower, and the completion action no milder. -/
structure Escalates (g g' : Graph) : Prop where
  level : g.abortPriority ≤ g'.abortPriority
  completion : g.completionAction.severity ≤ g'.completionAction.severity

theorem completionAction_modifyAction (g : Graph) (id : ActionId) (f : Action → Action) :
    (g.modifyAction id f).completionAction = g.completionAction := by
  simp only [modifyAction]
  split <;> rfl

theorem completionAction_settle (g : Graph) (id : ActionId) (status : ActionStatus) :
    (g.settle id status).2.completionAction = g.completionAction := by
  simp only [settle]
  split
  · rfl
  · split
    · rfl
    · exact completionAction_modifyAction ..

/-- An edit leaves both abort fields or raises them. -/
theorem Edit.escalates (h : Edit id g g') : g.Escalates g' := by
  have hkept (hlevel : g'.abortPriority = g.abortPriority)
      (hcompletion : g'.completionAction = g.completionAction) : g.Escalates g' :=
    ⟨Int.le_of_eq hlevel.symm, Nat.le_of_eq (congrArg _ hcompletion.symm)⟩
  cases h with
  | note => exact hkept (abortPriority_modifyAction ..) (completionAction_modifyAction ..)
  | settle => exact hkept (abortPriority_settle ..) (completionAction_settle ..)
  | spread ha hc =>
    refine hkept (abortPriority_update ..) ?_
    obtain ⟨k, hslot, hget, -⟩ := exists_slot_of_action? ha
    rw [update_of_confirmed hslot hget hc]
  | abort priority action reason =>
    constructor
    · rw [abortPriority_abort]
      omega
    · simp only [Graph.abort]
      split <;> omega
  | shutdown =>
    refine ⟨Int.le_refl _, ?_⟩
    show g.completionAction.severity ≤ CompletionAction.shutdown.severity
    cases g.completionAction <;> decide

theorem Escalates.refl (g : Graph) : g.Escalates g := ⟨Int.le_refl _, Nat.le_refl _⟩

theorem Escalates.trans {g'' : Graph} (h : g.Escalates g') (h' : g'.Escalates g'') :
    g.Escalates g'' :=
  ⟨Int.le_trans h.level h'.level, Nat.le_trans h.completion h'.completion⟩

theorem Edits.escalates (h : Edits id g g') : g.Escalates g' := by
  induction h with
  | refl => exact .refl g
  | tail _ step ih => exact ih.trans step.escalates

theorem Reported.escalates (h : Reported g g') : g.Escalates g' := by
  induction h with
  | refl => exact .refl g
  | tail _ step ih =>
    obtain ⟨id, hedits⟩ := step
    exact ih.trans hedits.escalates

/-! ## Passes -/

/-- A synapse fails on the way from `g` to `g'`. -/
def FiringFails (g g' : Graph) : Prop :=
  ∃ (p : Nat) (s s' : Synapse), g.synapses[p]? = some s ∧ s.status ≠ .failed ∧
    g'.synapses[p]? = some s' ∧ s'.status = .failed

/-- No report makes a synapse fail. -/
theorem Reported.not_firingFails (h : Reported g g') : ¬ g.FiringFails g' := by
  rintro ⟨p, s, s', hs, hopen, hs', hfailed⟩
  obtain ⟨t, ht, -, hstatus⟩ := h.absorbs hs'
  obtain rfl : s = t := Option.some.inj (hs.symm.trans ht)
  exact hopen (hstatus.failed_iff.mp hfailed)

/-- What a pass that began with `g` has made of it by the time it is at `g'`: what had failed still
has; and the level has not come down, unless the firing of a synapse failed, which has taken it to
infinity. -/
structure Ratcheted (g g' : Graph) : Prop where
  plan : g'.plan = g.plan
  failed : ∀ (p : Nat) (s s' : Synapse), g.synapses[p]? = some s → g'.synapses[p]? = some s' →
    s.status = .failed → s'.status = .failed
  level : g.abortPriority ≤ g'.abortPriority ∨ g.FiringFails g'
  fallen : g.FiringFails g' → g'.abortPriority = infinity
  completion : g.completionAction.severity ≤ g'.completionAction.severity

theorem Ratcheted.refl (g : Graph) : g.Ratcheted g := by
  refine ⟨rfl, fun p s s' hs hs' hfailed => ?_, .inl (Int.le_refl _), ?_, Nat.le_refl _⟩
  · rwa [← Option.some.inj (hs.symm.trans hs')]
  · rintro ⟨p, s, s', hs, hopen, hs', hfailed⟩
    rw [Option.some.inj (hs.symm.trans hs')] at hopen
    exact absurd hfailed hopen

/-- A change after which the same synapses have failed. -/
theorem Ratcheted.step {g'' : Graph} (h : g.Ratcheted g') (hplan : g''.plan = g'.plan)
    (hsame : ∀ (p : Nat) (s' s'' : Synapse), g'.synapses[p]? = some s' →
      g''.synapses[p]? = some s'' → (s''.status = .failed ↔ s'.status = .failed))
    (hescalates : g'.Escalates g'') (hraises : g'.Raises g'') : g.Ratcheted g'' := by
  have hiff : g.FiringFails g'' ↔ g.FiringFails g' := by
    constructor
    · rintro ⟨p, s, s'', hs, hopen, hs'', hfailed⟩
      obtain ⟨s', hs', -⟩ := synapse_of_plan hplan hs''
      exact ⟨p, s, s', hs, hopen, hs', (hsame p s' s'' hs' hs'').mp hfailed⟩
    · rintro ⟨p, s, s', hs, hopen, hs', hfailed⟩
      obtain ⟨s'', hs'', -⟩ := synapse_of_plan hplan.symm hs'
      exact ⟨p, s, s'', hs, hopen, hs'', (hsame p s' s'' hs' hs'').mpr hfailed⟩
  refine ⟨hplan.trans h.plan, fun p s s'' hs hs'' hfailed => ?_, ?_, fun hfails => ?_,
    Nat.le_trans h.completion hescalates.completion⟩
  · obtain ⟨s', hs', -⟩ := synapse_of_plan hplan hs''
    exact (hsame p s' s'' hs' hs'').mpr (h.failed p s s' hs hs' hfailed)
  · exact h.level.imp (fun hle => Int.le_trans hle hescalates.level) hiff.mpr
  · have hlevel := h.fallen (hiff.mp hfails)
    rcases hraises with hkept | hinfinity
    · exact hkept.trans hlevel
    · exact hinfinity

/-- The synapse at `pos`, which had not failed, gets a status other than failed. -/
theorem Ratcheted.setSynapseStatus (h : g.Ratcheted g') {pos : Nat} {s : Synapse}
    (hs : g'.synapses[pos]? = some s) (hopen : s.status ≠ .failed) {status : SynapseStatus}
    (hstatus : status ≠ .failed) : g.Ratcheted (g'.setSynapseStatus pos status) := by
  refine h.step (plan_setSynapseStatus ..) (fun p t t' ht ht' => ?_)
    ⟨Int.le_refl _, Nat.le_refl _⟩ (.inl rfl)
  obtain ⟨u, hu, ⟨rfl, rfl⟩ | ⟨-, rfl⟩⟩ := setSynapseStatus_cases ht'
  · obtain rfl : s = t := Option.some.inj (hs.symm.trans ht)
    exact iff_of_false hstatus hopen
  · obtain rfl : t = t' := Option.some.inj (ht.symm.trans hu)
    rfl

theorem Ratcheted.edits (h : g.Ratcheted g') {g'' : Graph} (hedits : Edits id g' g'')
    (hraises : g'.Raises g'') : g.Ratcheted g'' := by
  refine h.step hedits.plan (fun p s s' hs hs' => ?_) hedits.escalates hraises
  obtain ⟨t, ht, -, hstatus⟩ := hedits.absorbs hs'
  obtain rfl : s = t := Option.some.inj (hs.symm.trans ht)
  exact hstatus.failed_iff

/-- The synapse that is being fired fails: it had not failed when the pass began. -/
theorem Ratcheted.failFiring (h : g.Ratcheted g') {pos : Nat} (slot : Nat) {s : Synapse}
    (hs : g.synapses[pos]? = some s) (hopen : s.status ≠ .failed) :
    g.Ratcheted (g'.failFiring pos slot) := by
  have hplan : (g'.failFiring pos slot).plan = g.plan := (plan_failFiring ..).trans h.plan
  have hfails : g.FiringFails (g'.failFiring pos slot) := by
    obtain ⟨s', hs', -⟩ := synapse_of_plan h.plan.symm hs
    rw [← synapses_setStatusAt g' slot (.failed .initiation)] at hs'
    exact ⟨pos, s, _, hs, hopen, setSynapseStatus_getElem? hs' .failed, rfl⟩
  refine ⟨hplan, fun p t t' ht ht' hfailed => ?_, .inr hfails, fun _ => rfl, h.completion⟩
  obtain ⟨u, hu, ⟨rfl, rfl⟩ | ⟨-, rfl⟩⟩ := setSynapseStatus_cases ht'
  · rfl
  · exact h.failed p t t' ht hu hfailed

end Graph

section Pass

variable {σ : Type} {d : Dispatcher σ} {g : Graph} {x y : PassState σ}

/-- What holds of a pass that began with `g`: the synapse that is being fired had not failed then. -/
structure PassState.Ratcheted (g : Graph) (x : PassState σ) : Prop where
  graph : g.Ratcheted x.graph
  firing : ∀ pos slots, x.stage = .firing pos slots →
    ∃ s, g.synapses[pos]? = some s ∧ s.status ≠ .failed

/-- **Every step of a pass keeps the level up**, but for the one that fails the firing of a
synapse. -/
theorem PassState.Ratcheted.step (hd : d.Handles) (hraises : d.Raises) (hx : x.Ratcheted g)
    (h : PassStep d x y) : y.Ratcheted g := by
  have hmark {g₁ : Graph} (slot : Nat) (hg₁ : g.Ratcheted g₁) :
      g.Ratcheted (g₁.setStatusAt slot .executed) :=
    ⟨(Graph.plan_setStatusAt ..).trans hg₁.plan, hg₁.failed, hg₁.level, hg₁.fallen, hg₁.completion⟩
  have hgraph := hx.graph
  cases h with
  | count | conclude =>
    exact ⟨⟨hgraph.plan, hgraph.failed, hgraph.level, hgraph.fallen, hgraph.completion⟩, by simp⟩
  | fired => exact ⟨hgraph, by simp⟩
  | ready st hs hwaits =>
    refine ⟨hgraph.setSynapseStatus hs ?_ (by simp), by simp⟩
    rcases hwaits with h | h <;> simp [h]
  | skip st hs hready => exact ⟨hgraph.setSynapseStatus hs (by simp [hready]) (by simp), by simp⟩
  | @fire g₁ st pos s hs hready =>
    have hset : g.Ratcheted (g₁.setSynapseStatus pos .executing) :=
      hgraph.setSynapseStatus hs (by simp [hready]) (by simp)
    refine ⟨⟨hset.plan, hset.failed, hset.level, hset.fallen, hset.completion⟩, ?_⟩
    rintro pos slots ⟨⟩
    -- a synapse that is ready now had not failed before
    obtain ⟨t, ht, -⟩ := Graph.synapse_of_plan hgraph.plan hs
    refine ⟨t, ht, fun hfailed => ?_⟩
    rw [hgraph.failed _ t s ht hs hfailed] at hready
    cases hready
  | @dispatch g₁ g₂ st st' pos slot slots a channel ha hpending hchannel hgoes =>
    have hlevel := hraises channel a.id (g₁.setStatusAt slot .executed) st
    rw [hgoes] at hlevel
    refine ⟨(hmark slot hgraph).edits (hd.edits hgoes) hlevel, ?_⟩
    rintro pos slots ⟨⟩
    exact hx.firing _ _ rfl
  | @refuse g₁ g₂ st st' pos slot slots a channel ha hpending hchannel hstays =>
    have hlevel := hraises channel a.id (g₁.setStatusAt slot .executed) st
    rw [hstays] at hlevel
    obtain ⟨s, hs, hopen⟩ := hx.firing _ _ rfl
    have hedited := (hmark slot hgraph).edits (hd.edits hstays) hlevel
    exact ⟨hedited.failFiring slot hs hopen, by simp⟩
  | unroutable st pos slots =>
    obtain ⟨s, hs, hopen⟩ := hx.firing _ _ rfl
    exact ⟨(hmark _ hgraph).failFiring _ hs hopen, by simp⟩
  | again st pos slots =>
    obtain ⟨s, hs, hopen⟩ := hx.firing _ _ rfl
    exact ⟨hgraph.failFiring _ hs hopen, by simp⟩

/-- A whole pass. -/
theorem Graph.run_ratcheted (hsteady : d.Steady) (hd : d.Handles) (hraises : d.Raises) (g : Graph)
    (st : σ) : g.Ratcheted (g.run d st).2.1 :=
  (Graph.run_induction hsteady (P := fun x => x.Ratcheted g)
    (fun _ _ hstep hx => hx.step hd hraises hstep) g st ⟨.refl g, by simp⟩).graph

end Pass

/-! ## Turns -/

namespace Turn

variable {ε : Type} (c : Cluster ε)

/-- The graphs before, between and after the turns. -/
def graphs : List Turn → Graph × Engine ε → List Graph
  | [], s => [s.1]
  | t :: turns, s => s.1 :: graphs turns (t.make c s)

/-- **A turn lowers the level exactly if it begins above infinity and a synapse fails in it**, and
then the level is infinity.  No turn makes the completion action milder. -/
theorem lowers_iff (t : Turn) (s : Graph × Engine ε) :
    ((t.make c s).1.abortPriority < s.1.abortPriority ↔
      infinity < s.1.abortPriority ∧ s.1.FiringFails (t.make c s).1) ∧
    (s.1.FiringFails (t.make c s).1 → (t.make c s).1.abortPriority = infinity) ∧
    s.1.completionAction.severity ≤ (t.make c s).1.completionAction.severity := by
  rcases t.pass_or_reported c s with ⟨σ, d, st, hsteady, hd, hraises, hmake, -⟩ | ⟨hreported, -⟩
  · have hpass := Graph.run_ratcheted hsteady hd hraises s.1 st
    rw [← hmake] at hpass
    refine ⟨⟨fun hfalls => ?_, fun ⟨habove, hfails⟩ => ?_⟩, hpass.fallen, hpass.completion⟩
    · have hfails := hpass.level.resolve_left (by omega)
      exact ⟨hpass.fallen hfails ▸ hfalls, hfails⟩
    · rwa [hpass.fallen hfails]
  · have hescalates := hreported.escalates
    have hnot := hreported.not_firingFails
    refine ⟨⟨fun hfalls => ?_, fun ⟨_, hfails⟩ => absurd hfails hnot⟩,
      fun hfails => absurd hfails hnot, hescalates.completion⟩
    have hlevel := hescalates.level
    omega

theorem graphs_isChain_cons {R : Graph → Graph → Prop} {t : Turn} {turns : List Turn}
    {s : Graph × Engine ε} : (graphs c (t :: turns) s).IsChain R ↔
      R s.1 (t.make c s).1 ∧ (graphs c turns (t.make c s)).IsChain R := by
  cases turns <;> simp [graphs]

/-- A relation holds along a run if it holds for every turn of it. -/
theorem graphs_isChain_iff {R : Graph → Graph → Prop} {turns : List Turn} {s : Graph × Engine ε} :
    (graphs c turns s).IsChain R ↔ ∀ before t after, turns = before ++ t :: after →
      R (makeAll c before s).1 (t.make c (makeAll c before s)).1 := by
  induction turns generalizing s with
  | nil => simp [graphs]
  | cons u turns ih =>
    rw [graphs_isChain_cons, ih]
    constructor
    · rintro ⟨hfirst, hrest⟩ before t after hsplit
      rcases List.cons_eq_append_iff.mp hsplit with ⟨rfl, hcons⟩ | ⟨rest, rfl, hrest'⟩
      · obtain ⟨rfl, -⟩ := List.cons_eq_cons.mp hcons
        exact hfirst
      · exact hrest rest t after hrest'
    · intro h
      refine ⟨h [] u turns rfl, fun before t after hsplit => ?_⟩
      exact h (u :: before) t after (by rw [hsplit, List.cons_append])

end Turn

/-- **The completion action only rises, and the abort level comes down in one way only.**  Take any
graph and engine, and any turns on them: passes with an engine or of dry runs, reports, aborts of
any priority.  No turn makes the completion action milder.  The level comes down somewhere in the
run exactly if some turn of it begins above infinity and a synapse fails in it, because it cannot be
fired; the level is then infinity.  So it never comes down if it starts no higher than infinity and
no abort asks for more. -/
theorem level_falls_iff {ε : Type} (c : Cluster ε) (turns : List Turn) (s : Graph × Engine ε) :
    (Turn.graphs c turns s).IsChain
      (fun g g' => g.completionAction.severity ≤ g'.completionAction.severity) ∧
    (¬ (Turn.graphs c turns s).IsChain (fun g g' => g.abortPriority ≤ g'.abortPriority) ↔
      ∃ before t after, turns = before ++ t :: after ∧
        let g := (Turn.makeAll c before s).1
        let g' := (t.make c (Turn.makeAll c before s)).1
        infinity < g.abortPriority ∧ g.FiringFails g' ∧ g'.abortPriority = infinity) ∧
    (s.1.abortPriority ≤ infinity → Turn.Bounded turns →
      (Turn.graphs c turns s).IsChain fun g g' => g.abortPriority ≤ g'.abortPriority) := by
  refine ⟨?_, ?_, fun hlevel hbounded => ?_⟩
  · exact (Turn.graphs_isChain_iff c).mpr fun before t _ _ => (t.lowers_iff c _).2.2
  · rw [Turn.graphs_isChain_iff]
    constructor
    · intro hfalls
      simp only [not_forall, Int.not_le] at hfalls
      obtain ⟨before, t, after, hsplit, hlower⟩ := hfalls
      obtain ⟨hiff, hinfinity, -⟩ := t.lowers_iff c (Turn.makeAll c before s)
      obtain ⟨habove, hfails⟩ := hiff.mp hlower
      exact ⟨before, t, after, hsplit, habove, hfails, hinfinity hfails⟩
    · rintro ⟨before, t, after, hsplit, habove, hfails, -⟩ hkept
      have hlower := (t.lowers_iff c (Turn.makeAll c before s)).1.mpr ⟨habove, hfails⟩
      have hle := hkept before t after hsplit
      omega
  · refine (Turn.graphs_isChain_iff c).mpr fun before t after hsplit => ?_
    have hturn (u : Turn) (hu : u ∈ before ++ t :: after) := hbounded u (hsplit ▸ hu)
    have hbefore : Turn.Bounded before := fun u hu => hturn u (List.mem_append_left _ hu)
    have hat := (Turn.level_makeAll c hbefore hlevel).2.1
    exact (Turn.le_level_make c (hturn t (by simp)) hat).1

/-- No step of a run of a new engine on the graph of the document lowers the abort level, nor makes
the completion action milder. -/
def GraphDocument.OnlyEscalates (d : GraphDocument) : Prop :=
  ∀ g, d.toGraph = .ok g → ∀ (ε : Type) (c : Cluster ε) (config : EngineConfig) (env : ε)
    (uuid : String) (turns : List Turn),
    (Turn.graphs c turns (g, (Engine.new config env uuid).startTransition)).IsChain fun g g' =>
      g.abortPriority ≤ g'.abortPriority ∧
        g.completionAction.severity ≤ g'.completionAction.severity

/-- One start, with twice the priority of infinity. -/
def GraphDocument.pressingStart : GraphDocument where
  transitionId := 1
  synapses :=
    [{ id := 0, priority := 2 * infinity
       actions := [{ id := 1, kind := .resource, task := some "start", target := some "node1" }] }]

/-- An abort of all that is less pressing, and a pass. -/
def Turn.abortAndPass : List Turn :=
  [.move (.abort (2 * infinity) .restart "new status"), .move .pass]

/-- The start goes on in spite of the abort but cannot be sent, and that takes the level down to
infinity. -/
theorem pressingStart_falls : ∃ g, GraphDocument.pressingStart.toGraph = .ok g ∧
    let start := (g, (Engine.new { node := "node1" } 0).startTransition)
    (Turn.graphs (.cutOff "node1") Turn.abortAndPass start).map (·.abortPriority) =
        [0, 2 * infinity, infinity] ∧
      ∃ before t after, Turn.abortAndPass = before ++ t :: after ∧
        (Turn.makeAll (.cutOff "node1") before start).1.FiringFails
          (t.make (.cutOff "node1") (Turn.makeAll (.cutOff "node1") before start)).1 := by
  have hlevels : ∀ g, GraphDocument.pressingStart.toGraph = .ok g →
      (Turn.graphs (.cutOff "node1") Turn.abortAndPass
        (g, (Engine.new { node := "node1" } 0).startTransition)).map (·.abortPriority) =
          [0, 2 * infinity, infinity] := by
    rintro _ ⟨⟩
    decide +kernel
  obtain ⟨g, hg⟩ : ∃ g, GraphDocument.pressingStart.toGraph = .ok g := ⟨_, rfl⟩
  refine ⟨g, hg, hlevels g hg, ?_⟩
  have hiff := (level_falls_iff (.cutOff "node1") Turn.abortAndPass
    (g, (Engine.new { node := "node1" } 0).startTransition)).2.1
  obtain ⟨before, t, after, hsplit, -, hfails, -⟩ := hiff.mp fun hkept => by
    have hlevels' := (List.isChain_map (R := (· ≤ ·)) Graph.abortPriority).mpr hkept
    rw [hlevels g hg] at hlevels'
    revert hlevels'
    decide
  exact ⟨before, t, after, hsplit, hfails⟩

/-- The level goes from twice infinity down to infinity. -/
theorem pressingStart_lowers : (∃ g, GraphDocument.pressingStart.toGraph = .ok g ∧
      let graphs := Turn.graphs (.cutOff "node1") Turn.abortAndPass
        (g, (Engine.new { node := "node1" } 0).startTransition)
      graphs.map (·.abortPriority) = [0, 2000000, 1000000] ∧
        graphs.map (·.completionAction) = [.done, .restart, .restart]) ∧
    ¬ GraphDocument.pressingStart.OnlyEscalates := by
  have hfacts : ∀ g, GraphDocument.pressingStart.toGraph = .ok g →
      let graphs := Turn.graphs (.cutOff "node1") Turn.abortAndPass
        (g, (Engine.new { node := "node1" } 0).startTransition)
      graphs.map (·.abortPriority) = [0, 2000000, 1000000] ∧
        graphs.map (·.completionAction) = [.done, .restart, .restart] := by
    rintro _ ⟨⟩
    decide +kernel
  obtain ⟨g, hg⟩ : ∃ g, GraphDocument.pressingStart.toGraph = .ok g := ⟨_, rfl⟩
  refine ⟨⟨g, hg, hfacts g hg⟩, fun hrises => ?_⟩
  have hchain := hrises g hg Nat (.cutOff "node1") { node := "node1" } 0 Engine.defaultUuid
    Turn.abortAndPass
  have hlevels := (List.isChain_map (R := (· ≤ ·)) Graph.abortPriority).mpr
    (hchain.imp fun _ _ h => h.1)
  rw [(hfacts g hg).1] at hlevels
  revert hlevels
  decide

end ClusterTransition
