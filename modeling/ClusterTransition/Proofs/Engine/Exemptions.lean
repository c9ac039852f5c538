import ClusterTransition.Proofs.Engine.Smooth
import ClusterTransition.Proofs.Graph.Spreading
import ClusterTransition.Proofs.Simulation.Firing

/-! # Which failures a synapse may overlook

A hard failure, one of an action that may not fail, does not hold up a synapse of the highest
priority.  Two places know this.  The completion of the action marks the inputs for it if the
priority is infinity; the test for readiness overlooks the failure behind a marked input unless the
priority is below infinity.  The second exempts more than the first, and as an input has to be
marked before it is looked behind, the first decides.

So the two agree up to infinity and part above it (`exemptions_agree_iff`).  A synapse above
infinity is told of no hard failure, though it would not mind it.  What is not told at once is told
never: the result of the action is known and stays, so that each later completion of it is refused
in the same way, and the open input holds the synapse up in every run (`Graph.Stranded`).
-/

namespace ClusterTransition

open ClusterTransition.Graph (Edit Edits Reported)

/-! ## The two exemptions -/

/-- The action failed, and may not. -/
def Action.FailedHard (a : Action) : Prop := a.status.isFailed = true ∧ a.canFail = false

/-- The test for readiness asks no more of the input than its mark. -/
def Input.Exempt (actions : List Action) (priority : Int) (i : Input) : Prop :=
  ({ i with satisfied := true } : Input).isOpen actions priority = true

instance (actions : List Action) (priority : Int) (i : Input) :
    Decidable (i.Exempt actions priority) :=
  inferInstanceAs (Decidable (_ = _))

/-- The completion of a hard failure is accepted at infinity only. -/
theorem Synapse.accepts_iff_of_failedHard {a : Action} (h : a.FailedHard) (s : Synapse) :
    s.accepts a = true ↔ s.priority = infinity := by
  simp [accepts, h.1, h.2]

/-- The test for readiness overlooks a hard failure from infinity on. -/
theorem Input.exempt_iff_of_failedHard {actions : List Action} {i : Input} {a : Action}
    (ha : actions[i.slot]? = some a) (h : a.FailedHard) (priority : Int) :
    i.Exempt actions priority ↔ infinity ≤ priority := by
  simp [Exempt, isOpen, ha, h.1, h.2]

/-- From infinity on the test for readiness asks for the marks only. -/
theorem Synapse.inputsSatisfied_iff_of_infinity {s : Synapse} (h : infinity ≤ s.priority)
    (actions : List Action) :
    s.inputsSatisfied actions = true ↔ ∀ i ∈ s.inputs, i.satisfied = true := by
  refine ⟨marked_of_inputsSatisfied, fun hmarked => List.all_eq_true.mpr fun i hi => ?_⟩
  have hlevel : ¬ s.priority < infinity := Int.not_lt.mpr h
  simp only [Input.isOpen, hmarked i hi]
  split
  · rfl
  · simp [hlevel]

/-! ## A synapse that is never told -/

/-- The synapse has not fired and waits for the action at a slot, whose hard failure it does not
accept. -/
structure Synapse.Stranded (k : Nat) (s : Synapse) : Prop where
  idle : s.status.isExecuted = false
  deaf : s.priority ≠ infinity
  unmarked : ∃ i ∈ s.inputs, i.slot = k ∧ i.satisfied = false

namespace Synapse.Stranded

variable {s : Synapse} {k j : Nat} {a : Action} {actions : List Action}

/-- An open input holds the synapse up, whatever its priority is. -/
theorem not_inputsSatisfied (h : s.Stranded k) : s.inputsSatisfied actions = false := by
  obtain ⟨i, hi, -, hmark⟩ := h.unmarked
  refine Bool.eq_false_iff.mpr fun hall => ?_
  rw [marked_of_inputsSatisfied hall i hi] at hmark
  cases hmark

theorem setStatus (h : s.Stranded k) {status : SynapseStatus} (hidle : status.isExecuted = false) :
    ({ s with status } : Synapse).Stranded k :=
  ⟨hidle, h.deaf, h.unmarked⟩

/-- No completion is of use to the synapse: that of the failure is not accepted, and the others mark
other inputs. -/
theorem absorbed (h : s.Stranded k) (ha : j = k → a.FailedHard) :
    (s.absorbed j a actions).Stranded k := by
  refine ⟨isExecuted_absorbed.trans h.idle, ?_, ?_⟩
  · rw [priority_eq_of_plan (plan_absorbed ..)]
    exact h.deaf
  · obtain ⟨i, hi, hslot, hmark⟩ := h.unmarked
    by_cases hwaits : s.status = .unfired ∨ s.status = .ready
    · rw [absorbed_of_waiting hwaits]
      split
      · rename_i haccepts
        have hne : i.slot ≠ j := by
          rintro rfl
          exact h.deaf ((accepts_iff_of_failedHard (ha hslot) s).mp haccepts)
        refine ⟨i, ?_, hslot, hmark⟩
        rw [inputs_satisfyInputs]
        exact List.mem_map.mpr ⟨i, hi, satisfy_of_ne hne⟩
      · exact ⟨i, hi, hslot, hmark⟩
    · have hsettled : s.status.isSettled = true := by
        have hidle := h.idle
        cases hs : s.status <;> simp_all [SynapseStatus.isSettled, SynapseStatus.isExecuted]
      rw [absorbed_of_isSettled hsettled]
      exact ⟨i, hi, hslot, hmark⟩

end Synapse.Stranded

namespace Graph

/-- The action at `k` failed hard, and the synapse at `p` is not told. -/
structure Stranded (g : Graph) (k p : Nat) : Prop where
  failed : ∃ a, g.actions[k]? = some a ∧ a.FailedHard
  waits : ∃ s, g.synapses[p]? = some s ∧ s.Stranded k

namespace Stranded

variable {g g' : Graph} {id : ActionId} {k p pos slot : Nat}

theorem failedAt (h : g.Stranded k p) : g.FailedAt k := by
  obtain ⟨a, ha, hfailed, -⟩ := h.failed
  obtain ⟨reason, hreason⟩ : ∃ reason, a.status = .failed reason := by
    cases hs : a.status with
    | failed reason => exact ⟨reason, rfl⟩
    | pending | executed | confirmed => rw [hs] at hfailed; cases hfailed
  exact ⟨reason, hreason ▸ statusAt_eq ha⟩

/-- What leaves the failure and the synapse leaves the synapse stranded. -/
theorem of_keeps (h : g.Stranded k p) (hplan : g'.plan = g.plan) (hfailed : g'.FailedAt k)
    (hwaits : ∀ s s', g.synapses[p]? = some s → g'.synapses[p]? = some s' → s.Stranded k →
      s'.Stranded k) : g'.Stranded k p := by
  obtain ⟨a, ha, -, hhard⟩ := h.failed
  obtain ⟨s, hs, hstranded⟩ := h.waits
  obtain ⟨s', hs', -⟩ := synapse_of_plan hplan.symm hs
  refine ⟨?_, s', hs', hwaits s s' hs hs' hstranded⟩
  obtain ⟨a', ha', hsame⟩ := action_of_plan hplan.symm ha
  obtain ⟨reason, hreason⟩ := hfailed
  rw [statusAt_eq ha', Option.some.injEq] at hreason
  refine ⟨a', ha', by rw [hreason]; rfl, ?_⟩
  rw [← Action.canFail_eq_of_plan hsame, hhard]

/-- Nothing that is done on behalf of an action is of use to the synapse. -/
theorem edits (h : g.Stranded k p) (hedits : Edits id g g') : g'.Stranded k p := by
  induction hedits with
  | refl => exact h
  | @tail g₁ g₂ _ step ih =>
    refine ih.of_keeps step.plan (Edits.failedAt (.single step) ih.failedAt) ?_
    intro s s' hs hs' hstranded
    obtain ⟨t, ht, hstep⟩ := step.synapse hs'
    obtain rfl : s = t := Option.some.inj (hs.symm.trans ht)
    rcases hstep with rfl | ⟨j, a, -, ha, -, -, rfl⟩
    · exact hstranded
    · refine hstranded.absorbed fun hj => ?_
      subst hj
      obtain ⟨b, hb, hhard⟩ := ih.failed
      obtain rfl : a = b := Option.some.inj (ha.symm.trans hb)
      exact hhard

theorem reported (h : g.Stranded k p) (hreported : Reported g g') : g'.Stranded k p := by
  induction hreported with
  | refl => exact h
  | tail _ step ih =>
    obtain ⟨id, hedits⟩ := step
    exact ih.edits hedits

/-! ### What a pass does to the synapse -/

theorem setSynapseStatus (h : g.Stranded k p) {status : SynapseStatus}
    (hidle : pos = p → status.isExecuted = false) :
    (g.setSynapseStatus pos status).Stranded k p := by
  refine h.of_keeps (plan_setSynapseStatus ..) h.failedAt fun s s' hs hs' hstranded => ?_
  obtain ⟨t, ht, hcase⟩ := setSynapseStatus_cases hs'
  obtain rfl : s = t := Option.some.inj (hs.symm.trans ht)
  obtain ⟨heq, rfl⟩ | ⟨-, rfl⟩ := hcase
  · exact hstranded.setStatus (hidle heq.symm)
  · exact hstranded

theorem setStatusAt (h : g.Stranded k p) {status : ActionStatus}
    (hfailed : (g.setStatusAt slot status).FailedAt k) :
    (g.setStatusAt slot status).Stranded k p := by
  refine h.of_keeps (plan_setStatusAt ..) hfailed fun s s' hs hs' hstranded => ?_
  obtain rfl : s = s' := Option.some.inj (hs.symm.trans hs')
  exact hstranded

/-- An action that is handed over was pending, and so it is another one. -/
theorem mark (h : g.Stranded k p) {a : Action} (ha : g.actions[slot]? = some a)
    (hpending : a.status = .pending) : (g.setStatusAt slot .executed).Stranded k p :=
  h.setStatusAt (failedAt_mark (hpending ▸ statusAt_eq ha) h.failedAt)

theorem failFiring (h : g.Stranded k p) (hpos : pos ≠ p) :
    (g.failFiring pos slot).Stranded k p := by
  have hfails : (g.setStatusAt slot (.failed .initiation)).FailedAt k := by
    obtain ⟨reason, hk⟩ := h.failedAt
    rw [FailedAt, statusAt_setStatusAt]
    split
    · exact ⟨.initiation, by rw [hk]; rfl⟩
    · exact ⟨reason, hk⟩
  have hset : ((g.setStatusAt slot (.failed .initiation)).setSynapseStatus pos .failed).Stranded
      k p := (h.setStatusAt hfails).setSynapseStatus fun heq => absurd heq hpos
  exact ⟨hset.failed, hset.waits⟩

end Stranded
end Graph

/-- The synapse at `p` is stranded, and it is not the one that the pass fires. -/
structure PassState.Stranded {σ : Type} (k p : Nat) (x : PassState σ) : Prop where
  graph : x.graph.Stranded k p
  firing : ∀ pos slots, x.stage = .firing pos slots → pos ≠ p

section Pass

variable {σ : Type} {d : Dispatcher σ} {k p : Nat}

/-- **No step of a pass fires a stranded synapse, or ends its wait.** -/
theorem PassState.Stranded.step (hd : d.Handles) {x y : PassState σ} (hx : x.Stranded k p)
    (h : PassStep d x y) : y.Stranded k p := by
  have hwait := hx.graph
  cases h with
  | count | fired | conclude => exact ⟨⟨hwait.failed, hwait.waits⟩, by simp⟩
  | ready | skip => exact ⟨hwait.setSynapseStatus fun _ => rfl, by simp⟩
  | @fire g st pos s hs hready hinputs =>
    have hne : pos ≠ p := by
      rintro rfl
      obtain ⟨t, ht, hstranded⟩ := hwait.waits
      obtain rfl : s = t := Option.some.inj (hs.symm.trans ht)
      rw [hstranded.not_inputsSatisfied] at hinputs
      cases hinputs
    have hcounted : (g.count fun c => { c with fired := c.fired + 1 }).Stranded k p :=
      ⟨hwait.failed, hwait.waits⟩
    refine ⟨hcounted.setSynapseStatus fun heq => absurd heq hne, fun pos' slots' hstage => ?_⟩
    cases hstage
    exact hne
  | @dispatch g g' st st' pos slot slots a channel ha hpending hchannel hgoes =>
    refine ⟨(hwait.mark ha hpending).edits (hd.edits hgoes), fun pos' slots' hstage => ?_⟩
    cases hstage
    exact hx.firing pos _ rfl
  | @refuse g g' st st' pos slot slots a channel ha hpending hchannel hstays =>
    have hedited := (hwait.mark ha hpending).edits (hd.edits hstays)
    exact ⟨hedited.failFiring (hx.firing pos _ rfl), by simp⟩
  | unroutable st pos slots ha hpending =>
    exact ⟨(hwait.mark ha hpending).failFiring (hx.firing pos _ rfl), by simp⟩
  | again st pos => exact ⟨hwait.failFiring (hx.firing pos _ rfl), by simp⟩

theorem Graph.Stranded.run {g : Graph} (h : g.Stranded k p) (hsteady : d.Steady) (hd : d.Handles)
    (st : σ) : (g.run d st).2.1.Stranded k p :=
  (Graph.run_induction hsteady (fun _ _ hstep hx => PassState.Stranded.step hd hx hstep) g st
    ⟨h, by simp⟩).graph

end Pass

/-- **A stranded synapse stays stranded**, whatever turns follow. -/
theorem Graph.Stranded.turns {ε : Type} {c : Cluster ε} {k p : Nat} (turns : List Turn)
    {s : Graph × Engine ε} (h : s.1.Stranded k p) : (Turn.makeAll c turns s).1.Stranded k p := by
  induction turns generalizing s with
  | nil => exact h
  | cons t turns ih =>
    refine ih ?_
    rcases t.pass_or_reported c s with ⟨σ, d, st, hsteady, hd, -, hmake, -⟩ | ⟨hreported, -⟩
    · rw [hmake]
      exact h.run hsteady hd st
    · exact h.reported hreported

/-! ## What the completion of a hard failure does -/

namespace Synapse

variable {s : Synapse} {k : Nat} {a : Action} {actions : List Action}

/-- Of the synapses that wait for it, a hard failure is told to those at infinity. -/
theorem absorbed_of_failedHard (h : a.FailedHard) (hwaits : s.Waits)
    (hopen : ∃ i ∈ s.inputs, i.slot = k ∧ i.satisfied = false) :
    s.absorbed k a actions = if s.priority = infinity then (s.mark k).readied actions else s := by
  split
  · rename_i hlevel
    exact absorbed_of_heeds hwaits ⟨(accepts_iff_of_failedHard h s).mpr hlevel, hopen⟩
  · rename_i hlevel
    exact absorbed_of_not_heeds hwaits fun hheeds =>
      hlevel ((accepts_iff_of_failedHard h s).mp hheeds.1)

/-- An open input for the failure is marked at infinity, and left open elsewhere. -/
theorem exists_input_absorbed (actions : List Action) {j : Nat} {i : Input} (h : a.FailedHard)
    (hwaits : s.Waits) (hi : s.inputs[j]? = some i) (hslot : i.slot = k)
    (hmark : i.satisfied = false) :
    ∃ i', (s.absorbed k a actions).inputs[j]? = some i' ∧ i'.slot = k ∧
      (i'.satisfied = true ↔ s.priority = infinity) := by
  rw [absorbed_of_failedHard h hwaits ⟨i, List.mem_of_getElem? hi, hslot, hmark⟩]
  by_cases hlevel : s.priority = infinity
  · refine ⟨i.satisfy k, ?_, by rw [slot_satisfy, hslot], ?_⟩
    · rw [if_pos hlevel, inputs_readied]
      simp [mark, hi]
    · simp [Input.satisfy, hslot, hlevel]
  · exact ⟨i, by rw [if_neg hlevel, hi], hslot, by simp [hmark, hlevel]⟩

/-- The synapse is ready if it waited for nothing else. -/
theorem ready_of_mark (hlevel : infinity ≤ s.priority)
    (hothers : ∀ i ∈ s.inputs, i.slot ≠ k → i.satisfied = true) :
    ((s.mark k).readied actions).status = .ready ∧
      ∀ i ∈ ((s.mark k).readied actions).inputs, i.satisfied = true := by
  have hmarked : ∀ i ∈ (s.mark k).inputs, i.satisfied = true := by
    intro i hi
    obtain ⟨j, hj, rfl⟩ := List.mem_map.mp hi
    by_cases hslot : j.slot = k
    · simp [Input.satisfy, hslot]
    · rw [satisfy_of_ne hslot]
      exact hothers j hj hslot
  have hready : (s.mark k).inputsSatisfied actions = true :=
    (inputsSatisfied_iff_of_infinity (s := s.mark k) hlevel actions).mpr hmarked
  refine ⟨?_, by rwa [inputs_readied]⟩
  rw [readied, if_pos hready]

end Synapse

namespace Graph

variable {g : Graph} {id : ActionId} {k p j : Nat} {a : Action} {s : Synapse} {i : Input}

/-- A failure is as hard after it was spread. -/
theorem failedHard_spread (ha : g.actions[k]? = some a) (h : a.FailedHard) :
    ∃ a', (g.spread k a).actions[k]? = some a' ∧ a'.FailedHard := by
  simp only [spread, confirmedBy]
  split
  · refine ⟨a.known, by simp [ha], ?_, ?_⟩
    · rw [a.isFailed_known, h.1]
    · rw [a.canFail_known, h.2]
  · exact ⟨a, ha, h⟩

/-- The input `i`, at `j` among those of the synapse `s` at `p`, is open for the action `a` at `k`,
which failed hard, and the synapse has yet to fire. -/
structure OpenFailure (g : Graph) (id : ActionId) (k p j : Nat) (a : Action) (s : Synapse)
    (i : Input) : Prop where
  slot : g.slotOf? id = some k
  action : g.actions[k]? = some a
  hard : a.FailedHard
  synapse : g.synapses[p]? = some s
  waits : s.Waits
  input : s.inputs[j]? = some i
  refers : i.slot = k
  unmarked : i.satisfied = false

namespace OpenFailure

/-- The synapse after the completion of the failure was spread. -/
theorem synapse_update (h : g.OpenFailure id k p j a s i) :
    (g.update id).2.synapses[p]? = some (s.absorbed k a g.actions) := by
  rw [update_eq_spread h.slot h.action]
  simp [spread, h.synapse]

theorem action_update (h : g.OpenFailure id k p j a s i) :
    ∃ a', (g.update id).2.actions[k]? = some a' ∧ a'.FailedHard := by
  rw [update_eq_spread h.slot h.action]
  exact failedHard_spread h.action h.hard

/-- Elsewhere than at infinity the synapse is stranded once the completion was spread. -/
theorem stranded (h : g.OpenFailure id k p j a s i) (hlevel : s.priority ≠ infinity) :
    (g.update id).2.Stranded k p := by
  have hwaiting : ∃ i ∈ s.inputs, i.slot = k ∧ i.satisfied = false :=
    ⟨i, List.mem_of_getElem? h.input, h.refers, h.unmarked⟩
  refine ⟨h.action_update, _, h.synapse_update, ?_⟩
  rw [Synapse.absorbed_of_failedHard h.hard h.waits hwaiting, if_neg hlevel]
  exact ⟨h.waits.isExecuted, hlevel, hwaiting⟩

/-- At infinity it is ready, unless it waits for another action. -/
theorem ready (h : g.OpenFailure id k p j a s i) (hlevel : s.priority = infinity)
    (hothers : ∀ i ∈ s.inputs, i.slot ≠ k → i.satisfied = true) :
    (s.absorbed k a g.actions).status = .ready ∧
      ∀ i ∈ (s.absorbed k a g.actions).inputs, i.satisfied = true := by
  rw [Synapse.absorbed_of_failedHard h.hard h.waits
    ⟨i, List.mem_of_getElem? h.input, h.refers, h.unmarked⟩, if_pos hlevel]
  exact Synapse.ready_of_mark (Int.le_of_eq hlevel.symm) hothers

end OpenFailure
end Graph

/-- **The exemptions agree up to infinity.**  A synapse waits for an action that failed hard, and
the completion of the action is spread.  The input is marked if the synapse has the priority of
infinity; the test for readiness asks for no more than the mark from infinity on.  So the two agree
unless the priority is above infinity.

At infinity the failure does not hold the synapse up: it is ready if it waits for nothing else.  At
any other priority the synapse fires in no run that follows. -/
theorem exemptions_agree_iff {g : Graph} {id : ActionId} {k p j : Nat} {a : Action} {s : Synapse}
    {i : Input} (h : g.OpenFailure id k p j a s i) :
    let g' := (g.update id).2
    ∃ s' i', g'.synapses[p]? = some s' ∧ s'.inputs[j]? = some i' ∧
      s'.priority = s.priority ∧ i'.slot = k ∧
      (i'.satisfied = true ↔ s.priority = infinity) ∧
      (i'.Exempt g'.actions s'.priority ↔ infinity ≤ s.priority) ∧
      ((i'.satisfied = true ↔ i'.Exempt g'.actions s'.priority) ↔ s.priority ≤ infinity) ∧
      (s.priority = infinity → (∀ i ∈ s.inputs, i.slot ≠ k → i.satisfied = true) →
        s'.status = .ready ∧ s'.inputsSatisfied g'.actions = true) ∧
      (s.priority ≠ infinity → ∀ {ε : Type} (c : Cluster ε) (e : Engine ε) (turns : List Turn),
        ∃ t, (Turn.makeAll c turns (g', e)).1.synapses[p]? = some t ∧
          t.status.isExecuted = false) := by
  intro g'
  obtain ⟨a', ha', hhard⟩ := h.action_update
  obtain ⟨i', hi', hslot, hmarked⟩ :=
    Synapse.exists_input_absorbed g.actions h.hard h.waits h.input h.refers h.unmarked
  have hpriority : (s.absorbed k a g.actions).priority = s.priority :=
    Synapse.priority_eq_of_plan (Synapse.plan_absorbed ..)
  have hexempt : i'.Exempt g'.actions (s.absorbed k a g.actions).priority ↔
      infinity ≤ s.priority := by
    rw [hpriority]
    exact Input.exempt_iff_of_failedHard (by rw [hslot, ha']) hhard _
  refine ⟨_, i', h.synapse_update, hi', hpriority, hslot, hmarked, hexempt, ?_, ?_, ?_⟩
  · rw [hmarked, hexempt]
    omega
  · intro hlevel hothers
    rw [Synapse.inputsSatisfied_iff_of_infinity (by rw [hpriority, hlevel])]
    exact h.ready hlevel hothers
  · intro hlevel ε c e turns
    obtain ⟨t, ht, hwait⟩ := ((h.stranded hlevel).turns (c := c) turns (s := (g', e))).waits
    exact ⟨t, ht, hwait.idle⟩

/-! ### At infinity and above -/

/-- A start, and two more that wait for it, one at infinity and one above. -/
def GraphDocument.pressingDependants : GraphDocument where
  transitionId := 1
  synapses :=
    [{ id := 0
       actions := [{ id := 1, kind := .resource, task := some "start", target := some "node1" }] },
     { id := 1, priority := infinity
       actions := [{ id := 2, kind := .resource, task := some "start", target := some "node2" }]
       inputs := [1] },
     { id := 2, priority := infinity + 1
       actions := [{ id := 3, kind := .resource, task := some "start", target := some "node3" }]
       inputs := [1] }]

/-- The graph once the first start was sent and has failed, before its completion is spread. -/
def Graph.startFailed (g : Graph) : Graph :=
  ((Turn.makeAll .willing [.move .pass]
    (g, (Engine.new { node := "node1" } 0).startTransition)).1.failAction 1 .timedOut).2

/-- Both of the other starts wait for the failure. -/
theorem pressingDependants_wait {g : Graph} (hg : GraphDocument.pressingDependants.toGraph = .ok g)
    {p : Nat} (hp : p ∈ [1, 2]) : ∃ a s i, g.startFailed.OpenFailure 1 0 p 0 a s i ∧
      s.inputs = [i] ∧ s.priority = infinity + (p - 1) := by
  have hfacts : ∀ g, GraphDocument.pressingDependants.toGraph = .ok g →
      g.startFailed.slotOf? 1 = some 0 ∧
      g.startFailed.actions[0]?.map (fun a => (a.status, a.canFail)) =
        some (.failed .timedOut, false) ∧
      ∀ p ∈ ([1, 2] : List Nat),
        g.startFailed.synapses[p]?.map (fun s => (s.status, s.inputs, s.priority)) =
          some (.unfired, [⟨0, false⟩], infinity + (p - 1)) := by
    rintro _ ⟨⟩
    decide +kernel
  obtain ⟨hslot, haction, hsynapses⟩ := hfacts g hg
  obtain ⟨a, ha, hstatus⟩ := Option.map_eq_some_iff.mp haction
  obtain ⟨s, hs, hshape⟩ := Option.map_eq_some_iff.mp (hsynapses p hp)
  simp only [Prod.mk.injEq] at hstatus hshape
  obtain ⟨hunfired, hinputs, hlevel⟩ := hshape
  have hhard : a.FailedHard := ⟨by rw [hstatus.1]; rfl, hstatus.2⟩
  exact ⟨a, s, ⟨0, false⟩, ⟨hslot, ha, hhard, hs, .inl hunfired, by rw [hinputs]; rfl, rfl, rfl⟩,
    hinputs, hlevel⟩

/-- The start at infinity is ready in spite of the failure, and the one above is never sent. -/
theorem pressingDependants_part : ∃ g, GraphDocument.pressingDependants.toGraph = .ok g ∧
    let g' := (g.startFailed.update 1).2
    (∃ s, g'.synapses[1]? = some s ∧ s.status = .ready ∧ s.inputsSatisfied g'.actions = true) ∧
      ∀ (e : Engine Nat) (turns : List Turn), ∃ t,
        (Turn.makeAll .willing turns (g', e)).1.synapses[2]? = some t ∧
          t.status.isExecuted = false := by
  obtain ⟨g, hg⟩ : ∃ g, GraphDocument.pressingDependants.toGraph = .ok g := ⟨_, rfl⟩
  refine ⟨g, hg, ?_, fun e turns => ?_⟩
  · obtain ⟨a, s, i, hopen, hinputs, hlevel⟩ := pressingDependants_wait hg (p := 1) (by simp)
    obtain ⟨s', -, hs', -, -, -, -, -, -, hready, -⟩ := exemptions_agree_iff hopen
    refine ⟨s', hs', hready (by rw [hlevel]; rfl) fun m hm hother => ?_⟩
    rw [hinputs, List.mem_singleton] at hm
    subst hm
    exact absurd hopen.refers hother
  · obtain ⟨a, s, i, hopen, -, hlevel⟩ := pressingDependants_wait hg (p := 2) (by simp)
    obtain ⟨-, -, -, -, -, -, -, -, -, -, hnever⟩ := exemptions_agree_iff hopen
    exact hnever (by rw [hlevel]; decide) .willing e turns

/-- Once the completion of a hard failure was spread, an input for it is marked if and only if the
test for readiness asks for no more than the mark. -/
def Graph.ExemptionsAgree (g : Graph) : Prop :=
  ∀ id k p j a s i, g.OpenFailure id k p j a s i →
    ∀ s' i', (g.update id).2.synapses[p]? = some s' → s'.inputs[j]? = some i' →
      (i'.satisfied = true ↔ i'.Exempt (g.update id).2.actions s'.priority)

/-- The first start times out, and the start above infinity is not told, though the test for
readiness would not mind.  It is not sent, while the one at infinity is. -/
theorem aboveInfinity_disagrees : ∃ g, GraphDocument.pressingDependants.toGraph = .ok g ∧
    ¬ g.startFailed.ExemptionsAgree ∧
    let s := (g, (Engine.new { node := "node1" } 0).startTransition)
    (Move.allCalls .willing [.pass, .timeout 1, .pass] s).map (·.id) = [1, 2] ∧
      (Move.makeAll .willing [.pass, .timeout 1, .pass] s).1.synapses.map
          (fun s => (s.status, s.inputs)) =
        [(.confirmed, []), (.executing, [⟨0, true⟩]), (.unfired, [⟨0, false⟩])] := by
  have hfacts : ∀ g, GraphDocument.pressingDependants.toGraph = .ok g →
      let s := (g, (Engine.new { node := "node1" } 0).startTransition)
      (Move.allCalls .willing [.pass, .timeout 1, .pass] s).map (·.id) = [1, 2] ∧
      (Move.makeAll .willing [.pass, .timeout 1, .pass] s).1.synapses.map
          (fun s => (s.status, s.inputs)) =
        [(.confirmed, []), (.executing, [⟨0, true⟩]), (.unfired, [⟨0, false⟩])] ∧
      (g.startFailed.update 1).2.synapses[2]?.map (fun s => s.inputs.map fun i =>
          (i.satisfied, decide (i.Exempt (g.startFailed.update 1).2.actions s.priority))) =
        some [(false, true)] := by
    rintro _ ⟨⟩
    decide +kernel
  obtain ⟨g, hg⟩ : ∃ g, GraphDocument.pressingDependants.toGraph = .ok g := ⟨_, rfl⟩
  obtain ⟨hcalls, hsynapses, hparted⟩ := hfacts g hg
  refine ⟨g, hg, fun hagree => ?_, hcalls, hsynapses⟩
  obtain ⟨a, s, i, hopen, -, -⟩ := pressingDependants_wait hg (p := 2) (by simp)
  obtain ⟨s', hs', hinputs⟩ := Option.map_eq_some_iff.mp hparted
  obtain ⟨i', hi', hboth⟩ := List.map_eq_singleton_iff.mp hinputs
  simp only [Prod.mk.injEq, decide_eq_true_eq] at hboth
  have hmarked := (hagree 1 0 2 0 a s i hopen s' i' hs' (by rw [hi']; rfl)).mpr hboth.2
  rw [hboth.1] at hmarked
  cases hmarked

end ClusterTransition
