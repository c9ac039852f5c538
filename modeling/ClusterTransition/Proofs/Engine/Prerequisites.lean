import ClusterTransition.Proofs.Document.Loading
import ClusterTransition.Proofs.Engine.Moves

/-! # What a dispatched action has waited for

A synapse fires on the word of its marked inputs, and the marks are set far from there: by any
report, for any synapse, in the middle of passes too.  What makes them trustworthy is one invariant,
that a marked input refers to an action whose result is known (`Graph.MarksKnown`).  Edits on behalf
of an action keep it because they mark inputs only after the action is settled, and because a known
result is never taken back; a failure may replace it, but that is a known result too.

While a synapse fires its inputs stay cleared, for the actions that it hands over were pending and
so are not among those that it waited for.  Hence every call of a dispatcher, by an engine or in a
dry run, is for an action of a synapse that has nothing left to wait for (`dispatched_cleared`).
-/

namespace ClusterTransition

open ClusterTransition.Graph (Edit Edits)

/-! ## Marks -/

namespace Graph

/-- The result of the action at a slot is known. -/
def KnownAt (g : Graph) (slot : Nat) : Prop :=
  ∃ status, g.statusAt slot = some status ∧ status.isConfirmed

/-- Known results stay known. -/
def KeepsKnown (g g' : Graph) : Prop := ∀ slot, g.KnownAt slot → g'.KnownAt slot

/-- Marked inputs refer to actions whose results are known. -/
def MarksKnown (g : Graph) : Prop :=
  ∀ s ∈ g.synapses, ∀ i ∈ s.inputs, i.satisfied → g.KnownAt i.slot

theorem Fresh.marksKnown {g : Graph} (h : g.Fresh) : g.MarksKnown := by
  intro s hs i hi hmark
  simp [h.inputs s hs i hi] at hmark

/-- Marks stay sound if no known result is lost and no input is marked without one. -/
theorem MarksKnown.of_inputs {g g' : Graph} (hg : g.MarksKnown) (hkeep : KeepsKnown g g')
    (hinputs : ∀ s' ∈ g'.synapses, ∀ i ∈ s'.inputs, i.satisfied →
      (∃ s ∈ g.synapses, i ∈ s.inputs) ∨ g.KnownAt i.slot) : g'.MarksKnown := by
  intro s' hs' i hi hmark
  refine hkeep i.slot ?_
  rcases hinputs s' hs' i hi hmark with ⟨s, hs, his⟩ | hknown
  · exact hg s hs i his hmark
  · exact hknown

/-! ## Edits -/

theorem keepsKnown_edits {id : ActionId} {g g' : Graph} (h : Edits id g g') : KeepsKnown g g' := by
  rintro slot ⟨status, hstatus, hknown⟩
  exact ⟨status, h.keeps_confirmed hstatus hknown, hknown⟩

/-- The completion of an action marks inputs that refer to it, and no others. -/
theorem mem_inputs_absorbed {slot : Nat} {a : Action} {actions : List Action} {s : Synapse}
    {i : Input} (hi : i ∈ (s.absorbed slot a actions).inputs) : i ∈ s.inputs ∨ i.slot = slot := by
  have hmarks (hi : i ∈ (s.satisfyInputs actions slot).2.inputs) :
      i ∈ s.inputs ∨ i.slot = slot := by
    rw [Synapse.inputs_satisfyInputs] at hi
    obtain ⟨j, hj, rfl⟩ := List.mem_map.mp hi
    simp only [Input.satisfy]
    split
    · exact .inr ‹_›
    · exact .inl hj
  simp only [Synapse.absorbed, Synapse.absorb] at hi
  split at hi
  · exact .inl hi
  · exact .inl hi
  · exact .inl hi
  · split at hi <;> exact .inl hi
  all_goals
    split at hi
    · exact hmarks hi
    · exact .inl hi

theorem MarksKnown.edit {id : ActionId} {g g' : Graph} (hg : g.MarksKnown) (h : Edit id g g') :
    g'.MarksKnown := by
  refine hg.of_inputs (keepsKnown_edits (.single h)) fun s' hs' i hi _ => ?_
  obtain ⟨p, hp⟩ := List.getElem?_of_mem hs'
  obtain ⟨s, hs, rfl | ⟨k, a, -, hget, hc, -, rfl⟩⟩ := h.synapse hp
  · exact .inl ⟨s', List.mem_of_getElem? hs, hi⟩
  · rcases mem_inputs_absorbed hi with hi | rfl
    · exact .inl ⟨s, List.mem_of_getElem? hs, hi⟩
    · exact .inr ⟨a.status, statusAt_eq hget, hc⟩

theorem MarksKnown.edits {id : ActionId} {g g' : Graph} (hg : g.MarksKnown) (h : Edits id g g') :
    g'.MarksKnown := by
  induction h with
  | refl => exact hg
  | tail _ step ih => exact ih.edit step

theorem MarksKnown.reported {g g' : Graph} (hg : g.MarksKnown) (h : Reported g g') :
    g'.MarksKnown := by
  induction h with
  | refl => exact hg
  | tail _ step ih =>
    obtain ⟨id, hedits⟩ := step
    exact ih.edits hedits

/-! ## What the pass itself writes -/

theorem MarksKnown.setSynapseStatus {g : Graph} (hg : g.MarksKnown) (pos : Nat)
    (status : SynapseStatus) : (g.setSynapseStatus pos status).MarksKnown := by
  refine hg.of_inputs (fun _ hslot => hslot) fun s' hs' i hi _ => .inl ?_
  obtain ⟨p, hp⟩ := List.getElem?_of_mem hs'
  simp only [Graph.setSynapseStatus, List.getElem?_modify] at hp
  obtain ⟨s, hs, rfl⟩ := Option.map_eq_some_iff.mp hp
  refine ⟨s, List.mem_of_getElem? hs, ?_⟩
  split at hi <;> exact hi

/-- No known result is lost if a pending action is handed over, or if an action fails. -/
theorem keepsKnown_setStatusAt {g : Graph} {slot : Nat} {status : ActionStatus}
    (h : g.statusAt slot = some .pending ∨ status.isConfirmed) :
    KeepsKnown g (g.setStatusAt slot status) := by
  rintro k ⟨old, hold, hknown⟩
  by_cases hk : slot = k
  · subst hk
    rcases h with h | h
    · rw [h, Option.some.injEq] at hold
      subst hold
      cases hknown
    · exact ⟨status, by simp [statusAt_setStatusAt, hold], h⟩
  · exact ⟨old, by simp [statusAt_setStatusAt, hk, hold], hknown⟩

theorem MarksKnown.setStatusAt {g : Graph} (hg : g.MarksKnown) {slot : Nat} {status : ActionStatus}
    (h : g.statusAt slot = some .pending ∨ status.isConfirmed) :
    (g.setStatusAt slot status).MarksKnown :=
  hg.of_inputs (keepsKnown_setStatusAt h) fun s hs _ hi _ => .inl ⟨s, hs, hi⟩

theorem MarksKnown.failFiring {g : Graph} (hg : g.MarksKnown) (pos slot : Nat) :
    (g.failFiring pos slot).MarksKnown :=
  (hg.setStatusAt (.inr rfl : _ ∨ (ActionStatus.failed .initiation).isConfirmed)).setSynapseStatus
    pos .failed

end Graph

/-! ## Cleared synapses -/

/-- The results of all actions that the synapse waits for are known, and none of them is a failure
that holds the synapse up. -/
def Synapse.Cleared (actions : List Action) (s : Synapse) : Prop :=
  ∀ i ∈ s.inputs, ∃ a, actions[i.slot]? = some a ∧ a.status.isConfirmed ∧
    (a.status.isFailed → a.canFail ∨ infinity ≤ s.priority)

/-- The call is for an action of a synapse that has nothing left to wait for. -/
def DispatchCall.Cleared (call : DispatchCall) : Prop :=
  ∃ s, call.graph.synapseOf? call.id = some s ∧ s.Cleared call.graph.actions

/-- A synapse whose inputs are satisfied is cleared, since the marks can be trusted. -/
theorem Synapse.cleared_of_inputsSatisfied {g : Graph} {s : Synapse} (hw : g.WellFormed)
    (hmarks : g.MarksKnown) (hs : s ∈ g.synapses) (h : s.inputsSatisfied g.actions) :
    s.Cleared g.actions := by
  intro i hi
  have hlt := hw.inputs s hs i hi
  have ha := List.getElem?_eq_getElem hlt
  have hopen := List.all_eq_true.mp h i hi
  simp only [Input.isOpen, ha, Bool.and_eq_true, Bool.not_eq_eq_eq_not, Bool.not_true,
    Bool.and_eq_false_imp, decide_eq_false_iff_not] at hopen
  obtain ⟨hmark, hopen⟩ := hopen
  obtain ⟨status, hstatus, hknown⟩ := hmarks s hs i hi hmark
  simp only [Graph.statusAt, ha, Option.map_some, Option.some.injEq] at hstatus
  refine ⟨_, ha, hstatus ▸ hknown, fun hfailed => ?_⟩
  by_cases hcan : g.actions[i.slot].canFail = true
  · exact .inl hcan
  · exact .inr (Int.not_lt.mp (hopen (by simp [hfailed, hcan])))

/-- A cleared synapse stays cleared while known results stay as they are. -/
theorem Synapse.Cleared.of_plan {g g' : Graph} {s s' : Synapse} (h : s.Cleared g.actions)
    (hplan : g'.plan = g.plan) (hs : s'.plan = s.plan)
    (hkeep : ∀ k status, g.statusAt k = some status → status.isConfirmed →
      g'.statusAt k = some status) : s'.Cleared g'.actions := by
  intro i' hi'
  have hmem : i'.slot ∈ s'.inputs.map Input.slot := List.mem_map_of_mem hi'
  rw [Synapse.inputs_eq_of_plan hs] at hmem
  obtain ⟨i, hi, hslot⟩ := List.mem_map.mp hmem
  obtain ⟨a, ha, hknown, hopen⟩ := h i hi
  rw [hslot] at ha
  have hstatus := hkeep i'.slot a.status (Graph.statusAt_eq ha) hknown
  obtain ⟨a', ha', heq⟩ := Option.map_eq_some_iff.mp hstatus
  obtain ⟨b, hb, hab⟩ := Graph.action_of_plan hplan ha'
  rw [ha, Option.some.injEq] at hb
  subst hb
  refine ⟨a', ha', by rwa [heq], fun hfailed => ?_⟩
  rw [Action.canFail_eq_of_plan hab, Synapse.priority_eq_of_plan hs]
  exact hopen (heq ▸ hfailed)

/-! ## A pass -/

/-- Where a pass stands with respect to the inputs: the marks can be trusted, all calls so far were
for cleared synapses, and the synapse that is being fired is cleared. -/
structure PassState.Clear {σ : Type} (x : PassState (σ × List DispatchCall)) : Prop where
  wellFormed : x.graph.WellFormed
  marks : x.graph.MarksKnown
  calls : ∀ call ∈ x.state.2, call.Cleared
  firing : ∀ pos slots, x.stage = .firing pos slots → ∃ s, x.graph.synapses[pos]? = some s ∧
    slots ⊆ s.actions ∧ s.Cleared x.graph.actions

section Pass

variable {σ : Type} {d : Dispatcher σ}

/-- A synapse that is cleared when one of its pending actions is handed over makes a cleared
call, and is cleared after it. -/
theorem cleared_of_dispatch {g g' : Graph} {pos slot : Nat} {s : Synapse} {a : Action}
    (hw : g.WellFormed) (hs : g.synapses[pos]? = some s) (hslot : slot ∈ s.actions)
    (hclear : s.Cleared g.actions) (ha : g.actions[slot]? = some a) (hpending : a.status = .pending)
    (hedits : Edits a.id (g.setStatusAt slot .executed) g') (channel : Channel) :
    DispatchCall.Cleared ⟨channel, a.id, g.setStatusAt slot .executed⟩ ∧
      ∃ s', g'.synapses[pos]? = some s' ∧ s'.actions = s.actions ∧ s'.Cleared g'.actions := by
  have hplan : (g.setStatusAt slot .executed).plan = g.plan := by simp
  -- what the synapse waits for is known, and so it is not the pending action
  have hkeep : ∀ k status, g.statusAt k = some status → status.isConfirmed →
      (g.setStatusAt slot .executed).statusAt k = some status := by
    intro k status hstatus hknown
    rw [Graph.statusAt_setStatusAt, if_neg, hstatus]
    rintro rfl
    simp only [Graph.statusAt, ha, Option.map_some, Option.some.injEq] at hstatus
    rw [← hstatus, hpending] at hknown
    cases hknown
  have hclear₁ : s.Cleared (g.setStatusAt slot .executed).actions := hclear.of_plan hplan rfl hkeep
  constructor
  · obtain ⟨b, hb, hab⟩ : ∃ b, (g.setStatusAt slot .executed).actions[slot]? = some b ∧
        b.id = a.id := ⟨_, Graph.getElem?_setStatusAt ha .executed, rfl⟩
    have howner := (hw.of_plan hplan).synapseOf?_id hb hs hslot
    exact ⟨s, hab ▸ howner, hclear₁⟩
  · obtain ⟨s', hs', hplan'⟩ := Graph.synapse_of_plan hedits.plan.symm hs
    refine ⟨s', hs', (Synapse.actions_eq_of_plan hplan').symm, ?_⟩
    exact hclear₁.of_plan hedits.plan hplan'.symm fun k status h hc => hedits.keeps_confirmed h hc

theorem PassState.Clear.step (hd : d.Handles) {x y : PassState (σ × List DispatchCall)}
    (hx : x.Clear) (h : PassStep d.recording x y) : y.Clear := by
  have hw := hx.wellFormed.of_plan (h.plan hd.recording)
  have hidle {stage : PassStage} (hstage : stage = .visiting) {P : Nat → List Nat → Prop} :
      ∀ pos slots, stage = .firing pos slots → P pos slots := by
    rintro pos slots rfl
    cases hstage
  cases h with
  | count | conclude => exact ⟨hw, hx.marks, hx.calls, hidle rfl⟩
  | ready | skip => exact ⟨hw, hx.marks.setSynapseStatus _ _, hx.calls, hidle rfl⟩
  | fired => exact ⟨hw, hx.marks, hx.calls, hidle rfl⟩
  | @fire g st pos s hs hready hinputs =>
    refine ⟨hw, hx.marks.setSynapseStatus _ _, hx.calls, ?_⟩
    intro pos slots hstage
    cases hstage
    refine ⟨_, Graph.setSynapseStatus_getElem? hs .executing, List.Subset.refl _, ?_⟩
    have hclear := Synapse.cleared_of_inputsSatisfied hx.wellFormed hx.marks
      (List.mem_of_getElem? hs) hinputs
    exact hclear
  | @dispatch g g' st st' pos slot slots a channel ha hpending hchannel hgoes =>
    obtain ⟨s, hs, hsub, hclear⟩ := hx.firing pos _ rfl
    have hedits := hd.recording.edits hgoes
    obtain ⟨hcall, s', hs', hacts, hclear'⟩ := cleared_of_dispatch hx.wellFormed hs
      (hsub (List.mem_cons_self ..)) hclear ha hpending hedits channel
    refine ⟨hw, (hx.marks.setStatusAt (.inl (by simp [Graph.statusAt, ha, hpending]))).edits hedits,
      ?_, ?_⟩
    · simp only [Dispatcher.recording, Prod.mk.injEq] at hgoes
      obtain ⟨-, -, rfl⟩ := hgoes
      intro call hmem
      rcases List.mem_append.mp hmem with hmem | hmem
      · exact hx.calls call hmem
      · rw [List.mem_singleton.mp hmem]
        exact hcall
    · intro pos slots hstage
      cases hstage
      exact ⟨s', hs', hacts ▸ List.Subset.trans (List.subset_cons_self ..) hsub, hclear'⟩
  | @refuse g g' st st' pos slot slots a channel ha hpending hchannel hstays =>
    obtain ⟨s, hs, hsub, hclear⟩ := hx.firing pos _ rfl
    have hedits := hd.recording.edits hstays
    obtain ⟨hcall, -⟩ := cleared_of_dispatch hx.wellFormed hs
      (hsub (List.mem_cons_self ..)) hclear ha hpending hedits channel
    refine ⟨hw, ((hx.marks.setStatusAt (.inl (by simp [Graph.statusAt, ha, hpending]))).edits
      hedits).failFiring pos slot, ?_, hidle rfl⟩
    simp only [Dispatcher.recording, Prod.mk.injEq] at hstays
    obtain ⟨-, -, rfl⟩ := hstays
    intro call hmem
    rcases List.mem_append.mp hmem with hmem | hmem
    · exact hx.calls call hmem
    · rw [List.mem_singleton.mp hmem]
      exact hcall
  | unroutable pos slot slots ha hpending hchannel =>
    exact ⟨hw, (hx.marks.setStatusAt (.inl (by simp [Graph.statusAt, ha, hpending]))).failFiring
      _ _, hx.calls, hidle rfl⟩
  | again => exact ⟨hw, hx.marks.failFiring _ _, hx.calls, hidle rfl⟩

/-- **The calls of a pass are for cleared synapses**, and the marks can be trusted after it. -/
theorem Graph.calls_cleared (hsteady : d.Steady) (hd : d.Handles) {g : Graph} (hw : g.WellFormed)
    (hmarks : g.MarksKnown) (st : σ) :
    (∀ call ∈ g.calls d st, call.Cleared) ∧ (g.run d st).2.1.MarksKnown := by
  have hstart : PassState.Clear ⟨.visiting, g, (st, ([] : List DispatchCall))⟩ :=
    ⟨hw, hmarks, by simp, by simp⟩
  have hend := Graph.run_induction hsteady.recording (fun _ _ hstep hx => hx.step hd hstep)
    g (st, []) hstart
  refine ⟨hend.calls, ?_⟩
  rw [Graph.run_recording d g (st, [])]
  exact hend.marks

end Pass

/-! ## Runs -/

/-- A graph whose marks can be trusted, with a plan as the loader makes it. -/
structure Graph.Sound (g : Graph) : Prop where
  wellFormed : g.WellFormed
  marks : g.MarksKnown

theorem GraphDocument.sound_of_toGraph {d : GraphDocument} {g : Graph} (h : d.toGraph = .ok g) :
    g.Sound :=
  have hloaded := loadedAs_of_toGraph h
  ⟨hloaded.wellFormed, hloaded.fresh.marksKnown⟩

theorem Move.sound {ε : Type} (c : Cluster ε) (m : Move) {s : Graph × Engine ε} (h : s.1.Sound) :
    (m.make c s).1.Sound := by
  refine ⟨h.wellFormed.of_plan (m.plan c s), ?_⟩
  by_cases hm : m = .pass
  · subst hm
    exact (Graph.calls_cleared (Engine.dispatcher_steady c) (Engine.dispatcher_handles c)
      h.wellFormed h.marks s.2).2
  · exact h.marks.reported (m.reported c hm s)

/-- An engine makes cleared calls only, whatever it is told in between. -/
theorem Move.allCalls_cleared {ε : Type} (c : Cluster ε) (moves : List Move)
    {s : Graph × Engine ε} (h : s.1.Sound) : ∀ call ∈ allCalls c moves s, call.Cleared := by
  induction moves generalizing s with
  | nil => simp [allCalls]
  | cons m moves ih =>
    intro call hmem
    rcases List.mem_append.mp hmem with hmem | hmem
    · cases m with
      | pass =>
        exact (Graph.calls_cleared (Engine.dispatcher_steady c) (Engine.dispatcher_handles c)
          h.wellFormed h.marks s.2).1 call hmem
      | result | timeout | fencing | nodeSafe | abort => cases hmem
    · exact ih (m.sound c h) call hmem

/-- A dry run makes cleared calls only. -/
theorem Simulator.allCalls_cleared (n : Nat) {s : Graph × Simulator} (h : s.1.Sound) :
    ∀ call ∈ allCalls n s, call.Cleared := by
  induction n generalizing s with
  | zero => simp [allCalls]
  | succ n ih =>
    obtain ⟨hcalls, hmarks⟩ := Graph.calls_cleared dispatcher_steady dispatcher_handles
      h.wellFormed h.marks { s.2 with pass := s.2.pass + 1 }
    have hw := h.wellFormed.of_plan (Graph.plan_run dispatcher_steady dispatcher_handles s.1
      { s.2 with pass := s.2.pass + 1 })
    intro call hmem
    rcases List.mem_append.mp hmem with hmem | hmem
    · exact hcalls call hmem
    · split at hmem
      · cases hmem
      · exact ih (s := onePass s) ⟨hw, hmarks⟩ call hmem

/-- **Nothing is dispatched before what it waits for.**  On a graph of the loader, every call of a
dispatch handler is for an action of a synapse all of whose inputs refer to actions with a known
result, and to failed ones only where that does not hold the synapse up.  This holds for every
engine, whatever passes, reports and aborts it sees in whatever order, and for every dry run. -/
theorem dispatched_cleared {d : GraphDocument} {g : Graph} (h : d.toGraph = .ok g) :
    (∀ (ε : Type) (c : Cluster ε) (e : Engine ε) (moves : List Move),
      ∀ call ∈ Move.allCalls c moves (g, e), call.Cleared) ∧
    ∀ options : SimulationOptions,
      ∀ call ∈ Simulator.allCalls options.maxPasses (g, { options }), call.Cleared :=
  have hsound := GraphDocument.sound_of_toGraph h
  ⟨fun _ c _ moves => Move.allCalls_cleared c moves hsound,
   fun options => Simulator.allCalls_cleared options.maxPasses hsound⟩

/-- Two starts, of which the second waits for the first. -/
def GraphDocument.chain : GraphDocument where
  transitionId := 1
  synapses :=
    [{ id := 0
       actions :=
         [{ id := 1, kind := .resource, task := some "start", target := some "node1" }] },
     { id := 1
       actions := [{ id := 2, kind := .resource, task := some "start", target := some "node2" }]
       inputs := [1] }]

/-- An engine sends the first start in its first pass, and if its timer expires never the second;
a dry run executes both. -/
theorem chain_cleared : ∃ g, GraphDocument.chain.toGraph = .ok g ∧
    (∀ call ∈ Move.allCalls .willing [.pass, .timeout 1, .pass]
      (g, Engine.new { node := "node1" } 0), call.Cleared) ∧
    (∀ call ∈ Simulator.allCalls 3 (g, { options := { maxPasses := 3 } }), call.Cleared) ∧
    (Move.allCalls .willing [.pass, .timeout 1, .pass]
      (g, Engine.new { node := "node1" } 0)).map (·.id) = [1] ∧
    (Simulator.allCalls 3 (g, { options := { maxPasses := 3 } })).map (·.id) = [1, 2] :=
  ⟨_, rfl, (dispatched_cleared (d := .chain) rfl).1 _ _ _ _,
    (dispatched_cleared (d := .chain) rfl).2 { maxPasses := 3 }, rfl, rfl⟩

end ClusterTransition
