import ClusterTransition.Proofs.Engine.Members
import ClusterTransition.Proofs.Pass.Counting
import ClusterTransition.Proofs.Pass.Visits

/-! # A dry run confirms what it fires

If nothing is made to fail, a dry run confirms each action in the moment in which it is handed over.
So a synapse that fires is confirmed when the last of its actions is (`Graph.Rehearsed.visit_eq`),
and between two visits no synapse executes.

On the way completions are spread to the other synapses.  These stay on their course, as in every
run without failures, and one that a completion makes ready has all its inputs marked
(`Graph.ReadyMarked`).
-/

namespace ClusterTransition

open ClusterTransition.Graph (Edits)

/-! ## What a dry run notes -/

/-- The note that an action was confirmed. -/
def Action.confirmedIn (pass : Nat) (a : Action) : ExecutedAction where
  pass := pass
  id := a.id
  kind := a.kind
  label := a.label
  target := a.target
  outcome := .confirmed

/-- Nothing is made to fail. -/
structure SimulationOptions.Undisturbed (options : SimulationOptions) : Prop where
  fail : options.fail = []
  failDispatch : options.failDispatch = []

namespace Simulator

/-- The dry run after it has confirmed some actions. -/
def confirming (st : Simulator) (actions : List Action) : Simulator :=
  { st with executed := st.executed ++ actions.map (·.confirmedIn st.pass) }

theorem confirming_append (st : Simulator) (actions actions' : List Action) :
    st.confirming (actions ++ actions') = (st.confirming actions).confirming actions' := by
  simp [confirming]

theorem confirming_of_plan (st : Simulator) {actions actions' : List Action}
    (h : actions.map Action.plan = actions'.map Action.plan) :
    st.confirming actions = st.confirming actions' := by
  have hnotes (l : List Action) : l.map (·.confirmedIn st.pass) =
      (l.map Action.plan).map (·.confirmedIn st.pass) := by
    rw [List.map_map]
    rfl
  rw [confirming, confirming, hnotes actions, h, ← hnotes actions']

/-- An action that is handed over is confirmed. -/
theorem execute_eq {id : ActionId} {g : Graph} {st : Simulator} {a : Action}
    (ho : st.options.Undisturbed) (ha : g.action? id = some a) :
    execute id g st = (true, ((g.settle id .confirmed).2.update id).2, st.confirming [a]) := by
  have hfail : shouldFail st.options a = false := by simp [shouldFail, ho.fail]
  have houtcome : outcomeOf st.options a = .confirmed := by
    simp [outcomeOf, ho.failDispatch, hfail]
  simp only [execute, ha, houtcome]
  rfl

end Simulator

/-! ## What stands in the way of no dry run -/

/-- Every action has a way to be carried out, no synapse is vetoed at the start, and each owns
something to carry out. -/
structure Graph.Rehearsable (g : Graph) : Prop where
  channel : ∀ a ∈ g.actions, a.channel?.isSome
  priority : ∀ s ∈ g.synapses, 0 ≤ s.priority
  actions : ∀ s ∈ g.synapses, s.actions ≠ []

theorem Graph.Rehearsable.of_plan {g g' : Graph} (h : g.Rehearsable) (hplan : g'.plan = g.plan) :
    g'.Rehearsable := by
  refine ⟨fun a' ha' => ?_, fun s' hs' => ?_, fun s' hs' => ?_⟩
  · obtain ⟨k, hk⟩ := List.getElem?_of_mem ha'
    obtain ⟨a, ha, heq⟩ := action_of_plan hplan hk
    have := h.channel a (List.mem_of_getElem? ha)
    exact show a'.plan.channel?.isSome from heq ▸ this
  all_goals
    obtain ⟨p, hp⟩ := List.getElem?_of_mem hs'
    obtain ⟨s, hs, heq⟩ := synapse_of_plan hplan hp
  · rw [Synapse.priority_eq_of_plan heq]
    exact h.priority s (List.mem_of_getElem? hs)
  · rw [Synapse.actions_eq_of_plan heq]
    exact h.actions s (List.mem_of_getElem? hs)

/-! ## Ready synapses -/

namespace Synapse

variable {slot : Nat} {a : Action} {actions : List Action} {s : Synapse}

theorem marked_of_inputsSatisfied (h : s.inputsSatisfied actions) :
    ∀ i ∈ s.inputs, i.satisfied := by
  intro i hi
  have hopen := List.all_eq_true.mp h i hi
  unfold Input.isOpen at hopen
  split at hopen
  · exact hopen
  · exact (Bool.and_eq_true_iff.mp hopen).1

/-- A completion leaves no open input to a synapse that is ready after it. -/
theorem marked_absorbed (h : s.status = .ready → ∀ i ∈ s.inputs, i.satisfied)
    (hready : (s.absorbed slot a actions).status = .ready) :
    ∀ i ∈ (s.absorbed slot a actions).inputs, i.satisfied := by
  have hfired : (s.absorbed slot a actions).status.isExecuted = s.status.isExecuted :=
    isExecuted_absorbed
  rw [hready] at hfired
  have hwaits (hwaits : s.Waits) : ∀ i ∈ (s.absorbed slot a actions).inputs, i.satisfied := by
    rw [absorbed_of_waiting hwaits] at hready ⊢
    split at hready
    · rename_i haccepts
      rw [if_pos haccepts]
      simp only [satisfyInputs] at hready ⊢
      split at hready
      · rename_i hopen
        rw [if_pos hopen]
        split at hready
        · rename_i hall
          rw [if_pos hall]
          exact marked_of_inputsSatisfied hall
        · rename_i hall
          rw [if_neg hall]
          -- it was ready before, so that nothing was open
          intro i' hi'
          obtain ⟨i, hi, rfl⟩ := List.mem_map.mp hi'
          simp only [Input.satisfy]
          split
          · rfl
          · exact h hready i hi
      · rename_i hopen
        rw [if_neg hopen]
        exact h hready
    · rename_i haccepts
      rw [if_neg haccepts]
      exact h hready
  cases hs : s.status with
  | unfired => exact hwaits (.inl hs)
  | ready => exact hwaits (.inr hs)
  | executing | confirmed | failed =>
    rw [hs] at hfired
    cases hfired
  | skipped =>
    rw [absorbed_of_isSettled (by rw [hs]; rfl), hs] at hready
    cases hready

end Synapse

namespace Graph

variable {g g' : Graph} {pos slot : Nat} {s : Synapse} {a : Action} {st : Simulator}

/-- A synapse that is ready has all its inputs marked. -/
def ReadyMarked (g : Graph) : Prop :=
  ∀ s ∈ g.synapses, s.status = .ready → ∀ i ∈ s.inputs, i.satisfied

theorem ReadyMarked.edits {id : ActionId} (h : g.ReadyMarked) (hedits : Edits id g g') :
    g'.ReadyMarked := by
  induction hedits with
  | refl => exact h
  | tail _ step ih =>
    intro s' hs' hready
    obtain ⟨p, hp⟩ := List.getElem?_of_mem hs'
    obtain ⟨s, hs, rfl | ⟨k, a, -, -, -, -, rfl⟩⟩ := step.synapse hp
    · exact ih s' (List.mem_of_getElem? hs) hready
    · exact Synapse.marked_absorbed (ih s (List.mem_of_getElem? hs)) hready

theorem ReadyMarked.setSynapseStatus (h : g.ReadyMarked) (hs : g.synapses[pos]? = some s)
    {status : SynapseStatus} (hstatus : status = .ready → ∀ i ∈ s.inputs, i.satisfied) :
    (g.setSynapseStatus pos status).ReadyMarked := by
  intro t' ht' hready
  obtain ⟨p, hp⟩ := List.getElem?_of_mem ht'
  obtain ⟨t, ht, ⟨rfl, rfl⟩ | ⟨-, rfl⟩⟩ := setSynapseStatus_cases hp
  · obtain rfl : s = t := Option.some.inj (hs.symm.trans ht)
    exact hstatus hready
  · exact h t' (List.mem_of_getElem? ht) hready

/-- Where nothing has failed, an input lets its synapse go exactly if it is marked. -/
theorem OnCourse.isOpen_eq (h : g.OnCourse) (i : Input) (priority : Int) :
    i.isOpen g.actions priority = i.satisfied := by
  unfold Input.isOpen
  split
  · rfl
  · rename_i a ha
    have hstatus := statusAt_eq ha
    cases hs : a.status with
    | failed reason => exact absurd (hs ▸ hstatus) (h.unfailed i.slot reason)
    | pending | executed | confirmed => simp [ActionStatus.isFailed]

/-! ## One action -/

/-- The graph in a dry run in which nothing has failed. -/
structure Rehearsed (g : Graph) : Prop where
  wellFormed : g.WellFormed
  able : g.Rehearsable
  course : g.OnCourse
  marks : g.MarksKnown
  ready : g.ReadyMarked

theorem Rehearsed.of_eq (h : g.Rehearsed) (hplan : g'.plan = g.plan)
    (hlevel : g'.abortPriority = g.abortPriority) (hsynapses : g'.synapses = g.synapses)
    (hactions : g'.actions = g.actions) : g'.Rehearsed := by
  have hstatus (k : Nat) : g'.statusAt k = g.statusAt k := by rw [statusAt, hactions, statusAt]
  refine ⟨h.wellFormed.of_plan hplan, h.able.of_plan hplan,
    h.course.of_eq hlevel hsynapses hstatus, ?_, ?_⟩
  · intro s hs i hi hmark
    rw [KnownAt, hstatus]
    exact h.marks s (hsynapses ▸ hs) i hi hmark
  · intro s hs
    exact h.ready s (hsynapses ▸ hs)

/-- A synapse whose inputs are satisfied may be marked as ready, or fire. -/
theorem Rehearsed.setSynapseStatus (h : g.Rehearsed) (hs : g.synapses[pos]? = some s)
    (hwaits : s.Waits) (hinputs : s.inputsSatisfied g.actions) {status : SynapseStatus}
    (hstatus : status = .ready ∨ status = .executing) :
    (g.setSynapseStatus pos status).Rehearsed :=
  have hplan := plan_setSynapseStatus g pos status
  ⟨h.wellFormed.of_plan hplan, h.able.of_plan hplan, h.course.setSynapseStatus hs hwaits hstatus,
    h.marks.setSynapseStatus pos status,
    h.ready.setSynapseStatus hs fun _ => Synapse.marked_of_inputsSatisfied hinputs⟩

/-- The graph after the action at `slot` was handed over and confirmed. -/
def carryOut (g : Graph) (slot : Nat) (id : ActionId) : Graph :=
  (((g.setStatusAt slot .executed).settle id .confirmed).2.update id).2

theorem edits_carryOut (g : Graph) (slot : Nat) (id : ActionId) :
    Edits id (g.setStatusAt slot .executed) (g.carryOut slot id) :=
  Edits.finish _ rfl

theorem plan_carryOut (g : Graph) (slot : Nat) (id : ActionId) :
    (g.carryOut slot id).plan = g.plan :=
  (edits_carryOut g slot id).plan.trans (plan_setStatusAt ..)

theorem actions_carryOut (g : Graph) (slot : Nat) (id : ActionId) :
    (g.carryOut slot id).actions =
      ((g.setStatusAt slot .executed).settle id .confirmed).2.actions :=
  actions_update_settle _ id rfl

/-- One action is confirmed, and no other changes its status. -/
theorem statusAt_carryOut (hw : g.WellFormed) (ha : g.actions[slot]? = some a) (k : Nat) :
    (g.carryOut slot a.id).statusAt k = if slot = k then some .confirmed else g.statusAt k := by
  obtain ⟨hslot, -⟩ := hw.action?_setStatusAt ha .executed
  have hset := statusAt_settle (g.setStatusAt slot .executed) a.id .confirmed k
  rw [statusAt, actions_carryOut, ← statusAt, hset, hslot, statusAt_setStatusAt]
  by_cases hk : slot = k
  · subst hk
    simp [statusAt_eq ha, ActionStatus.isConfirmed]
  · simp [hk]

/-- An executing synapse is confirmed with the last of its actions. -/
theorem synapse_carryOut (hw : g.WellFormed) (ha : g.actions[slot]? = some a)
    (hs : g.synapses[pos]? = some s) (hexec : s.status = .executing) :
    (g.carryOut slot a.id).synapses[pos]? =
      some (if s.othersConfirmed (g.carryOut slot a.id).actions slot
        then { s with status := .confirmed } else s) := by
  obtain ⟨hslot, -⟩ := hw.action?_setStatusAt ha .executed
  have hplan := plan_settle (g.setStatusAt slot .executed) a.id .confirmed
  obtain ⟨b, hb, -, -⟩ := exists_action_of_slotOf? ((slotOf?_eq_of_plan hplan a.id).trans hslot)
  have hknown : b.status.isConfirmed := by
    have hstatus := statusAt_carryOut hw ha slot
    simp only [statusAt, actions_carryOut, hb, if_true, Option.map_some, Option.some.injEq]
      at hstatus
    rw [hstatus]
    rfl
  have hall : ∀ c, ((g.setStatusAt slot .executed).settle a.id .confirmed).2.actions[slot]? = some c →
      c.status.isConfirmed := by
    intro c hc
    exact Option.some.inj (hb.symm.trans hc) ▸ hknown
  rw [carryOut, update_of_confirmed ((slotOf?_eq_of_plan hplan a.id).trans hslot) hb hknown]
  simp only [List.getElem?_map, synapses_settle, synapses_setStatusAt, hs, Option.map_some,
    Synapse.absorbed_of_executing hexec hall]

theorem Rehearsed.carryOut (h : g.Rehearsed) (hs : g.synapses[pos]? = some s)
    (hfired : s.status.isExecuted) (hslot : slot ∈ s.actions) (ha : g.actions[slot]? = some a)
    (hpending : a.status = .pending) : (g.carryOut slot a.id).Rehearsed := by
  have hw := h.wellFormed
  have hplan := plan_carryOut g slot a.id
  have hstatus : g.statusAt slot = some .pending := hpending ▸ statusAt_eq ha
  have hmark := h.course.mark hw hs hfired hslot hstatus
  obtain ⟨hfind, -⟩ := hw.action?_setStatusAt ha .executed
  have hbegun : (g.setStatusAt slot .executed).Begun a.id :=
    .of_slot hfind (by simp [statusAt_eq (getElem?_setStatusAt ha .executed)])
  have hready : (g.setStatusAt slot .executed).ReadyMarked := h.ready
  exact ⟨hw.of_plan hplan, h.able.of_plan hplan,
    hmark.finish (hw.of_plan (plan_setStatusAt ..)) hbegun,
    (h.marks.setStatusAt (.inl hstatus)).edits (edits_carryOut ..),
    hready.edits (edits_carryOut ..)⟩

/-- A pending action is handed over and confirmed. -/
theorem Rehearsed.initiateAction_eq (h : g.Rehearsed) (ho : st.options.Undisturbed)
    (ha : g.actions[slot]? = some a) (hpending : a.status = .pending) :
    initiateAction Simulator.dispatcher slot g st =
      (true, g.carryOut slot a.id, st.confirming [a]) := by
  obtain ⟨channel, hchannel⟩ :=
    Option.isSome_iff_exists.mp (h.able.channel a (List.mem_of_getElem? ha))
  obtain ⟨-, hfind⟩ := h.wellFormed.action?_setStatusAt ha .executed
  have hexecute := Simulator.execute_eq ho hfind
  simp only [initiateAction, ha, hpending, ActionStatus.isExecuted, Bool.false_eq_true, if_false,
    hchannel]
  exact hexecute

/-! ## One synapse -/

/-- **A synapse that fires is confirmed with all its actions.** -/
theorem Rehearsed.fires (done : List Nat) {slots : List Nat} (h : g.Rehearsed) (ho : st.options.Undisturbed)
    (hs : g.synapses[pos]? = some s) (hexec : s.status = .executing)
    (hactions : s.actions = done ++ slots) (hne : slots ≠ [])
    (hdone : ∀ k ∈ done, g.statusAt k = some .confirmed)
    (hpending : ∀ k ∈ slots, g.statusAt k = some .pending) :
    ∃ g', fireActions Simulator.dispatcher pos slots g st =
        (true, g', st.confirming (slots.filterMap (g.actions[·]?))) ∧ g'.Rehearsed ∧
      ∃ s', g'.synapses[pos]? = some s' ∧ s'.status = .confirmed := by
  induction slots generalizing g st done with
  | nil => exact absurd rfl hne
  | cons slot slots ih =>
    obtain ⟨a, ha, hstatus⟩ := Option.map_eq_some_iff.mp (hpending slot (List.mem_cons_self ..))
    have hw := h.wellFormed
    have hmem := List.mem_of_getElem? hs
    have hslot : slot ∈ s.actions := by simp [hactions]
    have hnodup := hactions ▸ hw.nodup_actions hmem
    have hnew : slot ∉ slots := (List.nodup_cons.mp (List.nodup_append.mp hnodup).2.1).1
    have hnext := h.carryOut hs (by rw [hexec]; rfl) hslot ha hstatus
    have hinitiate := h.initiateAction_eq ho ha hstatus
    have hafter := synapse_carryOut hw ha hs hexec
    have hat := statusAt_carryOut hw ha
    have hdone' : ∀ k ∈ done ++ [slot], (g.carryOut slot a.id).statusAt k = some .confirmed := by
      intro k hk
      rw [hat]
      split
      · rfl
      · rename_i hk'
        exact hdone k (by simpa [Ne.symm hk'] using hk)
    have hpending' : ∀ k ∈ slots, (g.carryOut slot a.id).statusAt k = some .pending := by
      intro k hk
      rw [hat, if_neg, hpending k (List.mem_cons_of_mem _ hk)]
      rintro rfl
      exact hnew hk
    simp only [fireActions, hinitiate]
    cases slots with
    | nil =>
      -- the last action
      have hall : s.othersConfirmed (g.carryOut slot a.id).actions slot = true := by
        by_contra hopen
        obtain ⟨k, hk, hunknown⟩ :=
          Synapse.exists_open_of_not_othersConfirmed (Bool.eq_false_iff.mpr hopen)
        exact hunknown ⟨_, hdone' k (hactions ▸ hk), rfl⟩
      rw [if_pos hall] at hafter
      exact ⟨_, by simp [fireActions, ha], hnext, _, hafter, rfl⟩
    | cons next slots =>
      have hplan := plan_carryOut g slot a.id
      have hopen : ¬ s.othersConfirmed (g.carryOut slot a.id).actions slot := by
        intro hall
        have hlt : ∀ k ∈ s.actions, k < (g.carryOut slot a.id).actions.length := fun k hk =>
          actions_length_of_plan hplan ▸ hw.slot_lt hmem hk
        have hne : next ≠ slot := by
          rintro rfl
          exact hnew (List.mem_cons_self ..)
        obtain ⟨status, hknown, hc⟩ :=
          Synapse.known_of_othersConfirmed hlt hall (k := next) (by simp [hactions]) hne
        rw [hpending' next (List.mem_cons_self ..), Option.some.injEq] at hknown
        subst hknown
        cases hc
      rw [if_neg hopen] at hafter
      have ho' : (st.confirming [a]).options.Undisturbed := ho
      obtain ⟨g', hfire, hrehearsed, hconfirmed⟩ := ih (done ++ [slot]) hnext ho' hafter
        (by simp [hactions]) (List.cons_ne_nil _ _) hdone' hpending'
      refine ⟨g', ?_, hrehearsed, hconfirmed⟩
      rw [hfire]
      have hrest := Simulator.confirming_of_plan (st.confirming [a])
        (map_plan_filterMap hplan (next :: slots))
      rw [hrest, ← Simulator.confirming_append]
      rw [List.filterMap_cons_some ha]
      rfl

/-- **A visit fires a synapse that waits and has its inputs satisfied**, and the synapse is confirmed
when the visit is over.  The others see no more of it than the completions of its actions. -/
theorem Rehearsed.visit_eq (h : g.Rehearsed) (ho : st.options.Undisturbed)
    (hs : g.synapses[pos]? = some s) (hwaits : s.Waits) (hinputs : s.inputsSatisfied g.actions) :
    ∃ g', visit Simulator.dispatcher pos s g st =
        (g', st.confirming (s.actions.filterMap (g.actions[·]?))) ∧ g'.Rehearsed ∧
      (g.count fun c => { c with fired := c.fired + 1 }).Spreads pos s.actions g' ∧
      ∃ s', g'.synapses[pos]? = some s' ∧ s'.status = .confirmed := by
  have hmem := List.mem_of_getElem? hs
  have hlevel : g.abortPriority ≤ s.priority := h.course.level ▸ h.able.priority s hmem
  rw [visit_fires Simulator.dispatcher_steady hwaits hinputs fun _ _ _ _ _ => ⟨hlevel, rfl⟩]
  -- the synapse is marked as ready, and then as executing
  let ready := (g.setSynapseStatus pos .ready).count fun c => { c with fired := c.fired + 1 }
  have hready : ready.Rehearsed :=
    (h.setSynapseStatus hs hwaits hinputs (.inl rfl)).of_eq rfl rfl rfl rfl
  have hatReady : ready.synapses[pos]? = some { s with status := .ready } :=
    setSynapseStatus_getElem? hs .ready
  have hexec : (ready.setSynapseStatus pos .executing).Rehearsed :=
    hready.setSynapseStatus hatReady (.inr rfl) hinputs (.inr rfl)
  have hpending := ((h.course.synapses s hmem).of_waits hwaits).1
  obtain ⟨g', hfire, hrehearsed, s', hs', hconfirmed⟩ := hexec.fires [] ho
    (setSynapseStatus_getElem? hatReady .executing) rfl rfl (h.able.actions s hmem) (by simp)
    hpending
  have hsynapse : fireSynapse Simulator.dispatcher pos s.actions
      ((g.setSynapseStatus pos .ready).count fun c => { c with fired := c.fired + 1 }) st =
        (true, g', st.confirming (s.actions.filterMap (g.actions[·]?))) := hfire
  have hknown : g'.isConfirmedAt pos = true := by
    simp [isConfirmedAt, hs', hconfirmed, SynapseStatus.isConfirmed]
  refine ⟨g', ?_, hrehearsed,
    fireSynapse_spreads Simulator.dispatcher_handles h.wellFormed hsynapse, s', hs', hconfirmed⟩
  simp only [fireCounted, hsynapse, if_true, hknown]

end Graph
end ClusterTransition
