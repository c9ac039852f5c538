import ClusterTransition.Proofs.Graph.Handling

/-! # Graphs on their course

As long as nothing fails and nobody aborts, a graph is on its course (`Graph.OnCourse`): each
synapse waits, executes or is confirmed, and the statuses of its actions and the marks of its inputs
agree with that.  In particular a synapse that waits has marked the input of every action that is
confirmed, so that it waits for nothing that is over.

An advance on behalf of an action keeps the course, if the action was handed over before
(`Graph.OnCourse.advances`).  An action that is still pending may not be completed: it would be
confirmed on behalf of a synapse that has not fired.
-/

namespace ClusterTransition

open ClusterTransition.Graph (Advance Advances)

/-- The synapse has not fired, and may. -/
def Synapse.Waits (s : Synapse) : Prop := s.status = .unfired ∨ s.status = .ready

/-- The status of a synapse agrees with its actions and with its inputs. -/
inductive Synapse.OnCourse (g : Graph) (s : Synapse) : Prop where
  | waiting (hwaits : s.Waits) (hactions : ∀ k ∈ s.actions, g.statusAt k = some .pending)
      (hinputs : ∀ i ∈ s.inputs, g.statusAt i.slot = some .confirmed → i.satisfied = true)
  | executing (hstatus : s.status = .executing)
  | confirmed (hstatus : s.status = .confirmed)
      (hactions : ∀ k ∈ s.actions, g.statusAt k = some .confirmed)

namespace Graph

/-- No action has failed, nothing is vetoed, and every synapse is on its course. -/
structure OnCourse (g : Graph) : Prop where
  level : g.abortPriority = 0
  unfailed : ∀ k reason, g.statusAt k ≠ some (.failed reason)
  synapses : ∀ s ∈ g.synapses, s.OnCourse g

/-- The action with this id, if there is one, was handed over. -/
def Begun (g : Graph) (id : ActionId) : Prop :=
  ∀ k, g.slotOf? id = some k → g.statusAt k ≠ some .pending

variable {g g' : Graph} {id : ActionId}

/-! ## Actions that were handed over -/

theorem Begun.of_status (h : g.Begun id) (hplan : g'.plan = g.plan)
    (hstatus : ∀ k, g'.statusAt k = some .pending → g.statusAt k = some .pending) :
    g'.Begun id := by
  intro k hk hpending
  rw [slotOf?_eq_of_plan hplan] at hk
  exact h k hk (hstatus k hpending)

theorem Begun.of_slot {slot : Nat} (hslot : g.slotOf? id = some slot)
    (hstatus : g.statusAt slot ≠ some .pending) : g.Begun id := by
  intro k hk
  obtain rfl : slot = k := Option.some.inj (hslot.symm.trans hk)
  exact hstatus

/-- No edit takes back that an action was handed over. -/
theorem Begun.edits {id' : ActionId} (h : g.Begun id) (hedits : Edits id' g g') : g'.Begun id := by
  refine h.of_status hedits.plan fun k hk => ?_
  rcases hedits.statusAt_self k with heq | ⟨new, hnew, hknown⟩
  · rwa [← heq]
  · rw [hk, Option.some.injEq] at hnew
    subst hnew
    cases hknown

theorem Begun.setStatusAt (h : g.Begun id) {slot : Nat} {status : ActionStatus}
    (hstatus : status ≠ .pending) : (g.setStatusAt slot status).Begun id := by
  refine h.of_status (plan_setStatusAt ..) fun k hk => ?_
  rw [statusAt_setStatusAt] at hk
  split at hk
  · obtain ⟨_, -, hk⟩ := Option.map_eq_some_iff.mp hk
    exact absurd hk hstatus
  · exact hk

end Graph

/-! ## One synapse -/

namespace Synapse

variable {g g' : Graph} {s : Synapse}

theorem Waits.isExecuted (h : s.Waits) : s.status.isExecuted = false := by
  rcases h with h | h <;> rw [h] <;> rfl

/-- What holds of a synapse that waits. -/
theorem OnCourse.of_waits (h : s.OnCourse g) (hwaits : s.Waits) :
    (∀ k ∈ s.actions, g.statusAt k = some .pending) ∧
      ∀ i ∈ s.inputs, g.statusAt i.slot = some .confirmed → i.satisfied = true := by
  have hidle := hwaits.isExecuted
  cases h with
  | waiting _ hactions hinputs => exact ⟨hactions, hinputs⟩
  | executing hstatus | confirmed hstatus =>
    rw [hstatus] at hidle
    cases hidle

/-- What holds of a synapse that is confirmed. -/
theorem OnCourse.of_confirmed (h : s.OnCourse g) (hstatus : s.status = .confirmed) :
    ∀ k ∈ s.actions, g.statusAt k = some .confirmed := by
  cases h with
  | confirmed _ hactions => exact hactions
  | waiting hwaits =>
    have hidle := hwaits.isExecuted
    rw [hstatus] at hidle
    cases hidle
  | executing hstatus' =>
    rw [hstatus] at hstatus'
    cases hstatus'

/-- A synapse stays on its course while its pending actions stay pending, and no other action is
confirmed than before. -/
theorem OnCourse.of_statusAt (h : s.OnCourse g)
    (hpending : s.Waits → ∀ k ∈ s.actions, g.statusAt k = some .pending →
      g'.statusAt k = some .pending)
    (hconfirmed : ∀ k, g'.statusAt k = some .confirmed ↔ g.statusAt k = some .confirmed) :
    s.OnCourse g' := by
  cases h with
  | waiting hwaits hactions hinputs =>
    refine .waiting hwaits (fun k hk => hpending hwaits k hk (hactions k hk)) fun i hi hk => ?_
    exact hinputs i hi ((hconfirmed i.slot).mp hk)
  | executing hstatus => exact .executing hstatus
  | confirmed hstatus hactions =>
    exact .confirmed hstatus fun k hk => (hconfirmed k).mpr (hactions k hk)

/-- A synapse whose other actions are known, and have not failed, has them confirmed. -/
theorem confirmed_of_othersConfirmed {slot : Nat} (hlt : ∀ k ∈ s.actions, k < g.actions.length)
    (hunfailed : ∀ k reason, g.statusAt k ≠ some (.failed reason))
    (h : s.othersConfirmed g.actions slot) {k : Nat} (hk : k ∈ s.actions) (hne : k ≠ slot) :
    g.statusAt k = some .confirmed := by
  obtain ⟨a, ha⟩ : ∃ a, g.actions[k]? = some a := ⟨_, List.getElem?_eq_getElem (hlt k hk)⟩
  have hknown := List.all_eq_true.mp h k hk
  simp only [hne, decide_false, Bool.false_or, ha, Option.map_some, Option.getD_some] at hknown
  have hstatus := Graph.statusAt_eq ha
  cases hs : a.status with
  | confirmed => rw [hstatus, hs]
  | failed reason => exact absurd (hs ▸ hstatus) (hunfailed k reason)
  | pending | executed =>
    rw [hs] at hknown
    cases hknown

/-- A synapse takes in the completion of an action that is confirmed now and was no longer
pending.  `g` is the graph before, and `g'` has the action confirmed. -/
theorem OnCourse.absorbed {slot : Nat} {a : Action} (h : s.OnCourse g)
    (hlt : ∀ k ∈ s.actions, k < g'.actions.length)
    (hunfailed : ∀ k reason, g'.statusAt k ≠ some (.failed reason))
    (ha : g'.actions[slot]? = some a) (hnow : a.status = .confirmed)
    (hbegun : g.statusAt slot ≠ some .pending)
    (hothers : ∀ k, k ≠ slot → g'.statusAt k = g.statusAt k) :
    (s.absorbed slot a g'.actions).OnCourse g' := by
  have hslot : g'.statusAt slot = some .confirmed := by rw [Graph.statusAt_eq ha, hnow]
  have hstays : ∀ k, g.statusAt k = some .confirmed → g'.statusAt k = some .confirmed := by
    intro k hk
    by_cases hne : k = slot
    · rw [hne, hslot]
    · rw [hothers k hne, hk]
  cases h with
  | waiting hwaits hactions hinputs =>
    have haccepts : s.accepts a = true := by simp [accepts, hnow, ActionStatus.isFailed]
    rw [absorbed_of_waiting hwaits, if_pos haccepts]
    have hplan := plan_satisfyInputs slot g'.actions s
    refine .waiting ?_ (fun k hk => ?_) fun i hi hk => ?_
    · rcases status_satisfyInputs slot g'.actions s with heq | heq
      · rcases hwaits with hstatus | hstatus
        · exact .inl (heq.trans hstatus)
        · exact .inr (heq.trans hstatus)
      · exact .inr heq
    · rw [actions_eq_of_plan hplan] at hk
      have hne : k ≠ slot := by
        rintro rfl
        exact hbegun (hactions k hk)
      rw [hothers k hne, hactions k hk]
    · -- the input is the completed action, and marked now, or it was marked before
      rw [inputs_satisfyInputs] at hi
      obtain ⟨j, hj, rfl⟩ := List.mem_map.mp hi
      simp only [Input.satisfy] at hk ⊢
      split
      · rfl
      · rename_i hne
        rw [if_neg hne, hothers j.slot hne] at hk
        exact hinputs j hj hk
  | executing hstatus =>
    have hall : ∀ b, g'.actions[slot]? = some b → b.status.isConfirmed := by
      intro b hb
      rw [ha, Option.some.injEq] at hb
      rw [← hb, hnow]
      rfl
    rw [absorbed_of_executing hstatus hall]
    split
    · rename_i hknown
      refine .confirmed rfl fun k hk => ?_
      by_cases hne : k = slot
      · rw [hne, hslot]
      · exact confirmed_of_othersConfirmed hlt hunfailed hknown hk hne
    · exact .executing hstatus
  | confirmed hstatus hactions =>
    rw [absorbed_of_isSettled (by rw [hstatus]; rfl)]
    exact .confirmed hstatus fun k hk => hstays k (hactions k hk)

end Synapse

/-! ## The graph -/

namespace Graph

variable {g g' : Graph} {id : ActionId}

theorem OnCourse.of_eq (h : g.OnCourse) (hlevel : g'.abortPriority = g.abortPriority)
    (hsynapses : g'.synapses = g.synapses) (hstatus : ∀ k, g'.statusAt k = g.statusAt k) :
    g'.OnCourse := by
  refine ⟨hlevel.trans h.level, fun k reason => hstatus k ▸ h.unfailed k reason, fun s hs => ?_⟩
  rw [hsynapses] at hs
  exact (h.synapses s hs).of_statusAt (fun _ k _ hk => (hstatus k).trans hk) fun k => by
    rw [hstatus]

/-- A synapse that waits may be marked ready, or fire. -/
theorem OnCourse.setSynapseStatus (h : g.OnCourse) {pos : Nat} {s : Synapse}
    (hs : g.synapses[pos]? = some s) (hwaits : s.Waits) {status : SynapseStatus}
    (hstatus : status = .ready ∨ status = .executing) :
    (g.setSynapseStatus pos status).OnCourse := by
  refine ⟨h.level, h.unfailed, fun t' ht' => ?_⟩
  obtain ⟨p, hp⟩ := List.getElem?_of_mem ht'
  obtain ⟨t, ht, ⟨rfl, rfl⟩ | ⟨-, rfl⟩⟩ := setSynapseStatus_cases hp
  · obtain rfl : s = t := Option.some.inj (hs.symm.trans ht)
    rcases hstatus with rfl | rfl
    · obtain ⟨hactions, hinputs⟩ := (h.synapses s (List.mem_of_getElem? hs)).of_waits hwaits
      exact .waiting (.inr rfl) hactions hinputs
    · exact .executing rfl
  · have hcourse := h.synapses t' (List.mem_of_getElem? ht)
    exact hcourse.of_statusAt (fun _ _ _ hk => hk) fun _ => Iff.rfl

/-- An action of a synapse that has fired may be handed over. -/
theorem OnCourse.mark (h : g.OnCourse) (hw : g.WellFormed) {pos slot : Nat} {s : Synapse}
    (hs : g.synapses[pos]? = some s) (hfired : s.status.isExecuted) (hslot : slot ∈ s.actions)
    (hpending : g.statusAt slot = some .pending) : (g.setStatusAt slot .executed).OnCourse := by
  refine ⟨h.level, fun k reason hk => ?_, fun t ht => ?_⟩
  · rw [statusAt_setStatusAt] at hk
    split at hk
    · obtain ⟨_, -, hk⟩ := Option.map_eq_some_iff.mp hk
      cases hk
    · exact h.unfailed k reason hk
  · rw [synapses_setStatusAt] at ht
    obtain ⟨q, hq⟩ := List.getElem?_of_mem ht
    refine (h.synapses t ht).of_statusAt (fun hwaits k hk hpk => ?_) fun k => ?_
    · -- the owner of the action is not among those that wait
      rw [statusAt_setStatusAt, if_neg, hpk]
      rintro rfl
      obtain rfl := hw.owner_unique hs hq hslot hk
      obtain rfl : s = t := Option.some.inj (hs.symm.trans hq)
      rw [hwaits.isExecuted] at hfired
      cases hfired
    · rw [statusAt_setStatusAt]
      split
      · rename_i heq
        rw [← heq, hpending]
        simp
      · exact Iff.rfl

/-- An action that was handed over may be completed. -/
theorem OnCourse.finish (h : g.OnCourse) (hw : g.WellFormed) (hbegun : g.Begun id) :
    ((g.settle id .confirmed).2.update id).2.OnCourse := by
  cases hk : g.slotOf? id with
  | none =>
    have hnone := action?_eq_none_iff.mpr hk
    have hsame : ((g.settle id .confirmed).2.update id).2 = g := by
      simp only [settle, hnone, update, hk]
    rw [hsame]
    exact h
  | some slot =>
    have hplan := plan_settle g id .confirmed
    have hslot := (slotOf?_eq_of_plan hplan id).trans hk
    have hset := fun k => statusAt_settle g id .confirmed k
    obtain ⟨a, ha, -, -⟩ := exists_action_of_slotOf? hslot
    obtain ⟨old, hold, -, -⟩ := exists_action_of_slotOf? hk
    have hunfailed : ∀ k reason, (g.settle id .confirmed).2.statusAt k ≠ some (.failed reason) := by
      intro k reason hfailed
      rw [hset] at hfailed
      split at hfailed
      · obtain ⟨status, hstatus, heq⟩ := Option.map_eq_some_iff.mp hfailed
        split at heq
        · exact h.unfailed k reason (heq ▸ hstatus)
        · cases heq
      · exact h.unfailed k reason hfailed
    have hnow : a.status = .confirmed := by
      have hstatus := hset slot
      simp only [statusAt, ha, hk, hold, if_true, Option.map_some, Option.some.injEq] at hstatus
      rw [hstatus]
      split
      · rename_i hknown
        cases hs : old.status with
        | confirmed => rfl
        | failed reason => exact absurd (hs ▸ statusAt_eq hold) (h.unfailed slot reason)
        | pending | executed =>
          rw [hs] at hknown
          cases hknown
      · rfl
    have hothers : ∀ k, k ≠ slot → (g.settle id .confirmed).2.statusAt k = g.statusAt k := by
      intro k hne
      rw [hset, hk, if_neg fun heq => hne (Option.some.inj heq).symm]
    rw [update_of_confirmed hslot ha (by rw [hnow]; rfl)]
    refine ⟨?_, hunfailed, fun t ht => ?_⟩
    · rw [settle_eq hk]
      exact h.level
    · obtain ⟨s, hs, rfl⟩ := List.mem_map.mp ht
      rw [synapses_settle] at hs
      have hlt : ∀ k ∈ s.actions, k < (g.settle id .confirmed).2.actions.length := by
        intro k hks
        rw [actions_length_of_plan hplan]
        exact hw.slot_lt hs hks
      exact (h.synapses s hs).absorbed hlt hunfailed ha hnow (hbegun slot hk) hothers

/-- **An advance on behalf of an action that was handed over keeps the course.** -/
theorem OnCourse.advance (h : g.OnCourse) (hw : g.WellFormed) (hbegun : g.Begun id)
    (hadvance : Advance id g g') : g'.OnCourse := by
  cases hadvance with
  | note _ hstatus =>
    refine h.of_eq ?_ (synapses_modifyAction ..) fun k => statusAt_modifyAction g id hstatus k
    simp only [modifyAction]
    split <;> rfl
  | finish => exact h.finish hw hbegun
  | shutdown => exact h.of_eq rfl rfl fun _ => rfl

theorem OnCourse.advances (h : g.OnCourse) (hw : g.WellFormed) (hbegun : g.Begun id)
    (hadvances : Advances id g g') : g'.OnCourse := by
  induction hadvances with
  | refl => exact h
  | tail steps step ih =>
    have hedits := Advances.edits steps
    exact ih.advance (hw.of_plan hedits.plan) (hbegun.edits hedits) step

end Graph
end ClusterTransition
