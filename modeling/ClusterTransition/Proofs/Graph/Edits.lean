import ClusterTransition.Proofs.Graph.Plan
import ClusterTransition.Proofs.Lists

/-! # What the changes of a graph change

A pass and the reports to an engine change a graph in few ways: they set the status of an action or
of a synapse, note something on an action, settle an action, spread its completion, or raise the
abort fields.  For each of them this module says that it keeps the plan, and what it does to the
statuses of the actions (`Graph.statusAt`) and to the synapses.

Callers spread a completion only after the action is settled.  Then `Graph.update` leaves the
actions alone and changes each synapse by itself (`Graph.update_of_confirmed`).
-/

namespace ClusterTransition

/-! ## What the completion of an action does to one synapse -/

namespace Synapse

/-- The synapse after the completion of the action at `slot`. -/
def absorbed (slot : Nat) (a : Action) (actions : List Action) (s : Synapse) : Synapse :=
  (s.absorb slot a actions).2.1

variable (slot : Nat) (a : Action) (actions : List Action) (s : Synapse)

theorem plan_satisfyInputs : (s.satisfyInputs actions slot).2.plan = s.plan := by
  have hmap : (s.inputs.map (Input.satisfy slot)).map (fun i => { i with satisfied := false }) =
      s.inputs.map fun i => ({ i with satisfied := false } : Input) := by
    rw [List.map_map]
    refine List.map_congr_left fun i _ => ?_
    simp only [Function.comp_apply, Input.satisfy]
    split <;> rfl
  simp only [satisfyInputs]
  split
  · split <;> simp only [Synapse.plan, hmap]
  · rfl

theorem plan_absorbed : (s.absorbed slot a actions).plan = s.plan := by
  simp only [absorbed, absorb]
  split
  · rfl
  · rfl
  · rfl
  · split <;> rfl
  all_goals
    split
    · exact plan_satisfyInputs ..
    · rfl

/-- Marking the inputs of a synapse changes nothing if there is nothing to mark. -/
theorem inputs_satisfyInputs :
    (s.satisfyInputs actions slot).2.inputs = s.inputs.map (Input.satisfy slot) := by
  simp only [satisfyInputs]
  split
  · split <;> rfl
  · rename_i h
    refine ((List.map_congr_left fun i hi => ?_).trans (List.map_id _)).symm
    simp only [List.any_eq_true, Bool.and_eq_true, decide_eq_true_eq, Bool.not_eq_eq_eq_not,
      Bool.not_true, not_exists, not_and, Bool.not_eq_false] at h
    simp only [Input.satisfy]
    split
    · rename_i hslot
      rw [← h i hi hslot]
      rfl
    · rfl

theorem status_satisfyInputs :
    (s.satisfyInputs actions slot).2.status = s.status ∨
      (s.satisfyInputs actions slot).2.status = .ready := by
  simp only [satisfyInputs]
  split
  · split
    · exact .inr rfl
    · exact .inl rfl
  · exact .inl rfl

variable {slot a actions s}

theorem absorbed_of_isSettled (h : s.status.isSettled) : s.absorbed slot a actions = s := by
  simp only [absorbed, absorb]
  cases hs : s.status <;> simp_all [SynapseStatus.isSettled]

theorem absorbed_of_waiting (h : s.status = .unfired ∨ s.status = .ready) :
    s.absorbed slot a actions =
      if s.accepts a then (s.satisfyInputs actions slot).2 else s := by
  simp only [absorbed, absorb]
  rcases h with h | h <;> rw [h] <;> simp only <;> split <;> rfl

/-- Nothing is confirmed on behalf of a synapse once the result of the action is known. -/
theorem confirmMember_of_confirmed (hc : ∀ b, actions[slot]? = some b → b.status.isConfirmed) :
    s.confirmMember actions slot = (false, actions) := by
  simp only [confirmMember]
  split
  · rfl
  · rename_i b hb
    simp [hc b hb]

theorem absorbed_of_executing (h : s.status = .executing)
    (hc : ∀ b, actions[slot]? = some b → b.status.isConfirmed) :
    s.absorbed slot a actions =
      if s.othersConfirmed actions slot then { s with status := .confirmed } else s := by
  simp only [absorbed, absorb, h, confirmMember_of_confirmed hc]
  split <;> rfl

/-- The completion of an action never makes a synapse fire, nor unfire. -/
theorem isExecuted_absorbed :
    (s.absorbed slot a actions).status.isExecuted = s.status.isExecuted := by
  have hwaits (h : s.status = .unfired ∨ s.status = .ready) :
      (s.absorbed slot a actions).status.isExecuted = s.status.isExecuted := by
    rw [absorbed_of_waiting h]
    split
    · have := status_satisfyInputs slot actions s
      rcases h with h | h <;> rcases this with h' | h' <;> simp [h', h, SynapseStatus.isExecuted]
    · rfl
  cases h : s.status with
  | unfired => exact h ▸ hwaits (.inl h)
  | ready => exact h ▸ hwaits (.inr h)
  | executing =>
    simp only [absorbed, absorb, h]
    split
    · rfl
    · rw [h]
  | confirmed | failed | skipped =>
    rw [absorbed_of_isSettled (by rw [h]; rfl), h]

/-- A synapse that executes after it has absorbed a completion did so before. -/
theorem executing_of_absorbed (h : (s.absorbed slot a actions).status = .executing) :
    s.status = .executing := by
  have hexec : (s.absorbed slot a actions).status.isExecuted = s.status.isExecuted :=
    isExecuted_absorbed
  rw [h] at hexec
  cases hs : s.status with
  | executing => rfl
  | unfired | ready | skipped =>
    rw [hs] at hexec
    cases hexec
  | confirmed | failed =>
    rw [absorbed_of_isSettled (by rw [hs]; rfl), hs] at h
    cases h

end Synapse

/-! ## The completion of an action -/

section Absorb

variable {slot : Nat} {a : Action} {actions : List Action}

theorem absorb_actions_of_confirmed (hc : ∀ b, actions[slot]? = some b → b.status.isConfirmed)
    (s : Synapse) : (s.absorb slot a actions).2.2 = actions := by
  simp only [Synapse.absorb, Synapse.confirmMember_of_confirmed hc]
  split
  · rfl
  · rfl
  · rfl
  · split <;> rfl
  all_goals split <;> rfl

theorem absorbAll_of_confirmed (hc : ∀ b, actions[slot]? = some b → b.status.isConfirmed)
    (synapses : List Synapse) :
    (absorbAll slot a actions synapses).2 =
      (synapses.map (Synapse.absorbed slot a actions), actions) := by
  induction synapses with
  | nil => rfl
  | cons s rest ih =>
    simp only [absorbAll, absorb_actions_of_confirmed hc s, ih, List.map_cons]
    rfl

theorem plan_absorb_actions (s : Synapse) :
    (s.absorb slot a actions).2.2.map Action.plan = actions.map Action.plan := by
  have hmember : (s.confirmMember actions slot).2.map Action.plan = actions.map Action.plan := by
    simp only [Synapse.confirmMember]
    split
    · rfl
    · split
      · rw [map_modify_of_eq fun _ => by rfl]
      · rfl
  simp only [Synapse.absorb]
  split
  · rfl
  · rfl
  · rfl
  · split <;> exact hmember
  all_goals split <;> rfl

theorem plan_absorbAll (synapses : List Synapse) :
    (absorbAll slot a actions synapses).2.1.map Synapse.plan = synapses.map Synapse.plan ∧
      (absorbAll slot a actions synapses).2.2.map Action.plan = actions.map Action.plan := by
  induction synapses generalizing actions with
  | nil => exact ⟨rfl, rfl⟩
  | cons s rest ih =>
    obtain ⟨hs, ha⟩ := @ih (s.absorb slot a actions).2.2
    refine ⟨?_, ha.trans (plan_absorb_actions s)⟩
    simp only [absorbAll, List.map_cons, hs]
    exact congrArg (· :: _) (Synapse.plan_absorbed slot a actions s)

end Absorb

namespace Graph

variable (g : Graph)

/-- Spreading a settled action changes each synapse by itself, and no action. -/
theorem update_of_confirmed {g : Graph} {id : ActionId} {k : Nat} {a : Action}
    (hk : g.slotOf? id = some k) (ha : g.actions[k]? = some a) (hc : a.status.isConfirmed) :
    (g.update id).2 = { g with synapses := g.synapses.map (Synapse.absorbed k a g.actions) } := by
  have hall : ∀ b, g.actions[k]? = some b → b.status.isConfirmed := by
    intro b hb
    rw [ha] at hb
    exact Option.some.inj hb ▸ hc
  simp only [update, hk, ha, absorbAll_of_confirmed hall]

/-- Settling an action changes it unless its result is known. -/
theorem settle_eq {g : Graph} {id : ActionId} {k : Nat} (hk : g.slotOf? id = some k)
    (status : ActionStatus) :
    (g.settle id status).2 =
      { g with actions := g.actions.modify k fun a =>
          if a.status.isConfirmed then a else { a with status } } := by
  obtain ⟨a, ha, hfind, -⟩ := exists_action_of_slotOf? hk
  simp only [settle, hfind]
  split
  · rename_i hc
    rw [modify_of_eq]
    intro b hb
    rw [ha, Option.some.injEq] at hb
    exact if_pos (hb ▸ hc)
  · rename_i hc
    simp only [modifyAction, hk]
    congr 1
    apply List.ext_getElem?
    intro j
    simp only [List.getElem?_modify]
    by_cases hj : k = j
    · subst hj
      simp [ha, hc]
    · simp [hj]

/-! ## The plan stays -/

@[simp] theorem plan_setStatusAt (slot : Nat) (status : ActionStatus) :
    (g.setStatusAt slot status).plan = g.plan := by
  simp only [plan, setStatusAt]
  rw [map_modify_of_eq fun _ => by rfl]

@[simp] theorem plan_setSynapseStatus (pos : Nat) (status : SynapseStatus) :
    (g.setSynapseStatus pos status).plan = g.plan := by
  simp only [plan, setSynapseStatus]
  rw [map_modify_of_eq fun _ => by rfl]

theorem plan_modifyAction (id : ActionId) {f : Action → Action} (hf : ∀ a, (f a).plan = a.plan) :
    (g.modifyAction id f).plan = g.plan := by
  simp only [modifyAction]
  split
  · rfl
  · simp only [plan, map_modify_of_eq hf]

theorem modifyAction_eq {g : Graph} {id : ActionId} {k : Nat} (hk : g.slotOf? id = some k)
    (f : Action → Action) :
    g.modifyAction id f = { g with actions := g.actions.modify k f } := by
  simp only [modifyAction, hk]

/-- A change that keeps the plan is found again under the same id. -/
theorem action?_modifyAction {g : Graph} {id : ActionId} {a : Action} {f : Action → Action}
    (ha : g.action? id = some a) (hf : ∀ a, (f a).plan = a.plan) :
    (g.modifyAction id f).action? id = some (f a) := by
  obtain ⟨k, hk, hget, -⟩ := exists_slot_of_action? ha
  have hk' := (slotOf?_eq_of_plan (plan_modifyAction g id hf) id).trans hk
  rw [action?_eq_getElem? hk', modifyAction_eq hk]
  simp [hget]

@[simp] theorem plan_settle (id : ActionId) (status : ActionStatus) :
    (g.settle id status).2.plan = g.plan := by
  simp only [settle]
  split
  · rfl
  · split
    · rfl
    · exact plan_modifyAction g id fun _ => rfl

@[simp] theorem plan_update (id : ActionId) : (g.update id).2.plan = g.plan := by
  simp only [update]
  split
  · rfl
  · split
    · rfl
    · simp only [plan, plan_absorbAll]

@[simp] theorem plan_abort (priority : Int) (action : CompletionAction) (reason : String) :
    (g.abort priority action reason).plan = g.plan := rfl

@[simp] theorem plan_count (f : PassCounters → PassCounters) : (g.count f).plan = g.plan := rfl

@[simp] theorem plan_fireFailed : g.fireFailed.plan = g.plan := rfl

/-! ## Statuses of actions -/

/-- The status of the action at a slot. -/
def statusAt (g : Graph) (slot : Nat) : Option ActionStatus := g.actions[slot]?.map (·.status)

theorem statusAt_eq {g : Graph} {k : Nat} {a : Action} (ha : g.actions[k]? = some a) :
    g.statusAt k = some a.status := by
  rw [statusAt, ha]
  rfl

theorem statusAt_setStatusAt (slot k : Nat) (status : ActionStatus) :
    (g.setStatusAt slot status).statusAt k =
      if slot = k then (g.statusAt k).map fun _ => status else g.statusAt k := by
  simp only [statusAt, setStatusAt, List.getElem?_modify, Option.map_eq_map, Option.map_map]
  split <;> rfl

theorem getElem?_setStatusAt {g : Graph} {slot : Nat} {a : Action}
    (ha : g.actions[slot]? = some a) (status : ActionStatus) :
    (g.setStatusAt slot status).actions[slot]? = some { a with status } := by
  simp [setStatusAt, ha]

/-- An action is found by its id after its status was set. -/
theorem WellFormed.action?_setStatusAt {g : Graph} (hw : g.WellFormed) {slot : Nat} {a : Action}
    (ha : g.actions[slot]? = some a) (status : ActionStatus) :
    (g.setStatusAt slot status).slotOf? a.id = some slot ∧
      (g.setStatusAt slot status).action? a.id = some { a with status } := by
  have hslot : (g.setStatusAt slot status).slotOf? a.id = some slot := by
    rw [slotOf?_eq_of_plan (plan_setStatusAt ..)]
    exact hw.slotOf?_id ha
  exact ⟨hslot, (action?_eq_getElem? hslot).trans (getElem?_setStatusAt ha status)⟩

theorem statusAt_modifyAction (id : ActionId) {f : Action → Action}
    (hf : ∀ a, (f a).status = a.status) (k : Nat) :
    (g.modifyAction id f).statusAt k = g.statusAt k := by
  simp only [modifyAction]
  split
  · rfl
  · simp only [statusAt, List.getElem?_modify, Option.map_eq_map, Option.map_map]
    congr 1
    funext a
    simp only [Function.comp_apply]
    split
    · exact hf a
    · rfl

/-- Settling an action gives it its final status if it has none, and changes no other action. -/
theorem statusAt_settle (id : ActionId) (status : ActionStatus) (k : Nat) :
    (g.settle id status).2.statusAt k =
      if g.slotOf? id = some k then
        (g.statusAt k).map fun old => if old.isConfirmed then old else status
      else g.statusAt k := by
  simp only [settle]
  split
  · rename_i hnone
    rw [action?_eq_none_iff.mp hnone]
    rfl
  · rename_i a ha
    obtain ⟨slot, hslot, hget, -⟩ := exists_slot_of_action? ha
    simp only [hslot, Option.some.injEq]
    split
    · rename_i hc
      split
      · rename_i heq
        subst heq
        simp [statusAt, hget, hc]
      · rfl
    · rename_i hc
      simp only [modifyAction, hslot, statusAt, List.getElem?_modify, Option.map_eq_map,
        Option.map_map]
      split
      · rename_i heq
        subst heq
        simp [hget, hc]
      · simp [Function.comp_def]

theorem statusAt_update_of_confirmed {g : Graph} {id : ActionId} {a : Action}
    (ha : g.action? id = some a) (hc : a.status.isConfirmed) (k : Nat) :
    (g.update id).2.statusAt k = g.statusAt k := by
  obtain ⟨slot, hslot, hget, -⟩ := exists_slot_of_action? ha
  rw [update_of_confirmed hslot hget hc]
  rfl

/-! ## Counters -/

@[simp] theorem counters_count (f : PassCounters → PassCounters) :
    (g.count f).counters = f g.counters := rfl

@[simp] theorem counters_setSynapseStatus (pos : Nat) (status : SynapseStatus) :
    (g.setSynapseStatus pos status).counters = g.counters := rfl

theorem counters_modifyAction (id : ActionId) (f : Action → Action) :
    (g.modifyAction id f).counters = g.counters := by
  simp only [modifyAction]
  split <;> rfl

theorem counters_settle (id : ActionId) (status : ActionStatus) :
    (g.settle id status).2.counters = g.counters := by
  simp only [settle]
  split
  · rfl
  · split
    · rfl
    · exact counters_modifyAction ..

theorem counters_update (id : ActionId) : (g.update id).2.counters = g.counters := by
  simp only [update]
  split
  · rfl
  · split <;> rfl

/-! ## Synapses -/

@[simp] theorem synapses_setStatusAt (slot : Nat) (status : ActionStatus) :
    (g.setStatusAt slot status).synapses = g.synapses := rfl

@[simp] theorem synapses_modifyAction (id : ActionId) (f : Action → Action) :
    (g.modifyAction id f).synapses = g.synapses := by
  simp only [modifyAction]
  split <;> rfl

@[simp] theorem synapses_settle (id : ActionId) (status : ActionStatus) :
    (g.settle id status).2.synapses = g.synapses := by
  simp only [settle]
  split
  · rfl
  · split
    · rfl
    · exact synapses_modifyAction ..

/-- The synapse at another position is the same after the status of one is set. -/
theorem setSynapseStatus_cases {g : Graph} {pos p : Nat} {status : SynapseStatus} {s' : Synapse}
    (hs' : (g.setSynapseStatus pos status).synapses[p]? = some s') :
    ∃ s, g.synapses[p]? = some s ∧
      (p = pos ∧ s' = { s with status } ∨ p ≠ pos ∧ s' = s) := by
  simp only [setSynapseStatus, List.getElem?_modify] at hs'
  obtain ⟨s, hs, rfl⟩ := Option.map_eq_some_iff.mp hs'
  refine ⟨s, hs, ?_⟩
  by_cases h : pos = p
  · exact .inl ⟨h.symm, if_pos h⟩
  · exact .inr ⟨fun h' => h h'.symm, if_neg h⟩

end Graph
end ClusterTransition
