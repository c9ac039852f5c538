import ClusterTransition.Proofs.Engine.Prerequisites

/-! # Completions commute

When two open actions are concluded one after the other, the order does not matter
(`Graph.conclude_comm`).  This is not clear from the code: a completion marks inputs and then asks
whether the synapse is held up, which depends on the failures of all the actions that it waits for,
and so on which of them are known by then.

What makes the order immaterial is that marked inputs refer to known results.  The inputs for the
second action are unmarked when the first is concluded.  A synapse that has such inputs is held up
by them whatever else is known, and a synapse that has none does not look at the second action.
-/

namespace ClusterTransition

namespace Synapse

variable {s : Synapse} {k k₁ k₂ : Nat} {a b b₁ b₂ : Action} {actions actions' : List Action}

/-- No input for the action at a slot is marked. -/
def Unmarked (slot : Nat) (s : Synapse) : Prop :=
  ∀ i ∈ s.inputs, i.slot = slot → i.satisfied = false

/-- The completion of an action has an input of the synapse to mark. -/
def Heeds (slot : Nat) (a : Action) (s : Synapse) : Prop :=
  s.accepts a = true ∧ ∃ i ∈ s.inputs, i.slot = slot ∧ i.satisfied = false

/-- The synapse with the inputs for the action at a slot marked. -/
def mark (slot : Nat) (s : Synapse) : Synapse :=
  { s with inputs := s.inputs.map (Input.satisfy slot) }

/-- The synapse, which is ready now if nothing holds it up. -/
def readied (actions : List Action) (s : Synapse) : Synapse :=
  if s.inputsSatisfied actions then { s with status := .ready } else s

/-! ## Marks -/

theorem slot_satisfy (i : Input) : (i.satisfy k).slot = i.slot := by
  simp only [Input.satisfy]
  split <;> rfl

theorem satisfy_of_ne {i : Input} (h : i.slot ≠ k) : i.satisfy k = i := if_neg h

theorem mark_mark_comm (s : Synapse) (k₁ k₂ : Nat) :
    (s.mark k₁).mark k₂ = (s.mark k₂).mark k₁ := by
  have hinput (i : Input) : (i.satisfy k₁).satisfy k₂ = (i.satisfy k₂).satisfy k₁ := by
    simp only [Input.satisfy]
    split <;> split <;> simp_all
  simp only [mark, List.map_map, Function.comp_def, hinput]

theorem Unmarked.mark (h : s.Unmarked k₂) (hne : k₁ ≠ k₂) : (s.mark k₁).Unmarked k₂ := by
  intro i hi hslot
  obtain ⟨j, hj, rfl⟩ := List.mem_map.mp hi
  rw [slot_satisfy] at hslot
  rw [satisfy_of_ne (by omega)]
  exact h j hj hslot

theorem heeds_mark (hne : k₁ ≠ k₂) : (s.mark k₁).Heeds k₂ a ↔ s.Heeds k₂ a := by
  refine and_congr Iff.rfl ⟨?_, ?_⟩
  · rintro ⟨i, hi, hslot, hmark⟩
    obtain ⟨j, hj, rfl⟩ := List.mem_map.mp hi
    rw [slot_satisfy] at hslot
    rw [satisfy_of_ne (by omega)] at hmark
    exact ⟨j, hj, hslot, hmark⟩
  · rintro ⟨i, hi, hslot, hmark⟩
    refine ⟨i, List.mem_map.mpr ⟨i, hi, satisfy_of_ne (by omega)⟩, hslot, hmark⟩

/-! ## Readiness -/

theorem inputs_readied : (s.readied actions).inputs = s.inputs := by
  simp only [readied]
  split <;> rfl

theorem heeds_readied : (s.readied actions).Heeds k a ↔ s.Heeds k a := by
  simp only [readied]
  split <;> rfl

/-- A synapse that has yet to fire still has to when it becomes ready. -/
theorem waits_readied (h : s.status = .unfired ∨ s.status = .ready) :
    (s.readied actions).status = .unfired ∨ (s.readied actions).status = .ready := by
  simp only [readied]
  split
  · exact .inr rfl
  · exact h

/-- An unmarked input holds its synapse up. -/
theorem readied_of_unmarked {i : Input} (hi : i ∈ s.inputs) (hmark : i.satisfied = false) :
    s.readied actions = s := by
  refine if_neg fun hall => ?_
  have hopen := List.all_eq_true.mp hall i hi
  simp only [Input.isOpen, hmark] at hopen
  split at hopen <;> cases hopen

/-- Whether the synapse is held up does not depend on actions that it has no marked inputs for. -/
theorem readied_congr (h : s.Unmarked k) (hsame : ∀ j ≠ k, actions'[j]? = actions[j]?) :
    s.readied actions' = s.readied actions := by
  have hopen : ∀ i ∈ s.inputs,
      i.isOpen actions' s.priority = i.isOpen actions s.priority := by
    intro i hi
    by_cases hslot : i.slot = k
    · simp only [Input.isOpen, h i hi hslot]
      split <;> split <;> rfl
    · simp only [Input.isOpen, hsame i.slot hslot]
  have hall : s.inputsSatisfied actions' = s.inputsSatisfied actions := by
    refine Bool.eq_iff_iff.mpr ?_
    simp only [inputsSatisfied, List.all_eq_true]
    exact forall₂_congr fun i hi => by rw [hopen i hi]
  simp only [readied, hall]

/-! ## A synapse that has yet to fire -/

/-- A synapse that has an input to mark marks it, and may be ready then. -/
theorem absorbed_of_heeds (hwaits : s.status = .unfired ∨ s.status = .ready) (h : s.Heeds k a) :
    s.absorbed k a actions = (s.mark k).readied actions := by
  obtain ⟨haccepts, i, hi, hslot, hmark⟩ := h
  have hany : (s.inputs.any fun i => i.slot = k && !i.satisfied) = true :=
    List.any_eq_true.mpr ⟨i, hi, by simp [hslot, hmark]⟩
  simp only [absorbed_of_waiting hwaits, haccepts, satisfyInputs, hany, if_true]
  rfl

/-- Other synapses that have yet to fire do not change, and say so. -/
theorem absorb_of_not_heeds (hwaits : s.status = .unfired ∨ s.status = .ready)
    (h : ¬ s.Heeds k a) : s.absorb k a actions = (false, s, actions) := by
  have hsatisfy (haccepts : s.accepts a = true) : s.satisfyInputs actions k = (false, s) := by
    have hany : (s.inputs.any fun i => i.slot = k && !i.satisfied) = false := by
      refine List.any_eq_false.mpr fun i hi hmark => h ⟨haccepts, i, hi, ?_⟩
      simpa using hmark
    simp only [satisfyInputs, hany]
    rfl
  by_cases haccepts : s.accepts a = true
  · rcases hwaits with hs | hs <;> simp [absorb, hs, haccepts, hsatisfy haccepts]
  · rcases hwaits with hs | hs <;> simp [absorb, hs, haccepts]

theorem absorbed_of_not_heeds (hwaits : s.status = .unfired ∨ s.status = .ready)
    (h : ¬ s.Heeds k a) : s.absorbed k a actions = s := by
  rw [absorbed, absorb_of_not_heeds hwaits h]

/-- The first of two completions that both have inputs to mark cannot make the synapse ready. -/
theorem absorbed_absorbed_of_heeds_both (hwaits : s.status = .unfired ∨ s.status = .ready)
    (hne : k₁ ≠ k₂) (h₁ : s.Heeds k₁ b₁) (h₂ : s.Heeds k₂ b₂) :
    (s.absorbed k₁ b₁ actions).absorbed k₂ b₂ actions' =
      ((s.mark k₁).mark k₂).readied actions' := by
  have hheeds : (s.mark k₁).Heeds k₂ b₂ := (heeds_mark hne).mpr h₂
  have ⟨_, i, hi, _, hmark⟩ := hheeds
  rw [absorbed_of_heeds hwaits h₁, readied_of_unmarked hi hmark]
  exact absorbed_of_heeds hwaits hheeds

theorem absorbed_absorbed_of_heeds (hwaits : s.status = .unfired ∨ s.status = .ready)
    (hne : k₁ ≠ k₂) (h₁ : s.Heeds k₁ b₁) (h₂ : ¬ s.Heeds k₂ b₂) :
    (s.absorbed k₁ b₁ actions).absorbed k₂ b₂ actions' = (s.mark k₁).readied actions := by
  rw [absorbed_of_heeds hwaits h₁]
  refine absorbed_of_not_heeds (waits_readied (s := s.mark k₁) hwaits) ?_
  rwa [heeds_readied, heeds_mark hne]

/-- A waiting synapse takes two completions in either order, if what is known by then makes no
difference to it: the first and the second find `actions₁` and `actions₁₂`, or the other way round
`actions₂` and `actions₂₁`. -/
theorem absorbed_comm_of_waits (hwaits : s.status = .unfired ∨ s.status = .ready) (hne : k₁ ≠ k₂)
    {actions₁ actions₂ actions₁₂ actions₂₁ : List Action}
    (hboth : ((s.mark k₁).mark k₂).readied actions₁₂ = ((s.mark k₁).mark k₂).readied actions₂₁)
    (h₁ : (s.mark k₁).readied actions₂₁ = (s.mark k₁).readied actions₁)
    (h₂ : (s.mark k₂).readied actions₁₂ = (s.mark k₂).readied actions₂) :
    (s.absorbed k₁ b₁ actions₁).absorbed k₂ b₂ actions₁₂ =
      (s.absorbed k₂ b₂ actions₂).absorbed k₁ b₁ actions₂₁ := by
  by_cases hheeds₁ : s.Heeds k₁ b₁ <;> by_cases hheeds₂ : s.Heeds k₂ b₂
  · rw [absorbed_absorbed_of_heeds_both hwaits hne hheeds₁ hheeds₂,
      absorbed_absorbed_of_heeds_both hwaits hne.symm hheeds₂ hheeds₁, mark_mark_comm s k₂ k₁,
      hboth]
  · rw [absorbed_absorbed_of_heeds hwaits hne hheeds₁ hheeds₂, absorbed_of_not_heeds hwaits hheeds₂,
      absorbed_of_heeds hwaits hheeds₁, h₁]
  · rw [absorbed_absorbed_of_heeds hwaits hne.symm hheeds₂ hheeds₁,
      absorbed_of_not_heeds hwaits hheeds₁, absorbed_of_heeds hwaits hheeds₂, h₂]
  · simp only [absorbed_of_not_heeds hwaits hheeds₁, absorbed_of_not_heeds hwaits hheeds₂]

/-! ## A synapse that executes -/

/-- The results of all the synapse's actions are known. -/
def MembersKnown (actions : List Action) (s : Synapse) : Prop :=
  ∀ m ∈ s.actions, ∀ b, actions[m]? = some b → b.status.isConfirmed = true

theorem othersConfirmed_iff (hc : ∀ b, actions[k]? = some b → b.status.isConfirmed = true) :
    s.othersConfirmed actions k = true ↔ s.MembersKnown actions := by
  simp only [othersConfirmed, List.all_eq_true, MembersKnown, Bool.or_eq_true, decide_eq_true_eq]
  refine forall₂_congr fun m _ => ?_
  cases hm : actions[m]? with
  | none => simp
  | some b =>
    simp only [Option.map_some, Option.getD_some, Option.some.injEq, forall_eq']
    refine ⟨fun h => ?_, .inr⟩
    rcases h with rfl | h
    · exact hc b hm
    · exact h

/-- The first of two completions cannot confirm what the second would not. -/
theorem absorbed_absorbed_of_executing (hexec : s.status = .executing)
    (hc₁ : ∀ b, actions[k₁]? = some b → b.status.isConfirmed = true)
    (hc₂ : ∀ b, actions'[k₂]? = some b → b.status.isConfirmed = true)
    (hkeep : s.MembersKnown actions → s.MembersKnown actions')
    [Decidable (s.MembersKnown actions')] :
    (s.absorbed k₁ b₁ actions).absorbed k₂ b₂ actions' =
      if s.MembersKnown actions' then { s with status := .confirmed } else s := by
  rw [absorbed_of_executing hexec hc₁]
  split
  · rename_i hall
    rw [absorbed_of_isSettled rfl, if_pos (hkeep ((othersConfirmed_iff hc₁).mp hall))]
  · rw [absorbed_of_executing hexec hc₂]
    simp only [othersConfirmed_iff hc₂]

/-! ## Any synapse -/

theorem known_set (hb : b.status.isConfirmed = true) :
    ∀ b', (actions.set k b)[k]? = some b' → b'.status.isConfirmed = true := by
  intro b' hb'
  rw [List.getElem?_set_self'] at hb'
  obtain ⟨_, _, rfl⟩ := Option.map_eq_some_iff.mp hb'
  exact hb

theorem MembersKnown.set (h : s.MembersKnown actions) (hb : b.status.isConfirmed = true) :
    s.MembersKnown (actions.set k b) := by
  intro m hm b' hb'
  by_cases hk : k = m
  · subst hk
    exact known_set hb b' hb'
  · rw [List.getElem?_set_ne hk] at hb'
    exact h m hm b' hb'

/-- **A synapse takes two completions in either order**, if the action that each is about makes no
difference to the inputs that the other marks. -/
theorem absorbed_comm (s : Synapse) (hne : k₁ ≠ k₂) (hb₁ : b₁.status.isConfirmed = true)
    (hb₂ : b₂.status.isConfirmed = true)
    (h₁ : (s.mark k₁).readied ((actions.set k₁ b₁).set k₂ b₂) =
      (s.mark k₁).readied (actions.set k₁ b₁))
    (h₂ : (s.mark k₂).readied ((actions.set k₂ b₂).set k₁ b₁) =
      (s.mark k₂).readied (actions.set k₂ b₂)) :
    (s.absorbed k₁ b₁ (actions.set k₁ b₁)).absorbed k₂ b₂ ((actions.set k₁ b₁).set k₂ b₂) =
      (s.absorbed k₂ b₂ (actions.set k₂ b₂)).absorbed k₁ b₁ ((actions.set k₂ b₂).set k₁ b₁) := by
  have hset : (actions.set k₁ b₁).set k₂ b₂ = (actions.set k₂ b₂).set k₁ b₁ :=
    List.set_comm b₁ b₂ hne
  have hwaits (hwaits : s.status = .unfired ∨ s.status = .ready) :
      (s.absorbed k₁ b₁ (actions.set k₁ b₁)).absorbed k₂ b₂ ((actions.set k₁ b₁).set k₂ b₂) =
        (s.absorbed k₂ b₂ (actions.set k₂ b₂)).absorbed k₁ b₁
          ((actions.set k₂ b₂).set k₁ b₁) :=
    absorbed_comm_of_waits hwaits hne (by rw [hset]) (hset ▸ h₁) (hset ▸ h₂)
  cases hs : s.status with
  | unfired => exact hwaits (.inl hs)
  | ready => exact hwaits (.inr hs)
  | executing =>
    classical
    rw [absorbed_absorbed_of_executing hs (known_set hb₁) (known_set hb₂) fun h => h.set hb₂,
      absorbed_absorbed_of_executing hs (known_set hb₂) (known_set hb₁) fun h => h.set hb₁]
    simp only [hset]
  | confirmed | failed | skipped =>
    have hsettled : s.status.isSettled = true := by rw [hs]; rfl
    simp only [absorbed_of_isSettled hsettled]

end Synapse

namespace Graph

variable {g : Graph} {k k₁ k₂ : Nat} {a b b₁ b₂ : Action}

/-- The graph after the action at a slot has become `b`, which is spread. -/
def conclude (g : Graph) (k : Nat) (b : Action) : Graph :=
  { g with
    actions := g.actions.set k b
    synapses := g.synapses.map (Synapse.absorbed k b (g.actions.set k b)) }

/-! ## What concluding an action leaves alone -/

theorem plan_set (ha : g.actions[k]? = some a) (hb : b.plan = a.plan) :
    ({ g with actions := g.actions.set k b } : Graph).plan = g.plan := by
  have hactions : (g.actions.set k b).map Action.plan = g.actions.map Action.plan := by
    refine List.ext_getElem? fun j => ?_
    obtain ⟨hlt, rfl⟩ := List.getElem?_eq_some_iff.mp ha
    rw [List.map_set, List.getElem?_set]
    split
    · rename_i hj
      subst hj
      simp [hb, hlt]
    · rfl
  simp only [plan, hactions]

theorem plan_conclude (ha : g.actions[k]? = some a) (hb : b.plan = a.plan) :
    (g.conclude k b).plan = g.plan := by
  have hsynapses : (g.synapses.map (Synapse.absorbed k b (g.actions.set k b))).map Synapse.plan =
      g.synapses.map Synapse.plan := by
    rw [List.map_map]
    exact List.map_congr_left fun s _ => Synapse.plan_absorbed ..
  rw [← plan_set ha hb]
  simp only [plan, conclude, hsynapses]

/-- Concluding an action changes what is found under its id. -/
theorem action?_conclude (ha : g.actions[k]? = some a) (hb : b.plan = a.plan) (id : ActionId) :
    (g.conclude k b).action? id = if g.slotOf? id = some k then some b else g.action? id := by
  have hslot := slotOf?_eq_of_plan (plan_conclude ha hb) id
  cases hk : g.slotOf? id with
  | none =>
    rw [hk] at hslot
    rw [action?_eq_none_iff.mpr hslot, action?_eq_none_iff.mpr hk, if_neg (by simp)]
  | some j =>
    rw [hk] at hslot
    rw [action?_eq_getElem? hslot, action?_eq_getElem? hk]
    by_cases hj : j = k
    · subst hj
      obtain ⟨hlt, -⟩ := List.getElem?_eq_some_iff.mp ha
      simp [conclude, hlt]
    · simp [conclude, hj, Ne.symm hj]

/-! ## Two conclusions -/

/-- No input for an open action is marked. -/
theorem MarksKnown.unmarked (h : g.MarksKnown) (ha : g.actions[k]? = some a)
    (hopen : a.status.isConfirmed = false) {s : Synapse} (hs : s ∈ g.synapses) : s.Unmarked k := by
  intro i hi hslot
  refine Bool.eq_false_iff.mpr fun hmark => ?_
  obtain ⟨status, hstatus, hknown⟩ := h s hs i hi hmark
  rw [hslot, statusAt_eq ha, Option.some.injEq] at hstatus
  rw [← hstatus, hopen] at hknown
  cases hknown

/-- Two actions are concluded in either order, if each makes no difference to the inputs that the
other marks. -/
theorem conclude_comm_of_readied (hne : k₁ ≠ k₂) (hb₁ : b₁.status.isConfirmed = true)
    (hb₂ : b₂.status.isConfirmed = true)
    (h₁ : ∀ s ∈ g.synapses, (s.mark k₁).readied ((g.actions.set k₁ b₁).set k₂ b₂) =
      (s.mark k₁).readied (g.actions.set k₁ b₁))
    (h₂ : ∀ s ∈ g.synapses, (s.mark k₂).readied ((g.actions.set k₂ b₂).set k₁ b₁) =
      (s.mark k₂).readied (g.actions.set k₂ b₂)) :
    (g.conclude k₁ b₁).conclude k₂ b₂ = (g.conclude k₂ b₂).conclude k₁ b₁ := by
  have hactions : (g.actions.set k₁ b₁).set k₂ b₂ = (g.actions.set k₂ b₂).set k₁ b₁ :=
    List.set_comm b₁ b₂ hne
  have hsynapses : ((g.conclude k₁ b₁).conclude k₂ b₂).synapses =
      ((g.conclude k₂ b₂).conclude k₁ b₁).synapses := by
    simp only [conclude, List.map_map]
    exact List.map_congr_left fun s hs => s.absorbed_comm hne hb₁ hb₂ (h₁ s hs) (h₂ s hs)
  simp only [conclude] at hsynapses ⊢
  rw [hsynapses, hactions]

/-- **Two open actions are concluded in either order.** -/
theorem conclude_comm (hne : k₁ ≠ k₂) (hb₁ : b₁.status.isConfirmed = true)
    (hb₂ : b₂.status.isConfirmed = true) (h₁ : ∀ s ∈ g.synapses, s.Unmarked k₁)
    (h₂ : ∀ s ∈ g.synapses, s.Unmarked k₂) :
    (g.conclude k₁ b₁).conclude k₂ b₂ = (g.conclude k₂ b₂).conclude k₁ b₁ := by
  refine conclude_comm_of_readied hne hb₁ hb₂ (fun s hs => ?_) fun s hs => ?_
  · exact Synapse.readied_congr ((h₂ s hs).mark hne) fun j hj => List.getElem?_set_ne hj.symm
  · exact Synapse.readied_congr ((h₁ s hs).mark hne.symm) fun j hj => List.getElem?_set_ne hj.symm

end Graph
end ClusterTransition
