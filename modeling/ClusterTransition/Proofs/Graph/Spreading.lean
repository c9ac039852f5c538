import ClusterTransition.Proofs.Graph.Commuting

/-! # Spreading again, and in another order

`Graph.conclude_comm` is about runs: what has a mark there is known, and only known actions are
spread.  Here nothing is assumed.  In any graph, spreading a completion twice is the same as
spreading it once, and two completions can be spread in either order
(`Graph.updates_idempotent_comm`).

What one spread does has a closed form (`Graph.update_eq_spread`).  It goes through the synapses one
by one and may confirm an action halfway, but no synapse sees this: an action that is confirmed by
the spread had not failed, and the action that is spread is not looked at again.

The other order leaves the same since the first of two completions has one of three effects on a
synapse.  It marks inputs while an input for the second action holds the synapse up, and marks
commute.  It settles the synapse, which the second would have done without it.  Or the second does
not change the synapse in either order.
-/

namespace ClusterTransition

/-! ## Actions whose results become known -/

/-- The action, which is confirmed unless its result is known. -/
def Action.known (a : Action) : Action :=
  if a.status.isConfirmed then a else { a with status := .confirmed }

namespace Action

variable (a : Action)

theorem known_of_isConfirmed {a : Action} (h : a.status.isConfirmed = true) : a.known = a :=
  if_pos h

theorem isConfirmed_known : a.known.status.isConfirmed = true := by
  unfold known
  split
  · assumption
  · rfl

/-- To become known is not to fail. -/
theorem isFailed_known : a.known.status.isFailed = a.status.isFailed := by
  unfold known
  split
  · rfl
  · cases h : a.status <;> simp_all [ActionStatus.isConfirmed, ActionStatus.isFailed]

theorem canFail_known : a.known.canFail = a.canFail := by
  unfold known
  split <;> rfl

end Action

/-- No action at a slot is open. -/
def ClosedAt (actions : List Action) (k : Nat) : Prop :=
  ∀ b, actions[k]? = some b → b.status.isConfirmed = true

section Known

variable {actions : List Action} {j k : Nat}

theorem closedAt_modify : ClosedAt (actions.modify k Action.known) k := by
  intro b hb
  rw [List.getElem?_modify] at hb
  obtain ⟨a, -, rfl⟩ := Option.map_eq_some_iff.mp hb
  simpa using a.isConfirmed_known

theorem closedAt_modify_of_ne (h : k ≠ j) :
    ClosedAt (actions.modify k Action.known) j ↔ ClosedAt actions j := by
  simp only [ClosedAt, List.getElem?_modify, if_neg h, Option.map_eq_map, Option.map_id']

theorem ClosedAt.modify (h : ClosedAt actions k) : actions.modify k Action.known = actions :=
  modify_of_eq fun a ha => Action.known_of_isConfirmed (h a ha)

theorem modify_known_comm :
    (actions.modify j Action.known).modify k Action.known =
      (actions.modify k Action.known).modify j Action.known := by
  by_cases h : j = k
  · rw [h]
  · exact List.modify_modify_ne _ _ _ h

end Known

/-! ## One synapse -/

namespace Synapse

variable {s : Synapse} {k k₁ k₂ : Nat} {a a' a₁ a₂ : Action} {actions actions' : List Action}
  {synapses : List Synapse}

/-- The synapse confirms the action at a slot when its completion comes. -/
def Confirms (k : Nat) (s : Synapse) : Prop := s.status = .executing ∧ k ∈ s.actions

instance (k : Nat) (s : Synapse) : Decidable (s.Confirms k) :=
  inferInstanceAs (Decidable (_ ∧ _))

/-! ### What a synapse sees of the actions -/

/-- What leaves the failures as they are lets the same inputs go. -/
theorem inputsSatisfied_modify {f : Action → Action}
    (hf : ∀ b, (f b).status.isFailed = b.status.isFailed ∧ (f b).canFail = b.canFail) :
    s.inputsSatisfied (actions.modify k f) = s.inputsSatisfied actions := by
  have hopen (i : Input) :
      i.isOpen (actions.modify k f) s.priority = i.isOpen actions s.priority := by
    simp only [Input.isOpen, List.getElem?_modify, Option.map_eq_map]
    cases actions[i.slot]? with
    | none => rfl
    | some b =>
      simp only [Option.map_some]
      split
      · rw [(hf b).1, (hf b).2]
      · rfl
  simp only [inputsSatisfied]
  exact congrArg s.inputs.all (funext hopen)

theorem inputsSatisfied_modify_known :
    s.inputsSatisfied (actions.modify k Action.known) = s.inputsSatisfied actions :=
  inputsSatisfied_modify fun b => ⟨b.isFailed_known, b.canFail_known⟩

theorem othersConfirmed_iff_closedAt :
    s.othersConfirmed actions k = true ↔ ∀ m ∈ s.actions, m ≠ k → ClosedAt actions m := by
  simp only [othersConfirmed, List.all_eq_true, Bool.or_eq_true, decide_eq_true_eq, ClosedAt,
    or_iff_not_imp_left]
  refine forall₃_congr fun m _ _ => ?_
  cases actions[m]? <;> simp

theorem othersConfirmed_modify_known :
    s.othersConfirmed (actions.modify k Action.known) k = s.othersConfirmed actions k := by
  rw [Bool.eq_iff_iff, othersConfirmed_iff_closedAt, othersConfirmed_iff_closedAt]
  exact forall₃_congr fun m _ hm => closedAt_modify_of_ne (Ne.symm hm)

theorem accepts_known (s : Synapse) (a : Action) : s.accepts a.known = s.accepts a := by
  rw [accepts, accepts, a.isFailed_known, a.canFail_known]

/-! ### One completion -/

theorem confirmMember_eq : (s.confirmMember actions k).2 =
    if k ∈ s.actions then actions.modify k Action.known else actions := by
  simp only [confirmMember]
  split
  · rename_i hnone
    have hknown : ClosedAt actions k := by simp [ClosedAt, hnone]
    rw [hknown.modify, ite_self]
  · rename_i b hb
    by_cases hmem : k ∈ s.actions
    · by_cases hc : b.status.isConfirmed = true
      · have hknown : ClosedAt actions k := by simpa [ClosedAt, hb] using hc
        simp [hmem, hc, hknown.modify]
      · have hopen : b.known = { b with status := .confirmed } := if_neg hc
        have hmodify : (actions.modify k fun a => { a with status := .confirmed }) =
            actions.modify k Action.known := by
          refine modify_congr fun c hc' => ?_
          rw [hb, Option.some.injEq] at hc'
          rw [← hc', hopen]
        simp [hmem, hc, hmodify]
    · simp [hmem]

theorem absorb_executing (h : s.status = .executing) :
    (s.absorb k a actions).2 =
      (if s.othersConfirmed actions k then { s with status := .confirmed } else s,
        if k ∈ s.actions then actions.modify k Action.known else actions) := by
  have hothers : s.othersConfirmed (s.confirmMember actions k).2 k =
      s.othersConfirmed actions k := by
    rw [confirmMember_eq]
    split
    · exact othersConfirmed_modify_known
    · rfl
  simp only [absorb, h, hothers]
  split <;> simp only [confirmMember_eq]

/-- The actions that a synapse leaves. -/
theorem absorb_actions : (s.absorb k a actions).2.2 =
    if s.Confirms k then actions.modify k Action.known else actions := by
  cases h : s.status with
  | executing => simp only [absorb_executing h, Confirms, h, true_and]
  | confirmed | failed | skipped => simp [absorb, Confirms, h]
  | unfired | ready =>
    simp only [absorb, Confirms, h, reduceCtorEq, false_and, if_false]
    split <;> rfl

/-- An executing synapse is confirmed unless the result of another of its actions is open. -/
theorem absorbed_executing (h : s.status = .executing) : s.absorbed k a actions =
    if s.othersConfirmed actions k then { s with status := .confirmed } else s := by
  rw [absorbed, absorb_executing h]

/-- A synapse does not see that the action which is spread was confirmed on behalf of another. -/
theorem absorbed_modify_known :
    s.absorbed k a (actions.modify k Action.known) = s.absorbed k a actions := by
  have hwaits (hwaits : s.status = .unfired ∨ s.status = .ready) :
      s.absorbed k a (actions.modify k Action.known) = s.absorbed k a actions := by
    simp only [absorbed_of_waiting hwaits, satisfyInputs, inputsSatisfied_modify_known]
  cases hs : s.status with
  | unfired => exact hwaits (.inl hs)
  | ready => exact hwaits (.inr hs)
  | executing => rw [absorbed_executing hs, absorbed_executing hs, othersConfirmed_modify_known]
  | confirmed | failed | skipped =>
    have hsettled : s.status.isSettled = true := by rw [hs]; rfl
    rw [absorbed_of_isSettled hsettled, absorbed_of_isSettled hsettled]

/-! ### The same completion again -/

/-- The inputs for an action are marked once its completion has come, and stay so. -/
theorem not_heeds_absorbed (hwaits : s.status = .unfired ∨ s.status = .ready)
    (ha : s.accepts a' = s.accepts a) : ¬ (s.absorbed k a actions).Heeds k a' := by
  by_cases h : s.Heeds k a
  · rw [absorbed_of_heeds hwaits h]
    rintro ⟨-, i, hi, hslot, hmark⟩
    rw [inputs_readied] at hi
    obtain ⟨j, -, rfl⟩ := List.mem_map.mp hi
    rw [slot_satisfy] at hslot
    simp [Input.satisfy, hslot] at hmark
  · rw [absorbed_of_not_heeds hwaits h]
    rwa [Heeds, ha]

/-- The same completion does nothing to a synapse again. -/
theorem absorb_absorbed (ha : s.accepts a' = s.accepts a)
    (hknown : s.Confirms k → ClosedAt actions' k)
    (hothers : s.othersConfirmed actions' k = s.othersConfirmed actions k) :
    (s.absorbed k a actions).absorb k a' actions' =
      (false, s.absorbed k a actions, actions') := by
  have hwaits (hwaits : s.status = .unfired ∨ s.status = .ready) :
      (s.absorbed k a actions).absorb k a' actions' =
        (false, s.absorbed k a actions, actions') := by
    refine absorb_of_not_heeds ?_ (not_heeds_absorbed hwaits ha)
    by_cases h : s.Heeds k a
    · rw [absorbed_of_heeds hwaits h]
      exact waits_readied (s := s.mark k) hwaits
    · rwa [absorbed_of_not_heeds hwaits h]
  cases hs : s.status with
  | unfired => exact hwaits (.inl hs)
  | ready => exact hwaits (.inr hs)
  | executing =>
    rw [absorbed_executing hs]
    cases hc : s.othersConfirmed actions k with
    | true => rfl
    | false =>
      have hmember : s.confirmMember actions' k = (false, actions') := by
        by_cases hmem : k ∈ s.actions
        · exact confirmMember_of_confirmed (hknown ⟨hs, hmem⟩)
        · simp only [confirmMember]
          split <;> simp [hmem]
      simp only [Bool.false_eq_true, if_false, absorb, hs, hmember, hothers, hc]
  | confirmed | failed | skipped =>
    rw [absorbed_of_isSettled (by rw [hs]; rfl)]
    simp only [absorb, hs]

end Synapse

/-! ## The actions after a spread -/

/-- The actions once a completion has reached the synapses. -/
def confirmedBy (k : Nat) (synapses : List Synapse) (actions : List Action) : List Action :=
  if ∃ s ∈ synapses, s.Confirms k then actions.modify k Action.known else actions

section ConfirmedBy

variable {s : Synapse} {j k : Nat} {a : Action} {actions : List Action} {synapses : List Synapse}

theorem confirmedBy_cons : confirmedBy k (s :: synapses) actions =
    confirmedBy k synapses (s.absorb k a actions).2.2 := by
  rw [Synapse.absorb_actions]
  simp only [confirmedBy, List.mem_cons, exists_eq_or_imp]
  by_cases hs : s.Confirms k
  · have hagain : (actions.modify k Action.known).modify k Action.known =
        actions.modify k Action.known := closedAt_modify.modify
    simp only [hs, true_or, if_true, hagain, ite_self]
  · simp only [hs, false_or, if_false]

theorem closedAt_confirmedBy (hs : s ∈ synapses) (h : s.Confirms k) :
    ClosedAt (confirmedBy k synapses actions) k := by
  rw [confirmedBy, if_pos ⟨s, hs, h⟩]
  exact closedAt_modify

theorem closedAt_confirmedBy_of_ne (h : k ≠ j) :
    ClosedAt (confirmedBy k synapses actions) j ↔ ClosedAt actions j := by
  rw [confirmedBy]
  split
  · exact closedAt_modify_of_ne h
  · rfl

/-- What is confirmed by a spread had not failed, so it holds up the same synapses. -/
theorem readied_confirmedBy :
    s.readied (confirmedBy k synapses actions) = s.readied actions := by
  rw [confirmedBy]
  split
  · simp only [Synapse.readied, Synapse.inputsSatisfied_modify_known]
  · rfl

theorem othersConfirmed_confirmedBy :
    s.othersConfirmed (confirmedBy k synapses actions) k = s.othersConfirmed actions k := by
  rw [confirmedBy]
  split
  · exact Synapse.othersConfirmed_modify_known
  · rfl

theorem confirmedBy_comm (synapses' : List Synapse) :
    confirmedBy j synapses' (confirmedBy k synapses actions) =
      confirmedBy k synapses (confirmedBy j synapses' actions) := by
  unfold confirmedBy
  split <;> split
  · exact modify_known_comm
  all_goals rfl

/-- Each synapse is changed as if it stood alone. -/
theorem absorbAll_eq (synapses : List Synapse) : (absorbAll k a actions synapses).2 =
    (synapses.map (Synapse.absorbed k a actions), confirmedBy k synapses actions) := by
  induction synapses generalizing actions with
  | nil => simp [absorbAll, confirmedBy]
  | cons s rest ih =>
    have hsame : Synapse.absorbed k a (s.absorb k a actions).2.2 =
        Synapse.absorbed k a actions := by
      funext t
      rw [Synapse.absorb_actions]
      split
      · exact Synapse.absorbed_modify_known
      · rfl
    simp only [absorbAll, ih, hsame, ← confirmedBy_cons, List.map_cons]
    rfl

/-- A spread that does nothing to any synapse does nothing. -/
theorem absorbAll_of_still (synapses : List Synapse)
    (h : ∀ s ∈ synapses, s.absorb k a actions = (false, s, actions)) :
    absorbAll k a actions synapses = (false, synapses, actions) := by
  induction synapses with
  | nil => rfl
  | cons s rest ih =>
    rw [List.forall_mem_cons] at h
    simp only [absorbAll, h.1, ih h.2, Bool.or_self]

end ConfirmedBy

/-! ## Two completions and one synapse -/

namespace Synapse

variable {s : Synapse} {k k₁ k₂ : Nat} {a a₁ a₂ : Action} {actions : List Action}
  {synapses : List Synapse}

/-- The results of all the synapse's actions are known, but for those that two completions tell. -/
def RestKnown (actions : List Action) (k₁ k₂ : Nat) (s : Synapse) : Prop :=
  ∀ m ∈ s.actions, m ≠ k₁ ∧ m ≠ k₂ → ClosedAt actions m

theorem restKnown_comm : s.RestKnown actions k₁ k₂ ↔ s.RestKnown actions k₂ k₁ := by
  simp only [RestKnown, and_comm]

/-- Two completions confirm an executing synapse together if nothing else is open. -/
theorem absorbed_absorbed_executing (hexec : s.status = .executing) (hs : s ∈ synapses)
    (hne : k₁ ≠ k₂) [Decidable (s.RestKnown actions k₁ k₂)] :
    (s.absorbed k₁ a₁ actions).absorbed k₂ a₂ (confirmedBy k₁ synapses actions) =
      if s.RestKnown actions k₁ k₂ then { s with status := .confirmed } else s := by
  rw [absorbed_executing hexec]
  by_cases hfirst : s.othersConfirmed actions k₁ = true
  · have hrest : s.RestKnown actions k₁ k₂ := fun m hm h =>
      othersConfirmed_iff_closedAt.mp hfirst m hm h.1
    rw [if_pos hfirst, if_pos hrest, absorbed_of_isSettled rfl]
  · rw [if_neg hfirst, absorbed_executing hexec]
    -- the first was confirmed on behalf of the synapse, if it is the synapse's at all
    have hsecond : s.othersConfirmed (confirmedBy k₁ synapses actions) k₂ = true ↔
        s.RestKnown actions k₁ k₂ := by
      rw [othersConfirmed_iff_closedAt]
      refine forall₂_congr fun m hm => ?_
      by_cases hm₁ : m = k₁
      · subst hm₁
        simp [closedAt_confirmedBy hs ⟨hexec, hm⟩]
      · simp [hm₁, closedAt_confirmedBy_of_ne (Ne.symm hm₁)]
    simp only [hsecond]

/-- **A synapse takes two completions in either order**, whatever is known. -/
theorem absorbed_confirmedBy_comm (hs : s ∈ synapses) (hne : k₁ ≠ k₂) :
    (s.absorbed k₁ a₁ actions).absorbed k₂ a₂ (confirmedBy k₁ synapses actions) =
      (s.absorbed k₂ a₂ actions).absorbed k₁ a₁ (confirmedBy k₂ synapses actions) := by
  have hwaits (hwaits : s.status = .unfired ∨ s.status = .ready) :
      (s.absorbed k₁ a₁ actions).absorbed k₂ a₂ (confirmedBy k₁ synapses actions) =
        (s.absorbed k₂ a₂ actions).absorbed k₁ a₁ (confirmedBy k₂ synapses actions) :=
    absorbed_comm_of_waits hwaits hne (by rw [readied_confirmedBy, readied_confirmedBy])
      readied_confirmedBy readied_confirmedBy
  cases hstatus : s.status with
  | unfired => exact hwaits (.inl hstatus)
  | ready => exact hwaits (.inr hstatus)
  | executing =>
    classical
    rw [absorbed_absorbed_executing hstatus hs hne,
      absorbed_absorbed_executing hstatus hs hne.symm]
    simp only [restKnown_comm]
  | confirmed | failed | skipped =>
    have hsettled : s.status.isSettled = true := by rw [hstatus]; rfl
    simp only [absorbed_of_isSettled hsettled]

theorem confirms_of_absorbed (h : (s.absorbed k₁ a₁ actions).Confirms k₂) : s.Confirms k₂ := by
  obtain ⟨hexec, hmem⟩ := h
  refine ⟨executing_of_absorbed hexec, ?_⟩
  rwa [actions_eq_of_plan (plan_absorbed ..)] at hmem

/-- A synapse that is settled by one completion has no open action left for another. -/
theorem closedAt_of_absorbed (hne : k₁ ≠ k₂) (h : s.Confirms k₂)
    (hsettled : ¬ (s.absorbed k₁ a₁ actions).Confirms k₂) : ClosedAt actions k₂ := by
  rw [absorbed_executing h.1] at hsettled
  by_cases hothers : s.othersConfirmed actions k₁ = true
  · exact othersConfirmed_iff_closedAt.mp hothers k₂ h.2 hne.symm
  · rw [if_neg hothers] at hsettled
    exact absurd h hsettled

end Synapse

/-- What one completion settles makes no difference to what another confirms. -/
theorem confirmedBy_absorbed {k₁ k₂ : Nat} {a₁ : Action} {actions : List Action}
    {synapses : List Synapse} (hne : k₁ ≠ k₂) :
    confirmedBy k₂ (synapses.map (Synapse.absorbed k₁ a₁ actions))
        (confirmedBy k₁ synapses actions) =
      confirmedBy k₂ synapses (confirmedBy k₁ synapses actions) := by
  have hexists : (∃ t ∈ synapses.map (Synapse.absorbed k₁ a₁ actions), t.Confirms k₂) ↔
      ∃ s ∈ synapses, (s.absorbed k₁ a₁ actions).Confirms k₂ := by
    simp only [List.mem_map, exists_exists_and_eq_and]
  rw [confirmedBy, confirmedBy.eq_def k₂ synapses]
  simp only [hexists]
  by_cases h : ∃ s ∈ synapses, s.Confirms k₂
  · rw [if_pos h]
    obtain ⟨s, hs, hconfirms⟩ := h
    by_cases hstill : (s.absorbed k₁ a₁ actions).Confirms k₂
    · rw [if_pos ⟨s, hs, hstill⟩]
    · have hknown : ClosedAt (confirmedBy k₁ synapses actions) k₂ :=
        (closedAt_confirmedBy_of_ne hne).mpr (Synapse.closedAt_of_absorbed hne hconfirms hstill)
      rw [hknown.modify, ite_self]
  · have hnone : ¬ ∃ s ∈ synapses, (s.absorbed k₁ a₁ actions).Confirms k₂ :=
      fun ⟨s, hs, hstill⟩ => h ⟨s, hs, Synapse.confirms_of_absorbed hstill⟩
    rw [if_neg hnone, if_neg h]

/-! ## The graph -/

namespace Graph

variable {g : Graph} {id : ActionId} {k k₁ k₂ : Nat} {a a₁ a₂ : Action}

/-- The graph after the completion of the action at a slot has reached every synapse. -/
def spread (g : Graph) (k : Nat) (a : Action) : Graph :=
  { g with
    synapses := g.synapses.map (Synapse.absorbed k a g.actions)
    actions := confirmedBy k g.synapses g.actions }

/-- **The closed form of a spread.** -/
theorem update_eq_spread (hk : g.slotOf? id = some k) (ha : g.actions[k]? = some a) :
    (g.update id).2 = g.spread k a := by
  simp only [update, hk, ha, absorbAll_eq, spread]

theorem update_of_unknown (h : g.slotOf? id = none) : g.update id = (false, g) := by
  simp only [update, h]

theorem slotOf?_update (id id' : ActionId) : (g.update id).2.slotOf? id' = g.slotOf? id' :=
  slotOf?_eq_of_plan (g.plan_update id) id'

/-- A spread changes no other action than the one that is spread. -/
theorem getElem?_spread_of_ne (hne : k₁ ≠ k₂) :
    (g.spread k₁ a₁).actions[k₂]? = g.actions[k₂]? := by
  simp only [spread, confirmedBy]
  split
  · simp [hne]
  · rfl

/-- The action that is spread is accepted by the same synapses afterwards. -/
theorem exists_getElem?_spread (ha : g.actions[k]? = some a) :
    ∃ a', (g.spread k a).actions[k]? = some a' ∧ ∀ s : Synapse, s.accepts a' = s.accepts a := by
  simp only [spread, confirmedBy]
  split
  · exact ⟨a.known, by simp [ha], fun s => s.accepts_known a⟩
  · exact ⟨a, ha, fun _ => rfl⟩

/-- **A second spread finds nothing to do.** -/
theorem update_update (g : Graph) (id : ActionId) :
    (g.update id).2.update id = (false, (g.update id).2) := by
  cases hk : g.slotOf? id with
  | none => rw [update_of_unknown hk, update_of_unknown hk]
  | some k =>
    obtain ⟨a, ha, -⟩ := exists_action_of_slotOf? hk
    have hk' : (g.spread k a).slotOf? id = some k := by
      rw [← update_eq_spread hk ha, slotOf?_update, hk]
    obtain ⟨a', ha', haccepts⟩ := exists_getElem?_spread ha
    have hstill : ∀ s ∈ (g.spread k a).synapses,
        s.absorb k a' (g.spread k a).actions = (false, s, (g.spread k a).actions) := by
      intro t ht
      obtain ⟨s, hs, rfl⟩ := List.mem_map.mp ht
      exact Synapse.absorb_absorbed (haccepts s) (closedAt_confirmedBy hs)
        othersConfirmed_confirmedBy
    rw [update_eq_spread hk ha]
    simp only [update, hk', ha', absorbAll_of_still _ hstill]

theorem spread_comm (hne : k₁ ≠ k₂) :
    (g.spread k₁ a₁).spread k₂ a₂ = (g.spread k₂ a₂).spread k₁ a₁ := by
  have hsynapses : ((g.spread k₁ a₁).spread k₂ a₂).synapses =
      ((g.spread k₂ a₂).spread k₁ a₁).synapses := by
    simp only [spread, List.map_map]
    exact List.map_congr_left fun s hs => Synapse.absorbed_confirmedBy_comm hs hne
  have hactions : ((g.spread k₁ a₁).spread k₂ a₂).actions =
      ((g.spread k₂ a₂).spread k₁ a₁).actions := by
    simp only [spread]
    rw [confirmedBy_absorbed hne, confirmedBy_absorbed hne.symm, confirmedBy_comm]
  simp only [spread] at hsynapses hactions ⊢
  rw [hsynapses, hactions]

/-- **Two completions are spread in either order.** -/
theorem update_comm (g : Graph) (id₁ id₂ : ActionId) :
    ((g.update id₁).2.update id₂).2 = ((g.update id₂).2.update id₁).2 := by
  cases hk₁ : g.slotOf? id₁ with
  | none => rw [update_of_unknown hk₁, update_of_unknown ((slotOf?_update _ _).trans hk₁)]
  | some k₁ =>
    cases hk₂ : g.slotOf? id₂ with
    | none => rw [update_of_unknown hk₂, update_of_unknown ((slotOf?_update _ _).trans hk₂)]
    | some k₂ =>
      obtain ⟨a₁, ha₁, -, hid₁⟩ := exists_action_of_slotOf? hk₁
      obtain ⟨a₂, ha₂, -, hid₂⟩ := exists_action_of_slotOf? hk₂
      by_cases hk : k₁ = k₂
      · subst hk
        rw [ha₁, Option.some.injEq] at ha₂
        rw [← hid₁, ← hid₂, ha₂]
      · have hother₁ : (g.update id₁).2.actions[k₂]? = some a₂ := by
          rw [update_eq_spread hk₁ ha₁, getElem?_spread_of_ne hk, ha₂]
        have hother₂ : (g.update id₂).2.actions[k₁]? = some a₁ := by
          rw [update_eq_spread hk₂ ha₂, getElem?_spread_of_ne (Ne.symm hk), ha₁]
        rw [update_eq_spread ((slotOf?_update _ _).trans hk₂) hother₁,
          update_eq_spread ((slotOf?_update _ _).trans hk₁) hother₂,
          update_eq_spread hk₁ ha₁, update_eq_spread hk₂ ha₂, spread_comm hk]

/-- **Spreading is idempotent and does not depend on the order.**  In every graph, whatever the
statuses, priorities, inputs and owners are, a second spread of the same completion reports no
change and makes none, and two completions leave the same graph in either order. -/
theorem updates_idempotent_comm (g : Graph) (a b : ActionId) :
    (g.update a).2.update a = (false, (g.update a).2) ∧
      ((g.update a).2.update b).2 = ((g.update b).2.update a).2 :=
  ⟨g.update_update a, g.update_comm a b⟩

end Graph
end ClusterTransition
