import ClusterTransition.Proofs.Engine.Prerequisites
import ClusterTransition.Proofs.Pass.Firing

/-! # What the status of a synapse says of its actions

A synapse is confirmed only when the results of all its actions are known, and as long as it
executes one of them is outstanding (`Graph.confirmed_known` and `Graph.exists_executed` at the end
of this module).  This rests on one habit of the engine: whenever it makes a result known it spreads
the completion in the same breath, and a completion that spreads confirms each executing synapse
that has no open action left.

In the middle of a pass there are two exceptions.  The synapse that is being fired has not handed
over all of its actions, and as long as it has handed over none, all of them may be known already.
-/

namespace ClusterTransition

open ClusterTransition.Graph (Advance Advances Edit Edits KnownAt)

/-! ## One synapse -/

namespace Synapse

variable {slot : Nat} {a : Action} {actions : List Action} {s : Synapse}

/-- If no action but the one at `slot` is open, the results of the others are known. -/
theorem known_of_othersConfirmed {g : Graph} (hlt : ∀ k ∈ s.actions, k < g.actions.length)
    (h : s.othersConfirmed g.actions slot) {k : Nat} (hk : k ∈ s.actions) (hne : k ≠ slot) :
    g.KnownAt k := by
  have ha := List.getElem?_eq_getElem (hlt k hk)
  have hknown := List.all_eq_true.mp h k hk
  simp only [hne, decide_false, Bool.false_or, ha, Option.map_some, Option.getD_some] at hknown
  exact ⟨_, Graph.statusAt_eq ha, hknown⟩

/-- If not all others are known, one of the actions is open. -/
theorem exists_open_of_not_othersConfirmed {g : Graph}
    (h : s.othersConfirmed g.actions slot = false) : ∃ k ∈ s.actions, ¬ g.KnownAt k := by
  obtain ⟨k, hk, hopen⟩ := List.all_eq_false.mp h
  refine ⟨k, hk, ?_⟩
  rintro ⟨status, hstatus, hknown⟩
  obtain ⟨b, hb, rfl⟩ := Option.map_eq_some_iff.mp hstatus
  simp [hb, hknown] at hopen

end Synapse

/-! ## One graph -/

namespace Graph

/-- A confirmed synapse has no open action. -/
def ConfirmedKnown (g : Graph) : Prop :=
  ∀ s ∈ g.synapses, s.status = .confirmed → ∀ k ∈ s.actions, g.KnownAt k

/-- An executing synapse that owns actions has an open one; `exempt` may be an exception. -/
def Outstanding (exempt : Option Nat) (g : Graph) : Prop :=
  ∀ (p : Nat) (s : Synapse), g.synapses[p]? = some s → exempt ≠ some p → s.status = .executing →
    s.actions ≠ [] → ∃ k ∈ s.actions, ¬ g.KnownAt k

/-- An executing synapse has handed over its actions, but for those at the slots `rest`. -/
def HandedOn (rest : List Nat) (g : Graph) : Prop :=
  ∀ s ∈ g.synapses, s.status = .executing → ∀ k ∈ s.actions, k ∉ rest → g.statusAt k ≠ some .pending

variable {g g' : Graph} {id : ActionId} {exempt : Option Nat} {rest : List Nat}

theorem ConfirmedKnown.of_eq (h : g.ConfirmedKnown) (hsynapses : g'.synapses = g.synapses)
    (hkeep : KeepsKnown g g') : g'.ConfirmedKnown := by
  intro s hs hstatus k hk
  rw [hsynapses] at hs
  exact hkeep k (h s hs hstatus k hk)

theorem Outstanding.of_eq (h : g.Outstanding exempt) (hsynapses : g'.synapses = g.synapses)
    (hstatus : ∀ k, g'.statusAt k = g.statusAt k) : g'.Outstanding exempt := by
  intro p s hs hp hexec hne
  rw [hsynapses] at hs
  obtain ⟨k, hk, hopen⟩ := h p s hs hp hexec hne
  refine ⟨k, hk, ?_⟩
  rwa [KnownAt, hstatus]

theorem HandedOn.of_eq (h : g.HandedOn rest) (hsynapses : g'.synapses = g.synapses)
    (hpending : ∀ k, g'.statusAt k = some .pending → g.statusAt k = some .pending) :
    g'.HandedOn rest := by
  intro s hs hexec k hk hrest hstatus
  rw [hsynapses] at hs
  exact h s hs hexec k hk hrest (hpending k hstatus)

/-! ### Edits -/

theorem ConfirmedKnown.edit (h : g.ConfirmedKnown) (hw : g.WellFormed) (hedit : Edit id g g') :
    g'.ConfirmedKnown := by
  intro s' hs' hstatus k hk
  obtain ⟨p, hp⟩ := List.getElem?_of_mem hs'
  obtain ⟨s, hs, hcases⟩ := hedit.synapse hp
  have hmem := List.mem_of_getElem? hs
  refine keepsKnown_edits (.single hedit) k ?_
  rcases hcases with rfl | ⟨slot, a, -, hget, hc, -, rfl⟩
  · exact h s' hmem hstatus k hk
  · rw [Synapse.actions_eq_of_plan (Synapse.plan_absorbed ..)] at hk
    have hfired : (s.absorbed slot a g.actions).status.isExecuted = s.status.isExecuted :=
      Synapse.isExecuted_absorbed
    rw [hstatus] at hfired
    cases hs' : s.status with
    | confirmed => exact h s hmem hs' k hk
    | executing =>
      have hall : ∀ b, g.actions[slot]? = some b → b.status.isConfirmed := by
        intro b hb
        rw [hget, Option.some.injEq] at hb
        exact hb ▸ hc
      rw [Synapse.absorbed_of_executing hs' hall] at hstatus
      split at hstatus
      · rename_i hothers
        by_cases hne : k = slot
        · exact ⟨a.status, by rw [hne, statusAt_eq hget], hc⟩
        · exact Synapse.known_of_othersConfirmed (fun j hj => hw.slot_lt hmem hj) hothers hk hne
      · rw [hs'] at hstatus
        cases hstatus
    | failed =>
      rw [Synapse.absorbed_of_isSettled (by rw [hs']; rfl), hs'] at hstatus
      cases hstatus
    | unfired | ready | skipped =>
      rw [hs'] at hfired
      cases hfired

theorem ConfirmedKnown.edits (h : g.ConfirmedKnown) (hw : g.WellFormed) (hedits : Edits id g g') :
    g'.ConfirmedKnown := by
  induction hedits with
  | refl => exact h
  | tail steps step ih => exact ih.edit (hw.of_plan (Edits.plan steps)) step

/-- What is pending after edits was pending before. -/
theorem pending_of_edits (hedits : Edits id g g') {k : Nat}
    (hk : g'.statusAt k = some .pending) : g.statusAt k = some .pending := by
  rcases hedits.statusAt_self k with heq | ⟨new, hnew, hknown⟩
  · rwa [← heq]
  · rw [hk, Option.some.injEq] at hnew
    subst hnew
    cases hknown

/-- A synapse that executes after edits did so before. -/
theorem executing_of_edits (hedits : Edits id g g') {p : Nat} {s' : Synapse}
    (hs' : g'.synapses[p]? = some s') (hexec : s'.status = .executing) :
    ∃ s, g.synapses[p]? = some s ∧ s.status = .executing ∧ s'.actions = s.actions := by
  induction hedits generalizing s' with
  | refl => exact ⟨s', hs', hexec, rfl⟩
  | tail _ step ih =>
    obtain ⟨s₁, hs₁, hcases⟩ := step.synapse hs'
    rcases hcases with rfl | ⟨slot, a, -, -, -, -, rfl⟩
    · exact ih hs₁ hexec
    · obtain ⟨s, hs, hstatus, hactions⟩ := ih hs₁ (Synapse.executing_of_absorbed hexec)
      refine ⟨s, hs, hstatus, ?_⟩
      rw [Synapse.actions_eq_of_plan (Synapse.plan_absorbed ..), hactions]

theorem HandedOn.edits (h : g.HandedOn rest) (hedits : Edits id g g') : g'.HandedOn rest := by
  intro s' hs' hexec k hk hrest hpending
  obtain ⟨p, hp⟩ := List.getElem?_of_mem hs'
  obtain ⟨s, hs, hexec', hactions⟩ := executing_of_edits hedits hp hexec
  rw [hactions] at hk
  exact h s (List.mem_of_getElem? hs) hexec' k hk hrest (pending_of_edits hedits hpending)

/-! ### Completions -/

/-- Something was done on behalf of an action, and then it was confirmed, if its result was not
known, and its completion spread. -/
def Completed (g g' : Graph) : Prop :=
  ∃ id g₁, Edits id g g₁ ∧ g' = ((g₁.settle id .confirmed).2.update id).2

/-- Nothing is done on behalf of an action that does not exist. -/
theorem edits_of_slotOf?_eq_none (hedits : Edits id g g') (hk : g.slotOf? id = none) :
    (∀ p : Nat, g'.synapses[p]? = g.synapses[p]?) ∧ ∀ k, g'.statusAt k = g.statusAt k := by
  refine ⟨fun p => ?_, fun k => hedits.statusAt_other (by rw [hk]; simp)⟩
  induction hedits with
  | refl => rfl
  | @tail g₁ g₂ steps step ih =>
    have hk₁ := (slotOf?_eq_of_plan (Edits.plan steps) id).trans hk
    refine Eq.trans ?_ ih
    cases step with
    | note => rw [synapses_modifyAction]
    | settle => rw [synapses_settle]
    | spread ha =>
      rw [action?_eq_none_iff.mpr hk₁] at ha
      cases ha
    | abort | shutdown => rfl

/-- A completion that spreads leaves no executing synapse without an open action. -/
theorem outstanding_update {a : Action} (ha : g.action? id = some a) (hc : a.status.isConfirmed) :
    (g.update id).2.Outstanding none := by
  intro p s' hs' _ hexec hne
  obtain ⟨slot, hslot, hget, -⟩ := exists_slot_of_action? ha
  rw [update_of_confirmed hslot hget hc, List.getElem?_map] at hs'
  obtain ⟨s, hs, rfl⟩ := Option.map_eq_some_iff.mp hs'
  have hall : ∀ b, g.actions[slot]? = some b → b.status.isConfirmed := by
    intro b hb
    rw [hget, Option.some.injEq] at hb
    exact hb ▸ hc
  have hexec' := Synapse.executing_of_absorbed hexec
  rw [Synapse.absorbed_of_executing hexec' hall] at hexec ⊢
  split at hexec
  · cases hexec
  · rename_i hothers
    rw [if_neg hothers]
    obtain ⟨k, hk, hopen⟩ := Synapse.exists_open_of_not_othersConfirmed (by simpa using hothers)
    refine ⟨k, hk, ?_⟩
    rwa [KnownAt, statusAt_update_of_confirmed ha hc]

theorem Outstanding.completed (h : g.Outstanding none) (hcompleted : g.Completed g') :
    g'.Outstanding none := by
  obtain ⟨id, g₁, hedits, rfl⟩ := hcompleted
  cases ha : g₁.action? id with
  | none =>
    have hnone := action?_eq_none_iff.mp ha
    have hsame : ((g₁.settle id .confirmed).2.update id).2 = g₁ := by
      simp only [settle, ha, update, hnone]
    rw [hsame]
    obtain ⟨hsynapses, hstatus⟩ := edits_of_slotOf?_eq_none hedits
      ((slotOf?_eq_of_plan hedits.plan id).symm.trans hnone)
    exact h.of_eq (List.ext_getElem? hsynapses) hstatus
  | some a =>
    obtain ⟨b, hb, hc⟩ :=
      exists_confirmed_of_settle (rfl : ActionStatus.confirmed.isConfirmed = true) ha
    exact outstanding_update hb hc

theorem Outstanding.advances (h : g.Outstanding none) (hadvances : Advances id g g') :
    g'.Outstanding none := by
  induction hadvances with
  | refl => exact h
  | tail _ step ih =>
    cases step with
    | note hplan hstatus =>
      exact ih.of_eq (synapses_modifyAction ..) (statusAt_modifyAction _ id hstatus)
    | finish => exact ih.completed ⟨id, _, .refl, rfl⟩
    | shutdown => exact ih.of_eq rfl fun _ => rfl

theorem Completed.edits (h : g.Completed g') : ∃ id, Edits id g g' := by
  obtain ⟨id, g₁, hedits, rfl⟩ := h
  exact ⟨id, hedits.trans (Edits.finish g₁ rfl)⟩

/-! ### What the pass itself writes -/

theorem ConfirmedKnown.setSynapseStatus (h : g.ConfirmedKnown) (pos : Nat)
    {status : SynapseStatus} (hstatus : status ≠ .confirmed) :
    (g.setSynapseStatus pos status).ConfirmedKnown := by
  intro s' hs' hconfirmed k hk
  obtain ⟨p, hp⟩ := List.getElem?_of_mem hs'
  obtain ⟨s, hs, ⟨rfl, rfl⟩ | ⟨-, rfl⟩⟩ := setSynapseStatus_cases hp
  · exact absurd hconfirmed hstatus
  · exact h s' (List.mem_of_getElem? hs) hconfirmed k hk

theorem Outstanding.weaken (h : g.Outstanding none) (exempt : Option Nat) :
    g.Outstanding exempt :=
  fun p s hs _ hexec hne => h p s hs (by simp) hexec hne

/-- The status of an exempt synapse may be set. -/
theorem Outstanding.setSynapseStatus {pos : Nat} (h : g.Outstanding (some pos))
    (status : SynapseStatus) : (g.setSynapseStatus pos status).Outstanding (some pos) := by
  intro p s' hs' hp hexec hne
  obtain ⟨s, hs, ⟨rfl, rfl⟩ | ⟨-, rfl⟩⟩ := setSynapseStatus_cases hs'
  · exact absurd rfl hp
  · exact h p s' hs hp hexec hne

/-- A synapse needs no exemption unless it executes. -/
theorem Outstanding.of_not_executing {pos : Nat} {s : Synapse} (h : g.Outstanding (some pos))
    (hs : g.synapses[pos]? = some s) (hstatus : s.status ≠ .executing) : g.Outstanding none := by
  intro p t ht _ hexec hne
  refine h p t ht ?_ hexec hne
  rintro ⟨⟩
  obtain rfl : s = t := Option.some.inj (hs.symm.trans ht)
  exact hstatus hexec

/-- The status of an action matters only to the synapse that owns it. -/
theorem Outstanding.setStatusAt (hw : g.WellFormed) {pos slot : Nat} {s : Synapse}
    (h : g.Outstanding (some pos)) (hs : g.synapses[pos]? = some s) (hslot : slot ∈ s.actions)
    (status : ActionStatus) : (g.setStatusAt slot status).Outstanding (some pos) := by
  intro p t ht hp hexec hne
  obtain ⟨k, hk, hopen⟩ := h p t ht hp hexec hne
  refine ⟨k, hk, ?_⟩
  rw [KnownAt, statusAt_setStatusAt, if_neg]
  · exact hopen
  · rintro rfl
    exact hp (congrArg some (hw.owner_unique hs ht hslot hk))

/-- An action that was just handed over is open. -/
theorem Outstanding.mark (hw : g.WellFormed) {pos slot : Nat} {s : Synapse}
    (h : g.Outstanding (some pos)) (hs : g.synapses[pos]? = some s) (hslot : slot ∈ s.actions) :
    (g.setStatusAt slot .executed).Outstanding none := by
  intro p t ht _ hexec hne
  by_cases hp : p = pos
  · subst hp
    obtain rfl : s = t := Option.some.inj (hs.symm.trans ht)
    refine ⟨slot, hslot, ?_⟩
    rintro ⟨status, hstatus, hknown⟩
    rw [statusAt_setStatusAt, if_pos rfl] at hstatus
    obtain ⟨-, -, rfl⟩ := Option.map_eq_some_iff.mp hstatus
    cases hknown
  · exact h.setStatusAt hw hs hslot .executed p t ht (fun heq => hp (Option.some.inj heq).symm)
      hexec hne

theorem HandedOn.mark {slot : Nat} (h : g.HandedOn (slot :: rest)) :
    (g.setStatusAt slot .executed).HandedOn rest := by
  intro s hs hexec k hk hrest hpending
  rw [statusAt_setStatusAt] at hpending
  split at hpending
  · obtain ⟨-, -, hpending⟩ := Option.map_eq_some_iff.mp hpending
    cases hpending
  · rename_i hne
    have hrest' : k ∉ slot :: rest := by
      simp only [List.mem_cons, not_or]
      exact ⟨fun heq => hne heq.symm, hrest⟩
    exact h s hs hexec k hk hrest' hpending

/-- After the firing of a synapse has failed there is no exception left. -/
theorem failFiring_members (hw : g.WellFormed) {pos slot : Nat} {s : Synapse}
    (hs : g.synapses[pos]? = some s) (hslot : slot ∈ s.actions) (hrest : rest ⊆ s.actions)
    (hconfirmed : g.ConfirmedKnown) (houtstanding : g.Outstanding (some pos))
    (hhanded : g.HandedOn rest) :
    (g.failFiring pos slot).ConfirmedKnown ∧ (g.failFiring pos slot).Outstanding none ∧
      (g.failFiring pos slot).HandedOn [] := by
  have hkeep : KeepsKnown g (g.setStatusAt slot (.failed .initiation)) :=
    keepsKnown_setStatusAt (.inr rfl)
  have hfail : (g.failFiring pos slot).synapses[pos]? = some { s with status := .failed } :=
    setSynapseStatus_getElem? (g := g.setStatusAt slot (.failed .initiation)) hs .failed
  refine ⟨?_, ?_, ?_⟩
  · have hset : (g.setStatusAt slot (.failed .initiation)).ConfirmedKnown :=
      hconfirmed.of_eq rfl hkeep
    exact hset.setSynapseStatus pos (by simp)
  · have hset := (houtstanding.setStatusAt hw hs hslot (.failed .initiation)).setSynapseStatus
      .failed
    have hfails : (g.failFiring pos slot).Outstanding (some pos) := hset
    exact hfails.of_not_executing hfail (by simp)
  · intro t' ht' hexec k hk _ hpending
    obtain ⟨p, hp⟩ := List.getElem?_of_mem ht'
    obtain ⟨t, ht, ⟨rfl, rfl⟩ | ⟨hne, rfl⟩⟩ := setSynapseStatus_cases hp
    · cases hexec
    · have hother {j : Nat} (hj : j ∈ s.actions) : j ≠ k := by
        rintro rfl
        exact hne (hw.owner_unique ht hs hk hj)
      have hstatus : (g.setStatusAt slot (.failed .initiation)).statusAt k = some .pending :=
        hpending
      rw [statusAt_setStatusAt, if_neg (hother hslot)] at hstatus
      exact hhanded t' (List.mem_of_getElem? ht) hexec k hk (fun hmem => hother (hrest hmem) rfl)
        hstatus

end Graph

/-! ## A pass -/

/-- Where a pass of an engine stands with respect to the members of the synapses.  The synapse that
is being fired is exempt until it has handed over its first action. -/
structure PassState.Membership {ε : Type} (x : PassState (Engine ε)) : Prop where
  orderly : x.Orderly
  confirmed : x.graph.ConfirmedKnown
  outstanding : x.graph.Outstanding x.stage.firing?
  started : ∀ pos slots s, x.stage = .firing pos slots → x.graph.synapses[pos]? = some s →
    slots ≠ s.actions → x.graph.Outstanding none
  handedOn : x.graph.HandedOn x.stage.rest

namespace PassState.Membership

variable {ε : Type} {c : Cluster ε}

/-- Between two synapses there is no exception. -/
theorem of_visiting {g : Graph} {e : Engine ε} (ho : PassState.Orderly ⟨.visiting, g, e⟩)
    (hconfirmed : g.ConfirmedKnown) (houtstanding : g.Outstanding none) (hhanded : g.HandedOn []) :
    PassState.Membership ⟨.visiting, g, e⟩ :=
  ⟨ho, hconfirmed, houtstanding, by simp, hhanded⟩

/-- What a dispatch leaves, whether the action goes or not. -/
theorem handed {g g' : Graph} {e e' : Engine ε} {pos slot : Nat} {slots : List Nat} {a : Action}
    {channel : Channel} {ok : Bool}
    (hx : PassState.Membership ⟨.firing pos (slot :: slots), g, e⟩)
    (ha : g.actions[slot]? = some a) (hpending : a.status = .pending)
    (hgoes : (Engine.dispatcher c).dispatch channel a.id (g.setStatusAt slot .executed) e =
      (ok, g', e')) :
    g'.ConfirmedKnown ∧ g'.Outstanding none ∧ g'.HandedOn slots := by
  obtain ⟨-, -, s, hs, -, hsub⟩ := hx.orderly.firing pos _ rfl
  have hslot := hsub (List.mem_cons_self ..)
  have hw := hx.orderly.wellFormed
  have hadvances := Engine.dispatcher_advances c channel a.id (g.setStatusAt slot .executed) e
  rw [hgoes] at hadvances
  have hstatus : g.statusAt slot = some .pending := hpending ▸ Graph.statusAt_eq ha
  have hconfirmed : (g.setStatusAt slot .executed).ConfirmedKnown :=
    hx.confirmed.of_eq rfl (Graph.keepsKnown_setStatusAt (.inl hstatus))
  have hmark := Graph.Outstanding.mark hw hx.outstanding hs hslot
  exact ⟨hconfirmed.edits (hw.of_plan (Graph.plan_setStatusAt ..)) hadvances.edits,
    hmark.advances hadvances, hx.handedOn.mark.edits hadvances.edits⟩

theorem step {x y : PassState (Engine ε)} (hx : x.Membership)
    (h : PassStep (Engine.dispatcher c) x y) : y.Membership := by
  have horderly := hx.orderly.step (Engine.dispatcher_handles c) h
  have hw := hx.orderly.wellFormed
  -- a synapse that does not fire may change its status
  have hset {g : Graph} {e : Engine ε} {pos : Nat} {s : Synapse} {status : SynapseStatus}
      (hx : PassState.Membership ⟨.visiting, g, e⟩) (hs : g.synapses[pos]? = some s)
      (hstatus : status = .ready ∨ status = .skipped) :
      (g.setSynapseStatus pos status).ConfirmedKnown ∧
        (g.setSynapseStatus pos status).Outstanding none ∧
        (g.setSynapseStatus pos status).HandedOn [] := by
    have hne : status ≠ .executing ∧ status ≠ .confirmed := by
      rcases hstatus with rfl | rfl <;> simp
    refine ⟨hx.confirmed.setSynapseStatus pos hne.2,
      ((hx.outstanding.weaken (some pos)).setSynapseStatus status).of_not_executing
        (Graph.setSynapseStatus_getElem? hs status) hne.1, ?_⟩
    intro t' ht' hexec k hk hrest
    obtain ⟨p, hp⟩ := List.getElem?_of_mem ht'
    obtain ⟨t, ht, ⟨rfl, rfl⟩ | ⟨-, rfl⟩⟩ := Graph.setSynapseStatus_cases hp
    · exact absurd hexec hne.1
    · exact hx.handedOn t' (List.mem_of_getElem? ht) hexec k hk hrest
  cases h with
  | count | conclude =>
    exact of_visiting horderly (hx.confirmed.of_eq rfl fun _ hk => hk)
      (hx.outstanding.of_eq rfl fun _ => rfl) (hx.handedOn.of_eq rfl fun _ hk => hk)
  | ready st hs hwaits hinputs =>
    obtain ⟨hconfirmed, houtstanding, hhanded⟩ := hset hx hs (.inl rfl)
    exact of_visiting horderly hconfirmed houtstanding hhanded
  | skip st hs hready hslot ha hpseudo hlevel =>
    obtain ⟨hconfirmed, houtstanding, hhanded⟩ := hset hx hs (.inr rfl)
    exact of_visiting horderly hconfirmed houtstanding hhanded
  | @fire g e pos s hs hready hinputs hallowed =>
    have hfires := (hx.outstanding.weaken (some pos)).setSynapseStatus .executing
    have hconfirmed : (g.setSynapseStatus pos .executing).ConfirmedKnown :=
      hx.confirmed.setSynapseStatus pos (by simp)
    refine ⟨horderly, hconfirmed, hfires, ?_, ?_⟩
    · rintro _ _ t ⟨⟩ ht hne
      have hs' := Graph.setSynapseStatus_getElem? hs .executing
      obtain rfl := Option.some.inj (hs'.symm.trans ht)
      exact absurd rfl hne
    · intro t' ht' hexec k hk hrest
      obtain ⟨p, hp⟩ := List.getElem?_of_mem ht'
      obtain ⟨t, ht, ⟨rfl, rfl⟩ | ⟨-, rfl⟩⟩ := Graph.setSynapseStatus_cases hp
      · obtain rfl : s = t := Option.some.inj (hs.symm.trans ht)
        exact absurd hk hrest
      · exact hx.handedOn t' (List.mem_of_getElem? ht) hexec k hk (by simp [PassStage.rest])
  | dispatch pos slots ha hpending hchannel hgoes =>
    obtain ⟨hconfirmed, houtstanding, hhanded⟩ := hx.handed ha hpending hgoes
    exact ⟨horderly, hconfirmed, houtstanding.weaken _, fun _ _ _ _ _ _ => houtstanding, hhanded⟩
  | @refuse g g' e e' pos slot slots a channel ha hpending hchannel hstays =>
    obtain ⟨hconfirmed, houtstanding, hhanded⟩ := hx.handed ha hpending hstays
    obtain ⟨-, -, s, hs, -, hsub⟩ := hx.orderly.firing pos _ rfl
    have hplan := ((Engine.dispatcher_handles c).edits hstays).plan.trans
      (Graph.plan_setStatusAt ..)
    obtain ⟨s', hs', hsplan⟩ := Graph.synapse_of_plan hplan.symm hs
    have hacts := Synapse.actions_eq_of_plan hsplan
    have hslot : slot ∈ s'.actions := hacts ▸ hsub (List.mem_cons_self ..)
    have hrest : slots ⊆ s'.actions :=
      hacts ▸ List.Subset.trans (List.subset_cons_self ..) hsub
    obtain ⟨hconfirmed', houtstanding', hhanded'⟩ := Graph.failFiring_members (hw.of_plan hplan)
      hs' hslot hrest hconfirmed (houtstanding.weaken _) hhanded
    exact of_visiting horderly hconfirmed' houtstanding' hhanded'
  | @unroutable g e pos slot slots a ha hpending hchannel =>
    obtain ⟨-, -, s, hs, -, hsub⟩ := hx.orderly.firing pos _ rfl
    have hslot := hsub (List.mem_cons_self ..)
    have hstatus : g.statusAt slot = some .pending := hpending ▸ Graph.statusAt_eq ha
    have hconfirmed : (g.setStatusAt slot .executed).ConfirmedKnown :=
      hx.confirmed.of_eq rfl (Graph.keepsKnown_setStatusAt (.inl hstatus))
    have hmark := Graph.Outstanding.setStatusAt hw hx.outstanding hs hslot .executed
    obtain ⟨hconfirmed', houtstanding', hhanded'⟩ := Graph.failFiring_members
      (hw.of_plan (Graph.plan_setStatusAt ..)) hs hslot
      (List.Subset.trans (List.subset_cons_self ..) hsub) hconfirmed hmark hx.handedOn.mark
    exact of_visiting horderly hconfirmed' houtstanding' hhanded'
  | again st pos slots hslot =>
    obtain ⟨-, -, s, hs, -, hsub⟩ := hx.orderly.firing pos _ rfl
    obtain ⟨hconfirmed', houtstanding', hhanded'⟩ := Graph.failFiring_members hw hs
      (hsub (List.mem_cons_self ..)) hsub hx.confirmed hx.outstanding hx.handedOn
    exact of_visiting horderly hconfirmed' houtstanding' hhanded'
  | fired g e pos =>
    refine of_visiting horderly hx.confirmed ?_ hx.handedOn
    intro p s hs _ hexec hne
    by_cases hp : p = pos
    · subst hp
      exact hx.started p [] s rfl hs (Ne.symm hne) p s hs (by simp) hexec hne
    · exact hx.outstanding p s hs (fun heq => hp (Option.some.inj heq).symm) hexec hne

end PassState.Membership

/-! ## Reports -/

namespace Engine

variable {ε : Type} (c : Cluster ε) (e : Engine ε) (g : Graph)

/-- An action is finished after what was done on its behalf. -/
theorem finishAction_completed {g₀ : Graph} {id : ActionId} (h : Edits id g₀ g) :
    g₀.Completed (e.finishAction g id).1 :=
  ⟨id, _, h.trans (e.release_advances g id).edits, rfl⟩

theorem processResult_completed (r : ActionResult) :
    (e.processResult g r).2.1 = g ∨ g.Completed (e.processResult g r).2.1 := by
  simp only [processResult]
  split
  · exact .inl rfl
  · rename_i key a _
    split
    · exact .inl rfl
    · refine .inr (finishAction_completed _ _ ?_)
      split
      · exact failExecuted_edits g a.id _
      · exact .refl

theorem actionTimedOut_completed (id : ActionId) :
    (e.actionTimedOut c g id).2.1 = g ∨ g.Completed (e.actionTimedOut c g id).2.1 := by
  simp only [actionTimedOut]
  split
  · exact .inl rfl
  · split
    · exact .inl rfl
    · refine .inr (finishAction_completed _ _ (.head (.settle g (.failed .timedOut) rfl) ?_))
      split
      · exact (recordStatus_advances c e _ id _ _).edits
      · exact .refl

theorem nodeFenced_completed (fence : FenceCall) : g.Completed (e.nodeFenced c g fence).1 :=
  finishAction_completed _ g .refl

theorem fencingResult_completed (call : Nat) (outcome : Except String Unit) :
    (e.fencingResult c g call outcome).2.1 = g ∨
      g.Completed (e.fencingResult c g call outcome).2.1 := by
  simp only [fencingResult]
  split
  · exact .inl rfl
  · rename_i fence _
    split
    · exact .inl rfl
    · split
      · exact .inr (nodeFenced_completed c _ g fence)
      · exact .inr (finishAction_completed _ _ (failExecuted_edits g fence.action _))

theorem completeFencing_completed (calls : List (Nat × FenceCall)) :
    Relation.ReflTransGen Graph.Completed g (e.completeFencing c g calls).1 := by
  induction calls generalizing e g with
  | nil => exact .refl
  | cons head rest ih => exact .head (nodeFenced_completed c _ g head.2) (ih _ _)

end Engine

/-! ## Moves -/

/-- Between the moves of a run, the statuses of the synapses agree with those of their actions. -/
structure Graph.Membership (g : Graph) : Prop where
  wellFormed : g.WellFormed
  untouched : g.Untouched
  confirmed : g.ConfirmedKnown
  outstanding : g.Outstanding none
  handedOn : g.HandedOn []

namespace Graph.Membership

variable {g g' : Graph}

theorem of_fresh (hw : g.WellFormed) (h : g.Fresh) : g.Membership where
  wellFormed := hw
  untouched := h.untouched
  confirmed := by
    intro s hs hstatus
    rw [h.synapses s hs] at hstatus
    cases hstatus
  outstanding := by
    intro p s hs _ hexec
    rw [h.synapses s (List.mem_of_getElem? hs)] at hexec
    cases hexec
  handedOn := by
    intro s hs hexec
    rw [h.synapses s hs] at hexec
    cases hexec

theorem completed (h : g.Membership) (hcompleted : g.Completed g') : g'.Membership := by
  obtain ⟨id, hedits⟩ := hcompleted.edits
  exact ⟨h.wellFormed.of_plan hedits.plan, h.untouched.edits hedits,
    h.confirmed.edits h.wellFormed hedits, h.outstanding.completed hcompleted,
    h.handedOn.edits hedits⟩

theorem completions (h : g.Membership) (hsteps : Relation.ReflTransGen Completed g g') :
    g'.Membership := by
  induction hsteps with
  | refl => exact h
  | tail _ step ih => exact ih.completed step

/-- **An executing synapse that owns actions waits for one of them.** -/
theorem exists_executed (h : g.Membership) {s : Synapse} (hs : s ∈ g.synapses)
    (hstatus : s.status = .executing) (hne : s.actions ≠ []) :
    ∃ k ∈ s.actions, g.statusAt k = some .executed := by
  obtain ⟨p, hp⟩ := List.getElem?_of_mem hs
  obtain ⟨k, hk, hopen⟩ := h.outstanding p s hp (by simp) hstatus hne
  have hbegun := h.handedOn s hs hstatus k hk (by simp)
  have hlt := h.wellFormed.slot_lt hs hk
  have hat := statusAt_eq (List.getElem?_eq_getElem hlt)
  refine ⟨k, hk, ?_⟩
  cases ha : g.actions[k].status with
  | executed => rw [hat, ha]
  | pending => exact absurd (ha ▸ hat) hbegun
  | confirmed | failed => exact absurd ⟨_, hat, by rw [ha]; rfl⟩ hopen

/-- Between two moves a pass may begin. -/
theorem start {ε : Type} (h : g.Membership) (e : Engine ε) :
    PassState.Membership ⟨.visiting, g, e⟩ :=
  .of_visiting ⟨h.wellFormed, h.untouched, by simp⟩ h.confirmed h.outstanding h.handedOn

end Graph.Membership

/-- **Every move keeps the statuses of synapses and actions together.** -/
theorem Move.membership {ε : Type} (c : Cluster ε) (m : Move) {s : Graph × Engine ε}
    (h : s.1.Membership) : (m.make c s).1.Membership := by
  have hreport {g' : Graph} (hcases : g' = s.1 ∨ s.1.Completed g') : g'.Membership := by
    rcases hcases with rfl | hcompleted
    · exact h
    · exact h.completed hcompleted
  cases m with
  | pass =>
    have hend := Graph.run_induction (Engine.dispatcher_steady c)
      (fun _ _ hstep hx => PassState.Membership.step hx hstep) s.1 s.2 (h.start s.2)
    exact ⟨hend.orderly.wellFormed, hend.orderly.untouched, hend.confirmed, hend.outstanding,
      hend.handedOn⟩
  | result r => exact hreport (Engine.processResult_completed s.2 s.1 r)
  | timeout id => exact hreport (Engine.actionTimedOut_completed c s.2 s.1 id)
  | fencing call outcome => exact hreport (Engine.fencingResult_completed c s.2 s.1 call outcome)
  | nodeSafe target =>
    simp only [make, Engine.confirmNodeSafe]
    split
    · exact h
    · exact h.completions (Engine.completeFencing_completed c _ s.1 _)
  | abort => exact ⟨h.wellFormed.of_plan rfl, h.untouched, h.confirmed, h.outstanding, h.handedOn⟩

end ClusterTransition
