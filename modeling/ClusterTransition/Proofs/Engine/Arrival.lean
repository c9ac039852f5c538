import ClusterTransition.Proofs.Engine.Members
import ClusterTransition.Proofs.Pass.Counting
import Mathlib.Data.List.Induction

/-! # Completions arrive

A synapse that waits learns that an action is over by the mark on its input.  The mark is set when
the completion is spread, and an engine spreads each completion that it is told of or that it brings
about.  One ending of an action it does not spread: that the action could not be set going.  It then
fails on the spot, and the synapses that wait for it are not told.

Nothing else is lost.  In every move the marks keep up with the known results, but for the actions
that a pass could not set going (`Graph.Arrived`, `Move.arrived`), and so they do in every run
(`Move.arrived_makeAll`).  What becomes of the refused ones is in `Engine.Refusals`.
-/

namespace ClusterTransition

open ClusterTransition.Graph (Advance Advances Edit Edits)

/-- A failure that satisfies a synapse satisfied it before the action failed again. -/
theorem Synapse.accepts_of_plan {s s' : Synapse} {a a' : Action} (hs : s.plan = s'.plan)
    (ha : a.plan = a'.plan) (hfailed : a.status.isFailed → a'.status.isFailed)
    (h : s'.accepts a') : s.accepts a := by
  simp only [accepts, Bool.or_eq_true, Bool.not_eq_eq_eq_not, Bool.not_true,
    decide_eq_true_eq] at h ⊢
  rw [Action.canFail_eq_of_plan ha, priority_eq_of_plan hs]
  rcases h with (h | h) | h
  · refine .inl (.inl (Bool.eq_false_iff.mpr fun hold => ?_))
    rw [hfailed hold] at h
    cases h
  · exact .inl (.inr h)
  · exact .inr h

namespace Graph

/-- In each synapse that waits, an input is marked if the result of its action is known and
satisfies it.  The actions at the slots that are `lost` may be exceptions. -/
def Arrived (lost : Nat → Prop) (g : Graph) : Prop :=
  ∀ s ∈ g.synapses, s.Waits → ∀ i ∈ s.inputs, ∀ a, g.actions[i.slot]? = some a →
    a.status.isConfirmed → s.accepts a → i.satisfied = true ∨ lost i.slot

namespace Arrived

variable {g g' : Graph} {id : ActionId} {lost lost' : Nat → Prop}

theorem of_fresh (h : g.Fresh) : g.Arrived lost := by
  intro s _ _ i _ a ha hknown
  rw [(h.actions a (List.mem_of_getElem? ha)).1] at hknown
  cases hknown

theorem mono (h : g.Arrived lost) (hlost : ∀ k, lost k → lost' k) : g.Arrived lost' := by
  intro s hs hwaits i hi a ha hknown haccepts
  exact (h s hs hwaits i hi a ha hknown haccepts).imp_right (hlost i.slot)

/-- The marks keep up if no result becomes known, and none that failed becomes a better one. -/
theorem of_inputs (h : g.Arrived lost) (hplan : g'.plan = g.plan)
    (hsynapses : ∀ s' ∈ g'.synapses, s'.Waits → ∀ i ∈ s'.inputs, ¬ lost i.slot →
      ∃ s ∈ g.synapses, s.Waits ∧ s.plan = s'.plan ∧ i ∈ s.inputs)
    (hstatus : ∀ k status', g'.statusAt k = some status' → status'.isConfirmed → ¬ lost k →
      ∃ status, g.statusAt k = some status ∧ status.isConfirmed ∧
        (status.isFailed → status'.isFailed)) : g'.Arrived lost := by
  intro s' hs' hwaits' i hi a' ha' hknown' haccepts'
  by_cases hlost : lost i.slot
  · exact .inr hlost
  · obtain ⟨s, hs, hwaits, hsame, hmem⟩ := hsynapses s' hs' hwaits' i hi hlost
    obtain ⟨status, hold, hknown, hfailed⟩ :=
      hstatus i.slot a'.status (statusAt_eq ha') hknown' hlost
    obtain ⟨a, ha, hkept⟩ := action_of_plan hplan ha'
    rw [statusAt_eq ha, Option.some.injEq] at hold
    subst hold
    exact h s hs hwaits i hmem a ha hknown
      (Synapse.accepts_of_plan hsame hkept.symm hfailed haccepts')

theorem of_eq (h : g.Arrived lost) (hplan : g'.plan = g.plan)
    (hsynapses : g'.synapses = g.synapses) (hstatus : ∀ k, g'.statusAt k = g.statusAt k) :
    g'.Arrived lost := by
  refine h.of_inputs hplan (fun s hs hwaits i hi _ => ⟨s, hsynapses ▸ hs, hwaits, rfl, hi⟩) ?_
  exact fun k status hk hknown _ => ⟨status, (hstatus k).symm.trans hk, hknown, fun h => h⟩

/-! ### Edits -/

/-- An edit on behalf of an action that is excepted. -/
theorem edit (h : g.Arrived lost) (hid : ∀ k, g.slotOf? id = some k → lost k)
    (hedit : Edit id g g') : g'.Arrived lost := by
  refine h.of_inputs hedit.plan (fun s' hs' hwaits i hi hnot => ?_)
    fun k status hk hknown hnot => ?_
  · obtain ⟨p, hp⟩ := List.getElem?_of_mem hs'
    obtain ⟨s, hs, hcases⟩ := hedit.synapse hp
    have hmem := List.mem_of_getElem? hs
    rcases hcases with rfl | ⟨k, a, hk, -, -, -, rfl⟩
    · exact ⟨s', hmem, hwaits, rfl, hi⟩
    · rcases mem_inputs_absorbed hi with hi | hslot
      · have habsorbs := Synapse.absorbs_absorbed k a g.actions s
        exact ⟨s, hmem, habsorbs.waits_iff.mp hwaits, (Synapse.plan_absorbed ..).symm, hi⟩
      · exact absurd (hslot ▸ hid k hk) hnot
  · have hother := Edits.statusAt_other (.single hedit) fun hslot => hnot (hid k hslot)
    exact ⟨status, hother.symm.trans hk, hknown, fun h => h⟩

theorem edits (h : g.Arrived lost) (hid : ∀ k, g.slotOf? id = some k → lost k)
    (hedits : Edits id g g') : g'.Arrived lost := by
  induction hedits with
  | refl => exact h
  | tail steps step ih =>
    refine ih.edit (fun k hk => hid k ?_) step
    rwa [slotOf?_eq_of_plan (Edits.plan steps)] at hk

/-- When the completion of an action is spread, the action needs no exception any more. -/
theorem update (h : g.Arrived fun k => lost k ∨ g.slotOf? id = some k) {a : Action}
    (ha : g.action? id = some a) (hc : a.status.isConfirmed) : (g.update id).2.Arrived lost := by
  have hspread := h.edit (fun k hk => .inr hk) (.spread ha hc)
  intro s' hs' hwaits i hi b hb hknown haccepts
  rcases hspread s' hs' hwaits i hi b hb hknown haccepts with hmark | hlost | hslot
  · exact .inl hmark
  · exact .inr hlost
  · -- the input is among those that the completion marks
    obtain ⟨k, hk, hget, -⟩ := exists_slot_of_action? ha
    obtain rfl : k = i.slot := Option.some.inj (hk.symm.trans hslot)
    rw [update_of_confirmed hk hget hc] at hs' hb
    obtain rfl : a = b := Option.some.inj (hget.symm.trans hb)
    obtain ⟨s, -, rfl⟩ := List.mem_map.mp hs'
    have hwaited := (Synapse.absorbs_absorbed i.slot a g.actions s).waits_iff.mp hwaits
    have haccepted := Synapse.accepts_of_plan
      (Synapse.plan_absorbed i.slot a g.actions s).symm rfl (fun h => h) haccepts
    rw [Synapse.absorbed_of_waiting hwaited, if_pos haccepted, Synapse.inputs_satisfyInputs] at hi
    obtain ⟨j, -, hj⟩ := List.mem_map.mp hi
    unfold Input.satisfy at hj
    split at hj
    · exact .inl (by rw [← hj])
    · rename_i hne
      exact absurd (congrArg Input.slot hj) hne

theorem completed (h : g.Arrived lost) (hcompleted : g.Completed g') : g'.Arrived lost := by
  obtain ⟨id, g₁, hedits, rfl⟩ := hcompleted
  have hexempt : g.Arrived fun k => lost k ∨ g.slotOf? id = some k := h.mono fun _ => .inl
  have hedited := hexempt.edits (fun k hk => .inr hk) hedits
  have hslots := slotOf?_eq_of_plan hedits.plan id
  cases ha : g₁.action? id with
  | none =>
    have hnone := action?_eq_none_iff.mp ha
    simp only [settle, ha, Graph.update, hnone]
    refine hedited.mono fun k hk => hk.resolve_right fun hslot => ?_
    rw [← hslots, hnone] at hslot
    cases hslot
  | some a =>
    obtain ⟨b, hb, hc⟩ :=
      exists_confirmed_of_settle (rfl : ActionStatus.confirmed.isConfirmed = true) ha
    have hsettled := hedited.edit (fun k hk => .inr (hslots ▸ hk))
      (.settle g₁ .confirmed (rfl : ActionStatus.confirmed.isConfirmed = true))
    refine update (hsettled.mono fun k hk => ?_) hb hc
    rwa [slotOf?_eq_of_plan (plan_settle ..), hslots]

theorem completions (h : g.Arrived lost) (hsteps : Relation.ReflTransGen Completed g g') :
    g'.Arrived lost := by
  induction hsteps with
  | refl => exact h
  | tail _ step ih => exact ih.completed step

theorem advances (h : g.Arrived lost) (hadvances : Advances id g g') : g'.Arrived lost := by
  induction hadvances with
  | refl => exact h
  | tail _ step ih =>
    cases step with
    | note hplan hstatus =>
      exact ih.of_eq (plan_modifyAction _ id hplan) (synapses_modifyAction ..)
        (statusAt_modifyAction _ id hstatus)
    | finish => exact ih.completed ⟨id, _, .refl, rfl⟩
    | shutdown => exact ih.of_eq rfl rfl fun _ => rfl

/-! ### What the pass itself writes -/

/-- A synapse may get a status, but for one that has fired and would wait again. -/
theorem setSynapseStatus (h : g.Arrived lost) (pos : Nat) {status : SynapseStatus}
    (hback : status = .unfired ∨ status = .ready →
      ∀ s, g.synapses[pos]? = some s → s.Waits) :
    (g.setSynapseStatus pos status).Arrived lost := by
  refine h.of_inputs (plan_setSynapseStatus ..) (fun s' hs' hwaits i hi _ => ?_)
    fun k status hk hknown _ => ⟨status, hk, hknown, fun h => h⟩
  obtain ⟨p, hp⟩ := List.getElem?_of_mem hs'
  obtain ⟨s, hs, ⟨rfl, rfl⟩ | ⟨-, rfl⟩⟩ := setSynapseStatus_cases hp
  · exact ⟨s, List.mem_of_getElem? hs, hback hwaits s hs, rfl, hi⟩
  · exact ⟨s', List.mem_of_getElem? hs, hwaits, rfl, hi⟩

/-- An action may get a status that is no result, or the status of a failure if it is excepted or
its result was known before. -/
theorem setStatusAt (h : g.Arrived lost) {slot : Nat} {status : ActionStatus}
    (hslot : status.isConfirmed → lost slot ∨ status.isFailed ∧
      ∀ old, g.statusAt slot = some old → old.isConfirmed) :
    (g.setStatusAt slot status).Arrived lost := by
  refine h.of_inputs (plan_setStatusAt ..) (fun s hs hwaits i hi _ => ⟨s, hs, hwaits, rfl, hi⟩)
    fun k new hk hknown hnot => ?_
  rw [statusAt_setStatusAt] at hk
  split at hk
  · rename_i heq
    subst heq
    obtain ⟨old, hold, rfl⟩ := Option.map_eq_some_iff.mp hk
    obtain ⟨hfails, hbefore⟩ := (hslot hknown).resolve_left hnot
    exact ⟨old, hold, hbefore old hold, fun _ => hfails⟩
  · exact ⟨new, hk, hknown, fun h => h⟩

theorem failFiring (h : g.Arrived lost) (pos : Nat) {slot : Nat}
    (hslot : lost slot ∨ ∀ old, g.statusAt slot = some old → old.isConfirmed) :
    (g.failFiring pos slot).Arrived lost := by
  have hset : (g.setStatusAt slot (.failed .initiation)).Arrived lost :=
    h.setStatusAt fun _ => hslot.imp_right fun hbefore => ⟨rfl, hbefore⟩
  have hfail : ((g.setStatusAt slot (.failed .initiation)).setSynapseStatus pos .failed).Arrived
      lost := hset.setSynapseStatus pos (by simp)
  exact hfail.of_eq rfl rfl fun _ => rfl

end Arrived
end Graph

/-! ## Refusals -/

namespace Graph

/-- The action at `k`, which was pending in `g`, could not be set going on the way to `g'`. -/
structure Refused (k : Nat) (g g' : Graph) : Prop where
  before : g.statusAt k = some .pending
  after : g'.statusAt k = some (.failed .initiation)

/-- The document of the action at a slot lacks something that its request needs. -/
def Undispatchable (g : Graph) (k : Nat) : Prop :=
  ∀ a, g.actions[k]? = some a → a.dispatchable = false

theorem Undispatchable.of_plan {g g' : Graph} {k : Nat} (h : g.Undispatchable k)
    (hplan : g'.plan = g.plan) : g'.Undispatchable k := by
  intro a' ha'
  obtain ⟨a, ha, hsame⟩ := action_of_plan hplan ha'
  have hkept : a'.plan.dispatchable = a.plan.dispatchable := by rw [hsame]
  exact hkept.trans (h a ha)

end Graph

/-- An action that could not be set going stays failed. -/
theorem PassStep.keeps_initiation {σ : Type} {d : Dispatcher σ} (hd : d.Handles)
    {x y : PassState σ} (h : PassStep d x y) {k : Nat}
    (hk : x.graph.statusAt k = some (.failed .initiation)) :
    y.graph.statusAt k = some (.failed .initiation) := by
  have hmark {g : Graph} {slot : Nat} {a : Action} (hk : g.statusAt k = some (.failed .initiation))
      (ha : g.actions[slot]? = some a) (hpending : a.status = .pending) :
      (g.setStatusAt slot .executed).statusAt k = some (.failed .initiation) := by
    rw [Graph.statusAt_setStatusAt, if_neg, hk]
    rintro rfl
    rw [Graph.statusAt_eq ha, hpending] at hk
    cases hk
  have hfail {g : Graph} (pos slot : Nat) (hk : g.statusAt k = some (.failed .initiation)) :
      (g.failFiring pos slot).statusAt k = some (.failed .initiation) := by
    have hset := Graph.statusAt_setStatusAt g slot k (.failed .initiation)
    rw [hk] at hset
    exact hset.trans (ite_self _)
  cases h with
  | count | ready | skip | fire | fired | conclude => exact hk
  | dispatch _ _ ha hpending _ hgoes =>
    exact (hd.edits hgoes).keeps_confirmed (hmark hk ha hpending) rfl
  | refuse _ _ ha hpending _ hstays =>
    exact hfail _ _ ((hd.edits hstays).keeps_confirmed (hmark hk ha hpending) rfl)
  | unroutable _ _ _ ha hpending => exact hfail _ _ (hmark hk ha hpending)
  | again => exact hfail _ _ hk

/-- No step of a pass makes an action pending. -/
theorem PassStep.pending_of_step {σ : Type} {d : Dispatcher σ} (hd : d.Handles)
    {x y : PassState σ} (h : PassStep d x y) {k : Nat} (hk : y.graph.statusAt k = some .pending) :
    x.graph.statusAt k = some .pending := by
  have hset {g : Graph} {slot : Nat} {status : ActionStatus} (hstatus : status ≠ .pending)
      (hk : (g.setStatusAt slot status).statusAt k = some .pending) :
      g.statusAt k = some .pending := by
    rw [Graph.statusAt_setStatusAt] at hk
    split at hk
    · obtain ⟨_, -, rfl⟩ := Option.map_eq_some_iff.mp hk
      exact absurd rfl hstatus
    · exact hk
  have hfail {g : Graph} {pos slot : Nat}
      (hk : (g.failFiring pos slot).statusAt k = some .pending) : g.statusAt k = some .pending :=
    hset (ActionStatus.noConfusion : ActionStatus.failed .initiation ≠ .pending) hk
  cases h with
  | count | ready | skip | fire | fired | conclude => exact hk
  | dispatch _ _ _ _ _ hgoes => exact hset (by simp) (Graph.pending_of_edits (hd.edits hgoes) hk)
  | refuse _ _ _ _ _ hstays =>
    exact hset (by simp) (Graph.pending_of_edits (hd.edits hstays) (hfail hk))
  | unroutable => exact hset (by simp) (hfail hk)
  | again => exact hfail hk

/-! ## A pass -/

/-- The action at `k` could not be set going since the pass began with `g₀`.  A cluster that accepts
requests is not the reason. -/
def PassState.Refused {ε : Type} (c : Cluster ε) (g₀ : Graph) (x : PassState (Engine ε)) (k : Nat) :
    Prop :=
  g₀.Refused k x.graph ∧ (c.Accepts → g₀.Undispatchable k)

/-- Where a pass that began with `g₀` stands with respect to the marks: they have kept up, but for
the actions that were `lost` before, and those that the pass could not set going. -/
structure PassState.Arrived {ε : Type} (c : Cluster ε) (g₀ : Graph) (lost : Nat → Prop)
    (x : PassState (Engine ε)) : Prop where
  orderly : x.Orderly
  plan : x.graph.plan = g₀.plan
  pending : ∀ k, x.graph.statusAt k = some .pending → g₀.statusAt k = some .pending
  arrived : x.graph.Arrived fun k => lost k ∨ x.Refused c g₀ k

namespace PassState.Arrived

variable {ε : Type} {c : Cluster ε} {g₀ : Graph} {lost : Nat → Prop}

/-- An action that is handed over and refused needs an exception; no other does. -/
theorem refused {g g' : Graph} {st st' : Engine ε} {pos slot : Nat} {slots : List Nat} {a : Action}
    (hx : PassState.Arrived c g₀ lost ⟨.firing pos (slot :: slots), g, st⟩)
    (ha : g.actions[slot]? = some a) (hpending : a.status = .pending)
    (hedits : Edits a.id (g.setStatusAt slot .executed) g')
    (hreason : c.Accepts → a.dispatchable = false)
    (hkeep : ∀ k, g.statusAt k = some (.failed .initiation) →
      (g'.failFiring pos slot).statusAt k = some (.failed .initiation)) :
    (g'.failFiring pos slot).Arrived fun k =>
      lost k ∨ PassState.Refused c g₀ ⟨.visiting, g'.failFiring pos slot, st'⟩ k := by
  have hw := hx.orderly.wellFormed
  obtain ⟨hslot, -⟩ := hw.action?_setStatusAt ha .executed
  have hmark : (g.setStatusAt slot .executed).Arrived fun k =>
      (lost k ∨ PassState.Refused c g₀ ⟨.firing pos (slot :: slots), g, st⟩ k) ∨ k = slot :=
    Graph.Arrived.mono (hx.arrived.setStatusAt (by rintro ⟨⟩)) fun _ => .inl
  have hhandled := hmark.edits (fun k hk => .inr (Option.some.inj (hk.symm.trans hslot))) hedits
  refine (hhandled.failFiring pos (.inl (.inr rfl))).mono fun k hk => ?_
  rcases hk with (hk | ⟨hk, hwhy⟩) | rfl
  · exact .inl hk
  · exact .inr ⟨⟨hk.before, hkeep k hk.after⟩, hwhy⟩
  · -- the action that was refused
    have hstatus : g.statusAt k = some .pending := hpending ▸ Graph.statusAt_eq ha
    have hfails : (g'.failFiring pos k).statusAt k = some (.failed .initiation) := by
      have hset := Graph.statusAt_setStatusAt g' k k (.failed .initiation)
      obtain ⟨b, hb, -⟩ := Graph.action_of_plan
        (hedits.plan.trans (Graph.plan_setStatusAt ..)).symm ha
      rw [if_pos rfl, Graph.statusAt_eq hb] at hset
      exact hset
    refine .inr ⟨⟨hx.pending k hstatus, hfails⟩, fun haccepts => ?_⟩
    refine Graph.Undispatchable.of_plan (g := g) (fun b hb => ?_) hx.plan.symm
    obtain rfl : a = b := Option.some.inj (ha.symm.trans hb)
    exact hreason haccepts

theorem step {x y : PassState (Engine ε)} (hx : PassState.Arrived c g₀ lost x)
    (h : PassStep (Engine.dispatcher c) x y) : PassState.Arrived c g₀ lost y := by
  have hd := Engine.dispatcher_handles c
  have horderly := hx.orderly.step hd h
  have hw := hx.orderly.wellFormed
  have hplan := (h.plan hd).trans hx.plan
  have hkeep := fun k => h.keeps_initiation hd (k := k)
  have hlater {g : Graph}
      (harrived : g.Arrived fun k => lost k ∨ PassState.Refused c g₀ x k) :
      g.Arrived fun k => lost k ∨ PassState.Refused c g₀ y k :=
    harrived.mono fun k hk =>
      hk.imp_right fun ⟨hrefused, hwhy⟩ => ⟨⟨hrefused.before, hkeep k hrefused.after⟩, hwhy⟩
  have hpending := fun k hk => hx.pending k (h.pending_of_step hd (k := k) hk)
  cases h with
  | count | fired | conclude =>
    exact ⟨horderly, hplan, hpending, hlater (hx.arrived.of_eq rfl rfl fun _ => rfl)⟩
  | ready st hs hwaits =>
    refine ⟨horderly, hplan, hpending, hlater (hx.arrived.setSynapseStatus _ fun _ t ht => ?_)⟩
    obtain rfl := Option.some.inj (hs.symm.trans ht)
    exact hwaits
  | skip => exact ⟨horderly, hplan, hpending, hlater (hx.arrived.setSynapseStatus _ (by simp))⟩
  | @fire g st pos s =>
    have hfires : (g.setSynapseStatus pos .executing).Arrived _ :=
      hx.arrived.setSynapseStatus pos (by simp)
    exact ⟨horderly, hplan, hpending, hlater (hfires.of_eq rfl rfl fun _ => rfl)⟩
  | @dispatch g g' st st' pos slot slots a channel ha hopen hchannel hgoes =>
    have hadvances := Engine.dispatcher_advances c channel a.id (g.setStatusAt slot .executed) st
    rw [hgoes] at hadvances
    have hmark : (g.setStatusAt slot .executed).Arrived _ := hx.arrived.setStatusAt (by rintro ⟨⟩)
    exact ⟨horderly, hplan, hpending, hlater (hmark.advances hadvances)⟩
  | @refuse g g' st st' pos slot slots a channel ha hopen hchannel hstays =>
    have hedits := hd.edits hstays
    refine ⟨horderly, hplan, hpending, hx.refused ha hopen hedits (fun haccepts => ?_) hkeep⟩
    obtain ⟨-, hfind⟩ := hw.action?_setStatusAt ha .executed
    have hiff := Engine.dispatch_iff c haccepts st (a := { a with status := .executed }) hfind
      hchannel
    dsimp only at hiff
    rw [hstays] at hiff
    exact Bool.eq_false_iff.mpr fun hgoes => Bool.false_ne_true (hiff.mpr hgoes)
  | unroutable st pos slots ha hopen hchannel =>
    refine ⟨horderly, hplan, hpending, hx.refused ha hopen .refl (fun _ => ?_) hkeep⟩
    simp [Action.dispatchable, hchannel]
  | @again g st pos slot slots hslot =>
    -- the action was not running, so that its result was known before
    refine ⟨horderly, hplan, hpending,
      hlater (hx.arrived.failFiring pos (.inr fun old hold => ?_))⟩
    obtain ⟨-, hidle, -⟩ := hx.orderly.firing pos _ rfl
    have hnot := hidle slot (List.mem_cons_self ..)
    obtain ⟨a, ha, rfl⟩ := Option.map_eq_some_iff.mp hold
    have hexec := hslot a ha
    cases hstatus : a.status with
    | confirmed | failed => rfl
    | executed => exact absurd (hstatus ▸ Graph.statusAt_eq ha) hnot
    | pending =>
      rw [hstatus] at hexec
      cases hexec

end PassState.Arrived

/-! ## A run -/

/-- A known result stays in reports. -/
theorem Graph.Reported.keeps_confirmed {g g' : Graph} (h : Graph.Reported g g') {k : Nat}
    {status : ActionStatus} (hk : g.statusAt k = some status) (hc : status.isConfirmed) :
    g'.statusAt k = some status := by
  induction h with
  | refl => exact hk
  | tail _ step ih =>
    obtain ⟨id, hedits⟩ := step
    exact hedits.keeps_confirmed ih hc

namespace Move

variable {ε : Type} (c : Cluster ε)

theorem makeAll_append (earlier later : List Move) (s : Graph × Engine ε) :
    makeAll c (earlier ++ later) s = makeAll c later (makeAll c earlier s) :=
  List.foldl_append

/-- One of the passes of the run found the action at `k` pending and could not set it going. -/
def Refuses (moves : List Move) (s : Graph × Engine ε) (k : Nat) : Prop :=
  ∃ earlier later, moves = earlier ++ pass :: later ∧
    (makeAll c earlier s).1.Refused k (makeAll c (earlier ++ [pass]) s).1

variable {c} {k : Nat} {s : Graph × Engine ε}

theorem Refuses.append {moves : List Move} (h : Refuses c moves s k) (more : List Move) :
    Refuses c (moves ++ more) s k := by
  obtain ⟨earlier, later, rfl, hrefused⟩ := h
  exact ⟨earlier, later ++ more, by simp, hrefused⟩

/-- An action that could not be set going stays failed. -/
theorem keeps_initiation (c : Cluster ε) (m : Move)
    (hk : s.1.statusAt k = some (.failed .initiation)) :
    (m.make c s).1.statusAt k = some (.failed .initiation) := by
  by_cases hm : m = .pass
  · subst hm
    exact Graph.run_induction (Engine.dispatcher_steady c)
      (P := fun x => x.graph.statusAt k = some (.failed .initiation))
      (fun _ _ hstep hx => hstep.keeps_initiation (Engine.dispatcher_handles c) hx) s.1 s.2 hk
  · exact (m.reported c hm s).keeps_confirmed hk rfl

/-- No move makes an action pending. -/
theorem pending_of_make (c : Cluster ε) (m : Move)
    (hk : (m.make c s).1.statusAt k = some .pending) : s.1.statusAt k = some .pending := by
  by_cases hm : m = .pass
  · subst hm
    have hend := Graph.run_induction (Engine.dispatcher_steady c)
      (P := fun x => x.graph.statusAt k = some .pending → s.1.statusAt k = some .pending)
      (fun _ _ hstep hx hk => hx (hstep.pending_of_step (Engine.dispatcher_handles c) hk))
      s.1 s.2 fun hk => hk
    exact hend hk
  · have hreported := m.reported c hm s
    generalize (m.make c s).1 = g' at hk hreported
    induction hreported with
    | refl => exact hk
    | tail _ step ih =>
      obtain ⟨id, hedits⟩ := step
      exact ih (Graph.pending_of_edits hedits hk)

/-- What a run could not set going has failed when the run is over. -/
theorem Refuses.statusAt {moves : List Move} (h : Refuses c moves s k) :
    (makeAll c moves s).1.statusAt k = some (.failed .initiation) := by
  obtain ⟨earlier, later, rfl, hrefused⟩ := h
  have happend : earlier ++ pass :: later = (earlier ++ [pass]) ++ later := by simp
  rw [happend, makeAll_append]
  exact makeAll_induction (P := fun s' => s'.1.statusAt k = some (.failed .initiation)) c
    (fun m _ hs => m.keeps_initiation c hs) later hrefused.after

/-- **The marks keep up with the results in every move**, but for the actions that a pass cannot set
going. -/
theorem arrived (c : Cluster ε) (m : Move) (hs : s.1.Membership) {lost : Nat → Prop}
    (h : s.1.Arrived lost) :
    (m.make c s).1.Arrived fun k => lost k ∨ m = pass ∧ s.1.Refused k (m.make c s).1 ∧
      (c.Accepts → s.1.Undispatchable k) := by
  have hreport {g' : Graph} {lost' : Nat → Prop} (hmono : ∀ k, lost k → lost' k)
      (hcases : g' = s.1 ∨ s.1.Completed g') : g'.Arrived lost' := by
    rcases hcases with rfl | hcompleted
    · exact h.mono hmono
    · exact (h.completed hcompleted).mono hmono
  cases m with
  | pass =>
    have hstart : PassState.Arrived c s.1 lost ⟨.visiting, s.1, s.2⟩ :=
      ⟨(hs.start s.2).orderly, rfl, fun _ hk => hk, h.mono fun _ => .inl⟩
    have hend := Graph.run_induction (Engine.dispatcher_steady c)
      (fun _ _ hstep hx => PassState.Arrived.step hx hstep) s.1 s.2 hstart
    exact hend.arrived.mono fun k hk => hk.imp_right fun hrefused => ⟨rfl, hrefused⟩
  | result r => exact hreport (fun _ => .inl) (Engine.processResult_completed s.2 s.1 r)
  | timeout id => exact hreport (fun _ => .inl) (Engine.actionTimedOut_completed c s.2 s.1 id)
  | fencing call outcome =>
    exact hreport (fun _ => .inl) (Engine.fencingResult_completed c s.2 s.1 call outcome)
  | nodeSafe target =>
    simp only [make, Engine.confirmNodeSafe]
    split
    · exact h.mono fun _ => .inl
    · exact (h.completions (Engine.completeFencing_completed c _ s.1 _)).mono fun _ => .inl
  | abort priority action reason =>
    have habort : (s.1.abort priority action reason).Arrived lost := h.of_eq rfl rfl fun _ => rfl
    exact habort.mono fun _ => .inl

/-- **In a run the marks keep up with the results**, but for the actions that a pass could not set
going. -/
theorem arrived_makeAll (c : Cluster ε) (moves : List Move) (hs : s.1.Membership)
    (h : s.1.Arrived fun _ => False) :
    (makeAll c moves s).1.Arrived fun k =>
      Refuses c moves s k ∧ (c.Accepts → s.1.Undispatchable k) := by
  induction moves using List.reverseRecOn with
  | nil => exact h.mono fun _ => False.elim
  | append_singleton moves m ih =>
    have hmembers := makeAll_induction (P := fun s' => s'.1.Membership) c
      (fun m _ hs => m.membership c hs) moves hs
    have hlast := m.arrived c hmembers ih
    have hmake : makeAll c (moves ++ [m]) s = m.make c (makeAll c moves s) :=
      makeAll_append c moves [m] s
    rw [hmake]
    refine hlast.mono fun k hk => ?_
    rcases hk with ⟨hrefuses, hwhy⟩ | ⟨rfl, hrefused, hwhy⟩
    · exact ⟨hrefuses.append [m], hwhy⟩
    · refine ⟨⟨moves, [], by simp, hmake ▸ hrefused⟩, fun haccepts => ?_⟩
      exact (hwhy haccepts).of_plan (Move.plan_makeAll c moves s).symm

end Move
end ClusterTransition
