import ClusterTransition.Proofs.Graph.Course
import ClusterTransition.Proofs.Pass.Ownership
import Mathlib.Data.List.Chain

/-! # The life of an action

An action is pending until its synapse fires, executed until its result is known, and then it keeps
the result (`ActionStatus.Follows`).  As long as the actions of all synapses that have not fired are
pending (`Graph.Pristine`), a pass keeps to this: whatever it comes to hand over is pending, so that
it never overwrites a result (`Graph.calls_liveOn`).

A report keeps to it if the action that it is about was handed over before
(`Graph.Pristine.hears`).
-/

namespace ClusterTransition

open ClusterTransition.Graph (Edits)

/-- The status `t` comes next after `s`, or is still the same, in the life of an action which can be
carried out if `routable`.  One that cannot is marked as executed and fails at once. -/
inductive ActionStatus.Follows (routable : Bool) : ActionStatus → ActionStatus → Prop where
  | same (s : ActionStatus) : Follows routable s s
  | handedOver : Follows routable .pending .executed
  | known {t : ActionStatus} (ht : t.isConfirmed) : Follows routable .executed t
  | unroutable (h : routable = false) : Follows routable .pending (.failed .initiation)

theorem ActionStatus.Follows.of_pending {routable : Bool} {s : ActionStatus}
    (h : Follows routable s .pending) : s = .pending := by
  cases h with
  | same => rfl
  | known ht => cases ht

namespace Graph

/-- The way in which the action at a slot is carried out. -/
def channelAt? (g : Graph) (k : Nat) : Option Channel := g.actions[k]?.bind (·.channel?)

/-- From `g` to `g'` each action takes at most one step of its life. -/
structure LivesOn (g g' : Graph) : Prop where
  plan : g'.plan = g.plan
  follows : ∀ k s s', g.statusAt k = some s → g'.statusAt k = some s' →
    ActionStatus.Follows (g.channelAt? k).isSome s s'

/-- The actions of the synapses that have not fired are pending. -/
def Pristine (g : Graph) : Prop :=
  ∀ (p : Nat) (s : Synapse), g.synapses[p]? = some s → s.status.isExecuted = false →
    ∀ k ∈ s.actions, g.statusAt k = some .pending

/-- From `g` to `g'` results of actions that were executed have become known, and no more. -/
structure Hears (g g' : Graph) : Prop where
  plan : g'.plan = g.plan
  status : ∀ k, g'.statusAt k = g.statusAt k ∨
    g.statusAt k = some .executed ∧ ∃ t, g'.statusAt k = some t ∧ t.isConfirmed
  idle : ∀ (p : Nat) (s' : Synapse), g'.synapses[p]? = some s' → s'.status.isExecuted = false →
    ∃ s, g.synapses[p]? = some s ∧ s.status.isExecuted = false

variable {g g' g'' m : Graph} {id : ActionId}

/-! ## Lives -/

theorem LivesOn.refl (g : Graph) : g.LivesOn g := by
  refine ⟨rfl, fun k s s' hs hs' => ?_⟩
  obtain rfl : s = s' := Option.some.inj (hs.symm.trans hs')
  exact .same s

theorem channelAt?_of_plan (h : g'.plan = g.plan) (k : Nat) : g'.channelAt? k = g.channelAt? k := by
  have hactions : g'.actions.map Action.plan = g.actions.map Action.plan := congrArg Graph.actions h
  have hget := congrArg (fun l => l[k]?.bind Action.channel?) hactions
  simp only [List.getElem?_map, Option.bind_map] at hget
  exact hget

/-- After a step of some lives the others stay, and those that take a step were pending. -/
theorem LivesOn.start (h : m.LivesOn g) (hplan : g'.plan = g.plan)
    (hstart : ∀ k s', g'.statusAt k = some s' → g.statusAt k = some s' ∨
      g.statusAt k = some .pending ∧ ActionStatus.Follows (g.channelAt? k).isSome .pending s') :
    m.LivesOn g' := by
  refine ⟨hplan.trans h.plan, fun k s s' hs hs' => ?_⟩
  rcases hstart k s' hs' with hsame | ⟨hpending, hfollows⟩
  · exact h.follows k s s' hs hsame
  · obtain rfl := (h.follows k s .pending hs hpending).of_pending
    rwa [← channelAt?_of_plan h.plan]

/-- A pending action is handed over. -/
theorem LivesOn.mark (h : m.LivesOn g) {slot : Nat} (hpending : g.statusAt slot = some .pending) :
    m.LivesOn (g.setStatusAt slot .executed) := by
  refine h.start (plan_setStatusAt ..) fun k s' hs' => ?_
  rw [statusAt_setStatusAt] at hs'
  split at hs'
  · rename_i heq
    subst heq
    obtain ⟨_, -, rfl⟩ := Option.map_eq_some_iff.mp hs'
    exact .inr ⟨hpending, .handedOver⟩
  · exact .inl hs'

/-- Nothing happens to the actions. -/
theorem LivesOn.of_eq (h : m.LivesOn g) (hplan : g'.plan = g.plan)
    (hstatus : ∀ k, g'.statusAt k = g.statusAt k) : m.LivesOn g' :=
  h.start hplan fun k _ hs' => .inl (hstatus k ▸ hs')

/-- A pending action that cannot be carried out fails. -/
theorem LivesOn.unroutable (h : m.LivesOn g) (pos : Nat) {slot : Nat}
    (hpending : g.statusAt slot = some .pending) (hchannel : g.channelAt? slot = none) :
    m.LivesOn ((g.setStatusAt slot .executed).failFiring pos slot) := by
  have hat (k : Nat) : ((g.setStatusAt slot .executed).failFiring pos slot).statusAt k =
      ((g.setStatusAt slot .executed).setStatusAt slot (.failed .initiation)).statusAt k := rfl
  refine h.start (by simp) fun k s' hs' => ?_
  rw [hat, statusAt_setStatusAt, statusAt_setStatusAt] at hs'
  by_cases heq : slot = k
  · subst heq
    rw [if_pos rfl, if_pos rfl] at hs'
    obtain ⟨_, -, rfl⟩ := Option.map_eq_some_iff.mp hs'
    exact .inr ⟨hpending, .unroutable (by rw [hchannel]; rfl)⟩
  · rw [if_neg heq, if_neg heq] at hs'
    exact .inl hs'

/-! ## Reports -/

theorem Hears.refl (g : Graph) : g.Hears g :=
  ⟨rfl, fun _ => .inl rfl, fun _ s' hs' hidle => ⟨s', hs', hidle⟩⟩

theorem Hears.trans (h : g.Hears g') (h' : g'.Hears g'') : g.Hears g'' := by
  refine ⟨h'.plan.trans h.plan, fun k => ?_, fun p s'' hs'' hidle'' => ?_⟩
  · rcases h'.status k with hsame | ⟨hexec, hknown⟩
    · rw [hsame]
      exact h.status k
    · rcases h.status k with hsame | ⟨-, t, ht, hconfirmed⟩
      · exact .inr ⟨hsame ▸ hexec, hknown⟩
      · rw [ht, Option.some.injEq] at hexec
        subst hexec
        cases hconfirmed
  · obtain ⟨s', hs', hidle'⟩ := h'.idle p s'' hs'' hidle''
    exact h.idle p s' hs' hidle'

/-- What is done on behalf of an action that was handed over. -/
theorem Edits.hears (h : Edits id g g') (hbegun : g.Begun id) : g.Hears g' := by
  refine ⟨h.plan, fun k => ?_, fun p s' hs' hidle => ?_⟩
  · by_cases hslot : g.slotOf? id = some k
    · rcases h.statusAt_self k with hsame | ⟨new, hnew, hknown⟩
      · exact .inl hsame
      · cases hold : g.statusAt k with
        | none =>
          obtain ⟨a, ha, -⟩ := exists_action_of_slotOf? hslot
          rw [statusAt_eq ha] at hold
          cases hold
        | some old =>
          cases old with
          | pending => exact absurd hold (hbegun k hslot)
          | executed => exact .inr ⟨rfl, new, hnew, hknown⟩
          | confirmed | failed => exact .inl (h.keeps_confirmed hold rfl)
    · exact .inl (h.statusAt_other hslot)
  · obtain ⟨s, hs, -, hexec⟩ := h.isExecuted hs'
    exact ⟨s, hs, hexec ▸ hidle⟩

theorem Hears.liveOn (h : g.Hears g') : g.LivesOn g' := by
  refine ⟨h.plan, fun k s s' hs hs' => ?_⟩
  rcases h.status k with hsame | ⟨hexec, t, ht, hknown⟩
  · obtain rfl : s = s' := Option.some.inj (hs.symm.trans (hsame.symm.trans hs'))
    exact .same s
  · obtain rfl : s = .executed := Option.some.inj (hs.symm.trans hexec)
    obtain rfl : s' = t := Option.some.inj (hs'.symm.trans ht)
    exact .known hknown

/-! ## Actions of synapses that have not fired -/

theorem Pristine.untouched (h : g.Pristine) : g.Untouched := by
  intro p s hs hidle k hk
  rw [h p s hs hidle k hk]
  simp

theorem Fresh.pristine (h : g.Fresh) (hw : g.WellFormed) : g.Pristine := by
  intro p s hs _ k hk
  have hget := List.getElem?_eq_getElem (hw.slot_lt (List.mem_of_getElem? hs) hk)
  rw [statusAt_eq hget, (h.actions _ (List.mem_of_getElem? hget)).1]

/-- **Results of actions that were handed over** say nothing of synapses that have not fired. -/
theorem Pristine.hears (hg : g.Pristine) (h : g.Hears g') : g'.Pristine := by
  intro p s' hs' hidle k hk
  obtain ⟨s, hs, hidle'⟩ := h.idle p s' hs' hidle
  obtain ⟨t, ht, hplan⟩ := synapse_of_plan h.plan hs'
  obtain rfl : s = t := Option.some.inj (hs.symm.trans ht)
  rw [Synapse.actions_eq_of_plan hplan] at hk
  have hpending := hg p s hs hidle' k hk
  rcases h.status k with hsame | ⟨hexec, -⟩
  · rw [hsame, hpending]
  · rw [hpending] at hexec
    cases hexec

/-- A synapse may fire, or change its status before that. -/
theorem Pristine.setSynapseStatus (hg : g.Pristine) {pos : Nat} {status : SynapseStatus}
    (h : status.isExecuted = false → ∀ s, g.synapses[pos]? = some s → s.status.isExecuted = false) :
    (g.setSynapseStatus pos status).Pristine := by
  intro p s' hs' hidle k hk
  obtain ⟨s, hs, ⟨rfl, rfl⟩ | ⟨-, rfl⟩⟩ := setSynapseStatus_cases hs'
  · exact hg p s hs (h hidle s hs) k hk
  · exact hg p s' hs hidle k hk

/-- The status of an action may change whose owner has fired. -/
theorem Pristine.setStatusAt (hg : g.Pristine) (hw : g.WellFormed) {slot p : Nat} {s : Synapse}
    (hs : g.synapses[p]? = some s) (hslot : slot ∈ s.actions) (hfired : s.status.isExecuted)
    (status : ActionStatus) : (g.setStatusAt slot status).Pristine := by
  intro q t ht hidle k hk
  rw [synapses_setStatusAt] at ht
  rw [statusAt_setStatusAt, if_neg, hg q t ht hidle k hk]
  rintro rfl
  obtain rfl := hw.owner_unique hs ht hslot hk
  obtain rfl : s = t := Option.some.inj (hs.symm.trans ht)
  rw [hidle] at hfired
  cases hfired

end Graph

/-! ## A pass -/

/-- Where a pass stands when no result came too early: what is still to be handed over is
pending. -/
structure PassState.Pristine {σ : Type} (x : PassState σ) : Prop where
  orderly : x.Orderly
  graph : x.graph.Pristine
  rest : ∀ k ∈ x.stage.rest, x.graph.statusAt k = some .pending

section Pass

variable {σ : Type} {d : Dispatcher σ}

/-- After an action is handed over the rest is pending. -/
theorem PassState.Pristine.handed {g g' : Graph} {st : σ} {pos slot : Nat} {slots : List Nat}
    {a : Action} (hx : PassState.Pristine ⟨.firing pos (slot :: slots), g, st⟩)
    (ha : g.actions[slot]? = some a) (hedits : Edits a.id (g.setStatusAt slot .executed) g')
    (st' : σ) :
    (g.setStatusAt slot .executed).Hears g' ∧ PassState.Pristine ⟨.firing pos slots, g', st'⟩ := by
  obtain ⟨-, -, s, hs, hfired, hsub⟩ := hx.orderly.firing pos _ rfl
  have hw := hx.orderly.wellFormed
  obtain ⟨hslot, -⟩ := hw.action?_setStatusAt ha .executed
  have hbegun : (g.setStatusAt slot .executed).Begun a.id :=
    .of_slot hslot (by simp [Graph.statusAt_eq (Graph.getElem?_setStatusAt ha .executed)])
  have hhears := Graph.Edits.hears hedits hbegun
  have hmark := hx.graph.setStatusAt hw hs (hsub (List.mem_cons_self ..)) hfired .executed
  refine ⟨hhears, hx.orderly.handed hedits st', hmark.hears hhears, fun k hk => ?_⟩
  rw [hx.orderly.statusAt_rest ha hedits hk]
  exact hx.rest k (List.mem_cons_of_mem _ hk)

/-- The firing of a synapse fails. -/
theorem PassState.Pristine.failFiring {g : Graph} {st : σ} {pos slot : Nat} {slots : List Nat}
    (hx : PassState.Pristine ⟨.firing pos slots, g, st⟩) {s : Synapse}
    (hs : g.synapses[pos]? = some s) (hslot : slot ∈ s.actions) (hfired : s.status.isExecuted) :
    (g.failFiring pos slot).Pristine := by
  have hset := hx.graph.setStatusAt hx.orderly.wellFormed hs hslot hfired (.failed .initiation)
  have hfail :
      ((g.setStatusAt slot (.failed .initiation)).setSynapseStatus pos .failed).Pristine :=
    hset.setSynapseStatus fun h => by cases h
  exact hfail

/-- The owner of an action, as it is after the action was handed over. -/
theorem PassState.Orderly.owner_handed {g g' : Graph} {st : σ} {pos slot : Nat} {slots : List Nat}
    {id : ActionId} (hx : PassState.Orderly ⟨.firing pos (slot :: slots), g, st⟩)
    (hedits : Edits id (g.setStatusAt slot .executed) g') :
    ∃ s, g'.synapses[pos]? = some s ∧ slot ∈ s.actions ∧ s.status.isExecuted := by
  obtain ⟨-, -, s, hs, hfired, hsub⟩ := hx.firing pos _ rfl
  have hplan : g'.plan = g.plan := hedits.plan.trans (Graph.plan_setStatusAt ..)
  obtain ⟨s', hs', hsame⟩ := Graph.synapse_of_plan hplan.symm hs
  obtain ⟨t, ht, -, hexec⟩ := hedits.isExecuted hs'
  obtain rfl : s = t := Option.some.inj (hs.symm.trans ht)
  refine ⟨s', hs', ?_, by rw [hexec, hfired]⟩
  rw [← Synapse.actions_eq_of_plan hsame]
  exact hsub (List.mem_cons_self ..)

/-- **A pass only hands over what is pending**, and never hands an action over again. -/
theorem PassState.Pristine.step (hd : d.Handles) {x y : PassState σ} (hx : x.Pristine)
    (h : PassStep d x y) : y.Pristine := by
  have horderly := hx.orderly.step hd h
  have hwaits {g : Graph} {pos : Nat} {s : Synapse} (hs : g.synapses[pos]? = some s)
      (hidle : s.status.isExecuted = false) :
      ∀ t, g.synapses[pos]? = some t → t.status.isExecuted = false := by
    intro t ht
    rwa [← Option.some.inj (hs.symm.trans ht)]
  cases h with
  | count | conclude | fired => exact ⟨horderly, hx.graph, by simp [PassStage.rest]⟩
  | ready st hs hwaiting =>
    refine ⟨horderly, hx.graph.setSynapseStatus fun _ => hwaits hs ?_, by simp [PassStage.rest]⟩
    rcases hwaiting with h | h <;> rw [h] <;> rfl
  | skip st hs hready =>
    refine ⟨horderly, hx.graph.setSynapseStatus fun _ => hwaits hs ?_, by simp [PassStage.rest]⟩
    rw [hready]
    rfl
  | @fire g st pos s hs hready =>
    exact ⟨horderly, hx.graph.setSynapseStatus (fun h => nomatch h),
      hx.graph pos s hs (by rw [hready]; rfl)⟩
  | dispatch pos slots ha _ _ hgoes => exact (hx.handed ha (hd.edits hgoes) _).2
  | @refuse g g' st st' pos slot slots a channel ha _ _ hstays =>
    obtain ⟨s, hs, hslot, hfired⟩ := hx.orderly.owner_handed (hd.edits hstays)
    have hnext := (hx.handed ha (hd.edits hstays) st').2
    exact ⟨horderly, hnext.failFiring hs hslot hfired, by simp [PassStage.rest]⟩
  | @unroutable g st pos slot slots a ha _ _ =>
    obtain ⟨s, hs, hslot, hfired⟩ := hx.orderly.owner_handed (.refl : Edits a.id _ _)
    have hnext := (hx.handed ha .refl st).2
    exact ⟨horderly, hnext.failFiring hs hslot hfired, by simp [PassStage.rest]⟩
  | again st pos slots hslot =>
    have hpending := hx.rest _ (List.mem_cons_self ..)
    obtain ⟨a, ha, hstatus⟩ := Option.map_eq_some_iff.mp hpending
    have hexec := hslot a ha
    rw [hstatus] at hexec
    cases hexec

/-- The lives of the actions up to where a pass stands: at the graph `g`, at the calls so far, and
now. -/
def PassState.Lived (g : Graph) (x : PassState (σ × List DispatchCall)) : Prop :=
  (g :: x.state.2.map (·.graph) ++ [x.graph]).IsChain Graph.LivesOn

/-- What comes last may be replaced by what any life goes on to as well. -/
theorem isChain_replace_last {α : Type} {R : α → α → Prop} {l : List α} {a b : α}
    (h : (l ++ [a]).IsChain R) (hab : ∀ m, R m a → R m b) : (l ++ [b]).IsChain R := by
  rw [List.isChain_append] at h ⊢
  refine ⟨h.1, by simp, fun m hm y hy => ?_⟩
  obtain rfl : b = y := by simpa using hy
  exact hab m (h.2.2 m hm a (by simp))

/-- **No step of a pass skips a stage of a life or goes back.** -/
theorem PassState.Lived.step (hd : d.Handles) {g : Graph}
    {x y : PassState (σ × List DispatchCall)} (hx : x.Pristine) (hl : x.Lived g)
    (h : PassStep d.recording x y) : y.Lived g := by
  have hplan := h.plan hd.recording
  -- a call leaves its graph in the record
  have hcall {g₁ g₂ : Graph} {slot : Nat} {a : Action} {calls : List DispatchCall}
      {channel : Channel} (hpending : g₁.statusAt slot = some .pending)
      (hchain : (g :: calls.map (·.graph) ++ [g₁]).IsChain Graph.LivesOn)
      (hnext : (g₁.setStatusAt slot .executed).LivesOn g₂) :
      (g :: (calls ++ [DispatchCall.mk channel a.id (g₁.setStatusAt slot .executed)]).map
        (·.graph) ++ [g₂]).IsChain Graph.LivesOn := by
    have hmark := isChain_replace_last hchain fun m hm => hm.mark hpending
    simp only [List.map_append, List.map_cons, List.map_nil]
    rw [← List.cons_append, List.append_assoc, List.singleton_append, List.isChain_append_cons_cons]
    exact ⟨hmark, hnext, by simp⟩
  cases h with
  | count | ready | skip | fire | fired | conclude =>
    exact isChain_replace_last hl fun m hm => hm.of_eq hplan fun _ => rfl
  | @dispatch g₁ g₂ st st' pos slot slots a channel ha hpending hchannel hgoes =>
    have hhears := (hx.handed ha (hd.recording.edits hgoes) st').1
    simp only [Dispatcher.recording, Prod.mk.injEq] at hgoes
    obtain ⟨-, -, rfl⟩ := hgoes
    exact hcall (hpending ▸ Graph.statusAt_eq ha) hl hhears.liveOn
  | @refuse g₁ g₂ st st' pos slot slots a channel ha hpending hchannel hstays =>
    have hhears := (hx.handed ha (hd.recording.edits hstays) st').1
    simp only [Dispatcher.recording, Prod.mk.injEq] at hstays
    obtain ⟨-, -, rfl⟩ := hstays
    refine hcall (hpending ▸ Graph.statusAt_eq ha) hl ⟨?_, fun k s s' hs hs' => ?_⟩
    · exact (Graph.plan_failFiring ..).trans hhears.plan
    · have hset : (g₂.setStatusAt slot (.failed .initiation)).statusAt k = some s' := hs'
      rw [Graph.statusAt_setStatusAt] at hset
      split at hset
      · rename_i heq
        subst heq
        obtain ⟨_, -, rfl⟩ := Option.map_eq_some_iff.mp hset
        rw [Graph.statusAt_eq (Graph.getElem?_setStatusAt ha .executed), Option.some.injEq] at hs
        subst hs
        exact .known rfl
      · exact hhears.liveOn.follows k s s' hs hset
  | @unroutable g₁ st pos slot slots a ha hpending hchannel =>
    refine isChain_replace_last hl fun m hm => ?_
    exact hm.unroutable pos (hpending ▸ Graph.statusAt_eq ha)
      (by simp only [Graph.channelAt?, ha, Option.bind_some, hchannel])
  | again st pos slots hslot =>
    have hpending := hx.rest _ (List.mem_cons_self ..)
    obtain ⟨a, ha, hstatus⟩ := Option.map_eq_some_iff.mp hpending
    have hexec := hslot a ha
    rw [hstatus] at hexec
    cases hexec

/-- **A pass takes the actions through their lives**, from the graph with which it begins to each of
its calls and to its end. -/
theorem Graph.calls_liveOn (hsteady : d.Steady) (hd : d.Handles) {g : Graph} (hw : g.WellFormed)
    (hg : g.Pristine) (st : σ) :
    (g.run d st).2.1.Pristine ∧
      (g :: (g.calls d st).map (·.graph) ++ [(g.run d st).2.1]).IsChain LivesOn := by
  have hend : (g.run d st).2.1 = (g.run d.recording (st, [])).2.1 := by
    rw [Graph.run_recording d g (st, [])]
    rfl
  have hstart : PassState.Pristine ⟨.visiting, g, (st, ([] : List DispatchCall))⟩ :=
    ⟨⟨hw, hg.untouched, by simp⟩, hg, by simp [PassStage.rest]⟩
  obtain ⟨hpristine, hlived⟩ := Graph.run_induction hsteady.recording
    (P := fun x => x.Pristine ∧ x.Lived g)
    (fun _ _ hstep hx => ⟨hx.1.step hd.recording hstep, hx.2.step hd hx.1 hstep⟩) g (st, [])
    ⟨hstart, by simp [PassState.Lived, LivesOn.refl]⟩
  rw [hend]
  exact ⟨hpristine.graph, hlived⟩

end Pass
end ClusterTransition
