import ClusterTransition.Proofs.Document.Loading
import ClusterTransition.Proofs.Engine.Moves

/-! # Who hands actions over

Only the synapse that owns an action hands it over, and only when it fires.  So as long as a synapse
has not fired, none of its actions waits for a result (`Graph.Untouched`): a report may settle an
action that was never dispatched, but nothing other than a dispatch makes one wait.  When a pass
comes upon an action that it must not hand over again, that action has its result already.
-/

namespace ClusterTransition

open ClusterTransition.Graph (Edits Reported)

namespace Graph

/-- No synapse that has not fired owns an action that waits for its result. -/
def Untouched (g : Graph) : Prop :=
  ∀ (p : Nat) (s : Synapse), g.synapses[p]? = some s → s.status.isExecuted = false →
    ∀ k ∈ s.actions, g.statusAt k ≠ some .executed

variable {g g' : Graph}

theorem Fresh.untouched (h : g.Fresh) : g.Untouched := by
  intro p s _ _ k _ hk
  obtain ⟨a, ha, hstatus⟩ := Option.map_eq_some_iff.mp hk
  rw [(h.actions a (List.mem_of_getElem? ha)).1] at hstatus
  cases hstatus

/-- Edits make no action wait. -/
theorem statusAt_ne_executed {id : ActionId} (h : Edits id g g') {k : Nat}
    (hk : g.statusAt k ≠ some .executed) : g'.statusAt k ≠ some .executed := by
  rcases h.statusAt_self k with heq | ⟨new, hnew, hknown⟩
  · rwa [heq]
  · rintro hexec
    rw [hnew, Option.some.injEq] at hexec
    subst hexec
    cases hknown

theorem statusAt_ne_executed_reported (h : Reported g g') {k : Nat}
    (hk : g.statusAt k ≠ some .executed) : g'.statusAt k ≠ some .executed := by
  induction h with
  | refl => exact hk
  | tail _ step ih =>
    obtain ⟨id, hedits⟩ := step
    exact statusAt_ne_executed hedits ih

theorem Untouched.edits {id : ActionId} (hg : g.Untouched) (h : Edits id g g') : g'.Untouched := by
  intro p s' hs' hidle k hk
  obtain ⟨s, hs, hplan, hexec⟩ := h.isExecuted hs'
  rw [Synapse.actions_eq_of_plan hplan] at hk
  exact statusAt_ne_executed h (hg p s hs (hexec ▸ hidle) k hk)

theorem Untouched.reported (hg : g.Untouched) (h : Reported g g') : g'.Untouched := by
  induction h with
  | refl => exact hg
  | tail _ step ih =>
    obtain ⟨id, hedits⟩ := step
    exact ih.edits hedits

/-- A synapse may fire, or change its status before that. -/
theorem Untouched.setSynapseStatus (hg : g.Untouched) {pos : Nat} {status : SynapseStatus}
    (h : status.isExecuted = false → ∀ s, g.synapses[pos]? = some s → s.status.isExecuted = false) :
    (g.setSynapseStatus pos status).Untouched := by
  intro p s' hs' hidle k hk
  obtain ⟨s, hs, ⟨rfl, rfl⟩ | ⟨-, rfl⟩⟩ := setSynapseStatus_cases hs'
  · exact hg p s hs (h hidle s hs) k hk
  · exact hg p s' hs hidle k hk

/-- An action may start to wait if its owner has fired, and may be settled at any time. -/
theorem Untouched.setStatusAt (hg : g.Untouched) (hw : g.WellFormed) {slot : Nat}
    {status : ActionStatus}
    (h : status = .executed → ∃ (p : Nat) (s : Synapse), g.synapses[p]? = some s ∧
      slot ∈ s.actions ∧ s.status.isExecuted) : (g.setStatusAt slot status).Untouched := by
  intro p s hs hidle k hk hexec
  rw [statusAt_setStatusAt] at hexec
  by_cases hslot : slot = k
  · subst hslot
    rw [if_pos rfl] at hexec
    obtain ⟨_, -, rfl⟩ := Option.map_eq_some_iff.mp hexec
    obtain ⟨q, t, ht, hkt, hfired⟩ := h rfl
    obtain rfl : p = q := hw.owner_unique hs ht hk hkt
    rw [synapses_setStatusAt, ht, Option.some.injEq] at hs
    rw [← hs, hfired] at hidle
    cases hidle
  · rw [if_neg hslot] at hexec
    exact hg p s hs hidle k hk hexec

theorem Untouched.failFiring (hg : g.Untouched) (hw : g.WellFormed) (pos slot : Nat) :
    (g.failFiring pos slot).Untouched := by
  have hset : (g.setStatusAt slot (.failed .initiation)).Untouched :=
    hg.setStatusAt hw fun h => by cases h
  have hfail :
      ((g.setStatusAt slot (.failed .initiation)).setSynapseStatus pos .failed).Untouched :=
    hset.setSynapseStatus fun h => by cases h
  exact hfail

end Graph

/-! ## A pass -/

/-- Where a pass stands with respect to the owners: only synapses that have fired own actions that
wait, and the synapse that is being fired still has its turn to come with the rest of them. -/
structure PassState.Orderly {σ : Type} (x : PassState σ) : Prop where
  wellFormed : x.graph.WellFormed
  untouched : x.graph.Untouched
  firing : ∀ pos slots, x.stage = .firing pos slots →
    slots.Nodup ∧ (∀ k ∈ slots, x.graph.statusAt k ≠ some .executed) ∧
      ∃ s, x.graph.synapses[pos]? = some s ∧ s.status.isExecuted ∧ slots ⊆ s.actions

section Pass

variable {σ : Type} {d : Dispatcher σ}

/-- After an action is handed over, the rest of its synapse still has its turn to come. -/
theorem PassState.Orderly.handed {g g' : Graph} {st : σ} {pos slot : Nat} {slots : List Nat}
    {id : ActionId} (hx : PassState.Orderly ⟨.firing pos (slot :: slots), g, st⟩)
    (hedits : Edits id (g.setStatusAt slot .executed) g') (st' : σ) :
    PassState.Orderly ⟨.firing pos slots, g', st'⟩ := by
  obtain ⟨hnodup, hwait, s, hs, hfired, hsub⟩ := hx.firing pos _ rfl
  obtain ⟨hslot, hnodup⟩ := List.nodup_cons.mp hnodup
  have hplan : g'.plan = g.plan := hedits.plan.trans (Graph.plan_setStatusAt ..)
  have hset : (g.setStatusAt slot .executed).Untouched :=
    hx.untouched.setStatusAt hx.wellFormed fun _ =>
      ⟨pos, s, hs, hsub (List.mem_cons_self ..), hfired⟩
  refine ⟨hx.wellFormed.of_plan hplan, hset.edits hedits, ?_⟩
  rintro _ _ ⟨⟩
  refine ⟨hnodup, fun k hk => Graph.statusAt_ne_executed hedits ?_, ?_⟩
  · have hne : slot ≠ k := fun h => hslot (h ▸ hk)
    rw [Graph.statusAt_setStatusAt, if_neg hne]
    exact hwait k (List.mem_cons_of_mem _ hk)
  · obtain ⟨s', hs', hplan'⟩ := Graph.synapse_of_plan hplan.symm hs
    obtain ⟨t, ht, -, hexec⟩ := hedits.isExecuted hs'
    obtain rfl : s = t := Option.some.inj (hs.symm.trans ht)
    refine ⟨s', hs', by rw [hexec, hfired], ?_⟩
    rw [← Synapse.actions_eq_of_plan hplan']
    exact List.Subset.trans (List.subset_cons_self ..) hsub

/-- The statuses of the actions that still have their turn to come stay meanwhile. -/
theorem PassState.Orderly.statusAt_rest {g g' : Graph} {st : σ} {pos slot : Nat} {slots : List Nat}
    {a : Action} (hx : PassState.Orderly ⟨.firing pos (slot :: slots), g, st⟩)
    (ha : g.actions[slot]? = some a) (hedits : Edits a.id (g.setStatusAt slot .executed) g')
    {k : Nat} (hk : k ∈ slots) : g'.statusAt k = g.statusAt k := by
  obtain ⟨hnodup, -⟩ := hx.firing pos _ rfl
  have hne : slot ≠ k := by
    rintro rfl
    exact (List.nodup_cons.mp hnodup).1 hk
  obtain ⟨hslot, -⟩ := hx.wellFormed.action?_setStatusAt ha .executed
  rw [hedits.statusAt_other (by rw [hslot]; simpa using hne), Graph.statusAt_setStatusAt,
    if_neg hne]

theorem PassState.Orderly.step (hd : d.Handles) {x y : PassState σ} (hx : x.Orderly)
    (h : PassStep d x y) : y.Orderly := by
  have hw := hx.wellFormed.of_plan (h.plan hd)
  have hwaiting {g : Graph} {pos : Nat} {s : Synapse} (hs : g.synapses[pos]? = some s)
      (hidle : s.status.isExecuted = false) :
      ∀ t, g.synapses[pos]? = some t → t.status.isExecuted = false := by
    intro t ht
    rw [hs, Option.some.injEq] at ht
    exact ht ▸ hidle
  cases h with
  | count => exact ⟨hw, hx.untouched, by simp⟩
  | conclude => exact ⟨hw, hx.untouched, by simp⟩
  | fired => exact ⟨hw, hx.untouched, by simp⟩
  | ready st hs hwaits hinputs =>
    refine ⟨hw, hx.untouched.setSynapseStatus fun _ => hwaiting hs ?_, by simp⟩
    rcases hwaits with h | h <;> rw [h] <;> rfl
  | skip st hs hready hslot ha hpseudo hlevel =>
    refine ⟨hw, hx.untouched.setSynapseStatus fun _ => hwaiting hs ?_, by simp⟩
    rw [hready]
    rfl
  | @fire g st pos s hs hready hinputs hallowed =>
    refine ⟨hw, hx.untouched.setSynapseStatus (fun h => nomatch h), ?_⟩
    rintro _ _ ⟨⟩
    refine ⟨hx.wellFormed.nodup_actions (List.mem_of_getElem? hs), ?_, ?_⟩
    · exact hx.untouched pos s hs (by rw [hready]; rfl)
    · exact ⟨_, Graph.setSynapseStatus_getElem? hs .executing, rfl, List.Subset.refl _⟩
  | dispatch pos slots ha hpending hchannel hgoes => exact hx.handed (hd.edits hgoes) _
  | @refuse _ _ st _ _ _ _ _ _ ha hpending hchannel hstays =>
    have hnext := hx.handed (hd.edits hstays) st
    exact ⟨hw, hnext.untouched.failFiring hnext.wellFormed _ _, by simp⟩
  | unroutable st pos slots ha hpending hchannel =>
    have hnext := hx.handed (.refl : Edits 0 _ _) st
    exact ⟨hw, hnext.untouched.failFiring hnext.wellFormed _ _, by simp⟩
  | again => exact ⟨hw, hx.untouched.failFiring hx.wellFormed _ _, by simp⟩

end Pass
end ClusterTransition
