import ClusterTransition.Proofs.Engine.Arrival
import ClusterTransition.Proofs.Engine.Residue
import ClusterTransition.Proofs.Engine.Results

/-! # Refused actions are never heard of

When an action could not be set going, no synapse that waits for it is told, not even one that
tolerates its failure (`toleratedStart_lost`).  Nor is any of them told later: reports about the
action are taken as repeated, and there is no fencing request for it whose outcome could be spread
after all (`Graph.Aside`).  So the completions that are lost are just those of the refused actions
(`lost_iff_refused`).
-/

namespace ClusterTransition

open ClusterTransition.Graph (Advances Edits)

namespace Graph

/-- Nothing was heard of the action at `k`, which is pending or was refused: no input for it is
marked, and no fencing request for it is outstanding. -/
structure Aside {ε : Type} (k : Nat) (g : Graph) (e : Engine ε) : Prop where
  status : g.statusAt k = some .pending ∨ g.statusAt k = some (.failed .initiation)
  marks : ∀ s ∈ g.synapses, ∀ i ∈ s.inputs, i.slot = k → i.satisfied = false
  calls : ∀ f ∈ e.fenceCalls.entries, g.slotOf? f.2.action ≠ some k

namespace Aside

variable {ε : Type} {c : Cluster ε} {k : Nat} {g g' : Graph} {e e' : Engine ε} {id : ActionId}

theorem of_eq (h : g.Aside k e) (hplan : g'.plan = g.plan)
    (hmarks : ∀ s' ∈ g'.synapses, ∃ s ∈ g.synapses, s'.inputs = s.inputs)
    (hstatus : g'.statusAt k = g.statusAt k)
    (hcalls : ∀ f ∈ e'.fenceCalls.entries, f ∈ e.fenceCalls.entries) : g'.Aside k e' := by
  refine ⟨hstatus ▸ h.status, fun s' hs' i hi => ?_, fun f hf => ?_⟩
  · obtain ⟨s, hs, hsame⟩ := hmarks s' hs'
    exact h.marks s hs i (hsame ▸ hi)
  · rw [slotOf?_eq_of_plan hplan]
    exact h.calls f (hcalls f hf)

/-- Nothing is heard of the action by what is done on behalf of another. -/
theorem edits (h : g.Aside k e) (hid : g.slotOf? id ≠ some k) (hedits : Edits id g g')
    (hcalls : ∀ f ∈ e'.fenceCalls.entries, f ∈ e.fenceCalls.entries ∨ f.2.action = id) :
    g'.Aside k e' := by
  refine ⟨hedits.statusAt_other hid ▸ h.status, ?_, fun f hf => ?_⟩
  · induction hedits with
    | refl => exact h.marks
    | tail steps step ih =>
      intro s' hs' i hi hslot
      obtain ⟨p, hp⟩ := List.getElem?_of_mem hs'
      obtain ⟨s, hs, hcases⟩ := step.synapse hp
      have hmem := List.mem_of_getElem? hs
      rcases hcases with rfl | ⟨slot, a, hk, -, -, -, rfl⟩
      · exact ih s' hmem i hi hslot
      · rcases mem_inputs_absorbed hi with hi | heq
        · exact ih s hmem i hi hslot
        · rw [slotOf?_eq_of_plan (Edits.plan steps), ← heq, hslot] at hk
          exact absurd hk hid
  · rw [slotOf?_eq_of_plan hedits.plan]
    rcases hcalls f hf with hf | heq
    · exact h.calls f hf
    · rwa [heq]

/-- A known result of the action is that it was refused. -/
theorem pending_of_open (h : g.Aside k e) {a : Action} (ha : g.action? id = some a)
    (hslot : g.slotOf? id = some k) (hopen : a.status.isConfirmed = false) :
    g.statusAt k = some .pending := by
  obtain ⟨j, hj, hget, -⟩ := exists_slot_of_action? ha
  obtain rfl : j = k := Option.some.inj (hj.symm.trans hslot)
  refine h.status.resolve_right fun hfailed => ?_
  rw [statusAt_eq hget, Option.some.injEq] at hfailed
  rw [hfailed] at hopen
  cases hopen

end Aside

/-- Spreading the completion of an action leaves the statuses that it was settled with. -/
theorem statusAt_finish (g : Graph) (id : ActionId) (k : Nat) :
    ((g.settle id .confirmed).2.update id).2.statusAt k =
      if g.slotOf? id = some k then
        (g.statusAt k).map fun old => if old.isConfirmed then old else .confirmed
      else g.statusAt k := by
  have hsame := actions_update_settle g id (rfl : ActionStatus.confirmed.isConfirmed = true)
  rw [← statusAt_settle, statusAt, hsame, statusAt]

/-- An action that was finished is pending no longer. -/
theorem statusAt_finish_ne_pending (g : Graph) {id : ActionId} {k : Nat}
    (hslot : g.slotOf? id = some k) :
    ((g.settle id .confirmed).2.update id).2.statusAt k ≠ some .pending := by
  intro hpending
  rw [statusAt_finish, if_pos hslot] at hpending
  obtain ⟨old, -, hold⟩ := Option.map_eq_some_iff.mp hpending
  split at hold
  · rename_i hknown
    rw [hold] at hknown
    cases hknown
  · cases hold

/-- No action fails in an advance. -/
theorem failed_of_advances {g g' : Graph} {id : ActionId} (h : Advances id g g') {k : Nat}
    {reason : FailureKind} (hk : g'.statusAt k = some (.failed reason)) :
    g.statusAt k = some (.failed reason) := by
  induction h with
  | refl => exact hk
  | tail _ step ih =>
    refine ih ?_
    cases step with
    | note _ hstatus => rwa [statusAt_modifyAction _ id hstatus] at hk
    | shutdown => exact hk
    | finish =>
      rw [statusAt_finish] at hk
      split at hk
      · obtain ⟨old, hold, hset⟩ := Option.map_eq_some_iff.mp hk
        split at hset
        · rw [hold, hset]
        · cases hset
      · exact hk

end Graph

/-! ### Reports -/

namespace Engine

variable {ε : Type} (c : Cluster ε) {k : Nat} {e : Engine ε} {g : Graph}

/-- An action is finished after what was done on its behalf: nothing is heard of another. -/
theorem finishAction_aside {g₀ : Graph} {e₀ : Engine ε} {id : ActionId} (h : g₀.Aside k e₀)
    (hedits : Edits id g₀ g) (hcalls : ∀ f ∈ e.fenceCalls.entries, f ∈ e₀.fenceCalls.entries)
    (hopen : ∀ a, g₀.action? id = some a → a.status.isConfirmed = false) :
    (e.finishAction g id).1.Aside k (e.finishAction g id).2 ∨
      g₀.statusAt k = some .pending ∧ (e.finishAction g id).1.statusAt k ≠ some .pending := by
  have hrelease := (e.release_advances g id).edits
  by_cases hid : g₀.slotOf? id = some k
  · obtain ⟨a, -, ha, -⟩ := Graph.exists_action_of_slotOf? hid
    have hslot : (e.release g id).1.slotOf? id = some k :=
      (Graph.slotOf?_eq_of_plan (Edits.plan (hedits.trans hrelease)) id).trans hid
    exact .inr ⟨h.pending_of_open ha hid (hopen a ha), Graph.statusAt_finish_ne_pending _ hslot⟩
  · refine .inl (h.edits hid (hedits.trans (hrelease.trans (Edits.finish _ rfl))) fun f hf => ?_)
    rw [fenceCalls_of_frame (frame_finishAction e g id)] at hf
    exact .inl (hcalls f hf)

theorem processResult_aside (h : g.Aside k e) (r : ActionResult) :
    (e.processResult g r).2.1.Aside k (e.processResult g r).2.2 ∨
      g.statusAt k = some .pending ∧ (e.processResult g r).2.1.statusAt k ≠ some .pending := by
  simp only [processResult]
  split
  · exact .inl h
  · rename_i key a haction
    split
    · exact .inl ⟨h.status, h.marks, h.calls⟩
    · rename_i hopen
      refine finishAction_aside h ?_ (fun _ hf => hf) fun b hb => ?_
      · split
        · exact failExecuted_edits g a.id _
        · exact .refl
      · have ha : g.action? a.id = some a := action?_of_resultAction haction
        obtain rfl : a = b := Option.some.inj (ha.symm.trans hb)
        exact Bool.eq_false_iff.mpr hopen

theorem actionTimedOut_aside (h : g.Aside k e) (id : ActionId) :
    (e.actionTimedOut c g id).2.1.Aside k (e.actionTimedOut c g id).2.2 ∨
      g.statusAt k = some .pending ∧ (e.actionTimedOut c g id).2.1.statusAt k ≠ some .pending := by
  simp only [actionTimedOut]
  split
  · exact .inl h
  · rename_i a ha
    split
    · exact .inl h
    · rename_i hopen
      refine finishAction_aside h (.head (.settle g (.failed .timedOut) rfl) ?_) ?_ fun b hb => ?_
      · split
        · exact (recordStatus_advances c e _ id _ _).edits
        · exact .refl
      · intro f hf
        split at hf
        · rwa [fenceCalls_of_frame (frame_recordStatus ..)] at hf
        · exact hf
      · obtain rfl : a = b := Option.some.inj (ha.symm.trans hb)
        exact Bool.eq_false_iff.mpr hopen

theorem nodeFenced_aside (h : g.Aside k e) {fence : FenceCall}
    (hfence : g.slotOf? fence.action ≠ some k) :
    (e.nodeFenced c g fence).1.Aside k (e.nodeFenced c g fence).2 := by
  refine h.edits hfence (nodeFenced_edits c e g fence) fun f hf => .inl ?_
  rwa [fenceCalls_of_frame (frame_nodeFenced ..)] at hf

theorem fencingFailed_aside (h : g.Aside k e) {fence : FenceCall}
    (hfence : g.slotOf? fence.action ≠ some k) :
    (e.fencingFailed g fence).1.Aside k (e.fencingFailed g fence).2 := by
  refine h.edits hfence (fencingFailed_edits e g fence) fun f hf => .inl ?_
  rwa [fenceCalls_of_frame (frame_fencingFailed ..)] at hf

/-- A request is taken off the list. -/
theorem erase_aside (h : g.Aside k e) (call : Nat) :
    g.Aside k ({ e with fenceCalls := e.fenceCalls.erase call } : Engine ε) :=
  ⟨h.status, h.marks, fun f hf => h.calls f (List.mem_filter.mp hf).1⟩

theorem fencingResult_aside (h : g.Aside k e) (call : Nat) (outcome : Except String Unit) :
    (e.fencingResult c g call outcome).2.1.Aside k (e.fencingResult c g call outcome).2.2 := by
  simp only [fencingResult]
  split
  · exact h
  · rename_i fence hget
    have hfence := h.calls (call, fence) (Table.get?_eq_some_iff.mp hget)
    have herased := erase_aside h call
    split
    · exact herased
    · split
      · exact nodeFenced_aside c herased hfence
      · exact fencingFailed_aside herased hfence

theorem completeFencing_aside {calls : List (Nat × FenceCall)} (h : g.Aside k e)
    (hcalls : ∀ f ∈ calls, g.slotOf? f.2.action ≠ some k) :
    (e.completeFencing c g calls).1.Aside k (e.completeFencing c g calls).2 := by
  induction calls generalizing e g with
  | nil => exact h
  | cons head rest ih =>
    have hfence := hcalls head (List.mem_cons_self ..)
    let erased : Engine ε := { e with fenceCalls := e.fenceCalls.erase head.1 }
    have hplan := (nodeFenced_edits c erased g head.2).plan
    refine ih (nodeFenced_aside c (erase_aside h head.1) hfence) fun f hf => ?_
    have hslot := Graph.slotOf?_eq_of_plan hplan f.2.action
    exact hslot ▸ hcalls f (List.mem_cons_of_mem _ hf)

end Engine

/-- A report says nothing of an action that was refused, and after a report about a pending one
that action is pending no longer. -/
theorem Move.aside_reported {ε : Type} (c : Cluster ε) {m : Move} (hm : m ≠ .pass) {k : Nat}
    {s : Graph × Engine ε} (h : s.1.Aside k s.2) :
    (m.make c s).1.Aside k (m.make c s).2 ∨
      s.1.statusAt k = some .pending ∧ (m.make c s).1.statusAt k ≠ some .pending := by
  cases m with
  | pass => exact absurd rfl hm
  | result r => exact Engine.processResult_aside h r
  | timeout id => exact Engine.actionTimedOut_aside c h id
  | fencing call outcome => exact .inl (Engine.fencingResult_aside c h call outcome)
  | nodeSafe target =>
    simp only [make, Engine.confirmNodeSafe]
    split
    · exact .inl ⟨h.status, h.marks, h.calls⟩
    · refine .inl (Engine.completeFencing_aside c ⟨h.status, h.marks, h.calls⟩ fun f hf => ?_)
      exact h.calls f (List.mem_filter.mp hf).1
  | abort => exact .inl ⟨h.status, h.marks, h.calls⟩

/-! ## A pass -/

/-- The action at `k` was set going or got a result, and the pass will not hand it over any more. -/
structure PassState.Over {σ : Type} (k : Nat) (x : PassState σ) : Prop where
  begun : x.graph.statusAt k ≠ some .pending
  unrefused : x.graph.statusAt k ≠ some (.failed .initiation)
  rest : k ∉ x.stage.rest
  owner : ∃ (p : Nat) (s : Synapse), x.graph.synapses[p]? = some s ∧ k ∈ s.actions ∧
    s.status.isExecuted

section Pass

variable {σ : Type} {d : Dispatcher σ} {k : Nat}

/-- A synapse that has fired has done so for good. -/
theorem SynapseStatus.Leads.isExecuted {s t : SynapseStatus} (h : s.Leads t)
    (hs : s.isExecuted) : t.isExecuted := by
  revert h hs
  cases s <;> cases t <;> decide

/-- What is done on behalf of the action at `slot` leaves the others alone. -/
theorem PassState.Orderly.statusAt_other {g g' : Graph} {st : σ} {stage : PassStage}
    (hx : PassState.Orderly ⟨stage, g, st⟩) {slot : Nat} {a : Action}
    (ha : g.actions[slot]? = some a) (hedits : Edits a.id (g.setStatusAt slot .executed) g')
    (hk : slot ≠ k) : g'.statusAt k = g.statusAt k := by
  obtain ⟨hslot, -⟩ := hx.wellFormed.action?_setStatusAt ha .executed
  rw [hedits.statusAt_other (by rw [hslot]; simpa using hk), Graph.statusAt_setStatusAt, if_neg hk]

theorem Graph.statusAt_failFiring {g : Graph} {pos slot : Nat} (hk : slot ≠ k) :
    (g.failFiring pos slot).statusAt k = g.statusAt k := by
  have hset := Graph.statusAt_setStatusAt g slot k (.failed .initiation)
  rwa [if_neg hk] at hset

/-- It does not matter which status the action had. -/
theorem Graph.failFiring_setStatusAt (g : Graph) (pos slot : Nat) (status : ActionStatus) :
    (g.setStatusAt slot status).failFiring pos slot = g.failFiring pos slot := by
  simp only [failFiring, setStatusAt, List.modify_modify_eq]
  rfl

/-- **What is over stays over.** -/
theorem PassState.Over.step (hd : d.Handles) {x y : PassState σ} (hx : x.Orderly) (hk : x.Over k)
    (h : PassStep d x y) : y.Over k := by
  have howner : ∃ (p : Nat) (s : Synapse), y.graph.synapses[p]? = some s ∧ k ∈ s.actions ∧
      s.status.isExecuted := by
    obtain ⟨p, s, hs, hmem, hfired⟩ := hk.owner
    obtain ⟨t, ht, hsame⟩ := Graph.synapse_of_plan (h.plan hd).symm hs
    obtain ⟨hp, rfl⟩ := List.getElem?_eq_some_iff.mp hs
    obtain ⟨hp', rfl⟩ := List.getElem?_eq_some_iff.mp ht
    have hleads := (List.forall₂_iff_get.mp (h.onward hd hx)).2 p hp hp'
    exact ⟨p, _, ht, Synapse.actions_eq_of_plan hsame ▸ hmem, hleads.isExecuted hfired⟩
  have hof {stage : PassStage} {g : Graph} {st : σ} (hsame : g.statusAt k = x.graph.statusAt k)
      (hrest : k ∉ stage.rest) (howner : ∃ (p : Nat) (s : Synapse), g.synapses[p]? = some s ∧
        k ∈ s.actions ∧ s.status.isExecuted) : PassState.Over k ⟨stage, g, st⟩ :=
    ⟨hsame ▸ hk.begun, hsame ▸ hk.unrefused, hrest, howner⟩
  have hrest := hk.rest
  cases h with
  | count | ready | skip | fired | conclude => exact hof rfl (by simp [PassStage.rest]) howner
  | @fire g st pos s hs hready hinputs hallowed =>
    refine hof rfl (fun hmem => ?_) howner
    obtain ⟨p, t, ht, hkt, hfired⟩ := hk.owner
    obtain rfl := hx.wellFormed.owner_unique ht hs hkt hmem
    obtain rfl : s = t := Option.some.inj (hs.symm.trans ht)
    rw [hready] at hfired
    cases hfired
  | @dispatch g g' st st' pos slot slots a channel ha hpending hchannel hgoes =>
    obtain ⟨hne, hrest⟩ : k ≠ slot ∧ k ∉ slots := by simpa [PassStage.rest] using hrest
    exact hof (hx.statusAt_other ha (hd.edits hgoes) (Ne.symm hne)) hrest howner
  | @refuse g g' st st' pos slot slots a channel ha hpending hchannel hstays =>
    obtain ⟨hne, -⟩ : k ≠ slot ∧ k ∉ slots := by simpa [PassStage.rest] using hrest
    have hsame := hx.statusAt_other ha (hd.edits hstays) (Ne.symm hne)
    exact hof ((Graph.statusAt_failFiring (Ne.symm hne)).trans hsame) (by simp [PassStage.rest])
      howner
  | @unroutable g st pos slot slots a ha hpending hchannel =>
    obtain ⟨hne, -⟩ : k ≠ slot ∧ k ∉ slots := by simpa [PassStage.rest] using hrest
    have hsame := hx.statusAt_other ha .refl (Ne.symm hne)
    exact hof ((Graph.statusAt_failFiring (Ne.symm hne)).trans hsame) (by simp [PassStage.rest])
      howner
  | @again g st pos slot slots hslot =>
    obtain ⟨hne, -⟩ : k ≠ slot ∧ k ∉ slots := by simpa [PassStage.rest] using hrest
    exact hof (Graph.statusAt_failFiring (Ne.symm hne)) (by simp [PassStage.rest]) howner

end Pass

namespace Graph.Aside

variable {ε : Type} {c : Cluster ε} {k : Nat} {g g' : Graph} {e e' : Engine ε}

theorem setSynapseStatus (h : g.Aside k e) (pos : Nat) (status : SynapseStatus) :
    (g.setSynapseStatus pos status).Aside k e := by
  refine h.of_eq (plan_setSynapseStatus ..) (fun s' hs' => ?_) rfl fun _ hf => hf
  obtain ⟨p, hp⟩ := List.getElem?_of_mem hs'
  obtain ⟨s, hs, ⟨rfl, rfl⟩ | ⟨-, rfl⟩⟩ := setSynapseStatus_cases hp
  · exact ⟨s, List.mem_of_getElem? hs, rfl⟩
  · exact ⟨s', List.mem_of_getElem? hs, rfl⟩

/-- That an action fails to be set going says nothing of it to the others. -/
theorem failFiring (h : g.Aside k e) (pos slot : Nat) : (g.failFiring pos slot).Aside k e := by
  have hset := h.setSynapseStatus pos .failed
  refine ⟨?_, hset.marks, fun f hf => ?_⟩
  · by_cases hk : slot = k
    · subst hk
      refine .inr ?_
      have hat := statusAt_setStatusAt g slot slot (.failed .initiation)
      rw [if_pos rfl] at hat
      refine hat.trans ?_
      rcases h.status with hold | hold <;> rw [hold] <;> rfl
    · rw [statusAt_failFiring hk]
      exact h.status
  · rw [slotOf?_eq_of_plan (plan_failFiring g pos slot)]
    exact h.calls f hf

/-- What is done on behalf of another action. -/
theorem handed (h : g.Aside k e) {slot : Nat} {a : Action} (hw : g.WellFormed)
    (ha : g.actions[slot]? = some a) (hk : slot ≠ k) {channel : Channel} {ok : Bool}
    (hgoes : (Engine.dispatcher c).dispatch channel a.id (g.setStatusAt slot .executed) e =
      (ok, g', e')) : g'.Aside k e' := by
  have hmark : (g.setStatusAt slot .executed).Aside k e :=
    h.of_eq (plan_setStatusAt ..) (fun s hs => ⟨s, hs, rfl⟩)
      (by rw [statusAt_setStatusAt, if_neg hk]) fun _ hf => hf
  obtain ⟨hslot, -⟩ := hw.action?_setStatusAt ha .executed
  have hframe := Engine.dispatch_frame c channel a.id (g.setStatusAt slot .executed) e
  rw [hgoes] at hframe
  refine hmark.edits (by rw [hslot]; simpa using hk) ((Engine.dispatcher_handles c).edits hgoes)
    fun f hf => ?_
  rcases hframe with hframe | ⟨call, fence, hid, hframe⟩
  · rw [Engine.fenceCalls_of_frame hframe] at hf
    exact .inl hf
  · have hcalls : e'.fenceCalls = e.fenceCalls.insert call fence := congrArg Prod.snd hframe
    rw [hcalls] at hf
    rcases Table.key_of_mem_put hf with rfl | hf
    · exact .inr hid
    · exact .inl hf

end Graph.Aside

section Pass

variable {ε : Type} {c : Cluster ε} {k : Nat}

/-- **In a step of a pass nothing is heard of an action**, unless it is set going. -/
theorem PassStep.aside {x y : PassState (Engine ε)} (hx : x.Orderly)
    (h : PassStep (Engine.dispatcher c) x y) (hk : x.graph.Aside k x.state) :
    y.graph.Aside k y.state ∨ y.Over k := by
  cases h with
  | count | fired | conclude => exact .inl ⟨hk.status, hk.marks, hk.calls⟩
  | ready | skip => exact .inl (hk.setSynapseStatus _ _)
  | @fire g st pos s =>
    have hfires := hk.setSynapseStatus pos .executing
    exact .inl ⟨hfires.status, hfires.marks, hfires.calls⟩
  | unroutable | again =>
    exact .inl (by simpa only [Graph.failFiring_setStatusAt] using hk.failFiring _ _)
  | @refuse g g' e e' pos slot slots a channel ha hpending hchannel hstays =>
    obtain ⟨-, hfind⟩ := hx.wellFormed.action?_setStatusAt ha .executed
    have hout := Engine.dispatch_outcome c (a := { a with status := .executed }) e hfind channel
    dsimp only at hout
    rw [hstays] at hout
    cases hout with
    | refused =>
      rw [Graph.failFiring_setStatusAt]
      have hfails := hk.failFiring pos slot
      exact .inl ⟨hfails.status, hfails.marks, hfails.calls⟩
  | @dispatch g g' e e' pos slot slots a channel ha hpending hchannel hgoes =>
    by_cases hslot : slot = k
    · subst hslot
      have hadvances := Engine.dispatcher_advances c channel a.id (g.setStatusAt slot .executed) e
      rw [hgoes] at hadvances
      have hmark : (g.setStatusAt slot .executed).statusAt slot = some .executed := by
        rw [Graph.statusAt_setStatusAt, if_pos rfl, Graph.statusAt_eq ha]
        rfl
      have hnext := hx.handed hadvances.edits e'
      obtain ⟨hnodup, -, s, hs, hfired, hsub⟩ := hx.firing pos _ rfl
      refine .inr ⟨fun hpending' => ?_, fun hfailed => ?_, (List.nodup_cons.mp hnodup).1, ?_⟩
      · have hold := Graph.pending_of_edits hadvances.edits hpending'
        rw [hmark] at hold
        cases hold
      · have hold := Graph.failed_of_advances hadvances hfailed
        rw [hmark] at hold
        cases hold
      · have hplan := hadvances.edits.plan.trans (Graph.plan_setStatusAt ..)
        obtain ⟨s', hs', hsame⟩ := Graph.synapse_of_plan hplan.symm hs
        obtain ⟨-, -, t, ht, hfired', -⟩ := hnext.firing pos _ rfl
        obtain rfl : s' = t := Option.some.inj (hs'.symm.trans ht)
        exact ⟨pos, s', hs', Synapse.actions_eq_of_plan hsame ▸ hsub (List.mem_cons_self ..),
          hfired'⟩
    · exact .inl (hk.handed hx.wellFormed ha hslot hgoes)

end Pass

/-! ## A run -/

namespace Move

variable {ε : Type} {c : Cluster ε} {k : Nat} {s : Graph × Engine ε}

/-- **In a move nothing is heard of an action**, unless it was pending, and then it is not
refused. -/
theorem aside (c : Cluster ε) (m : Move) (hs : s.1.Membership) (h : s.1.Aside k s.2) :
    (m.make c s).1.Aside k (m.make c s).2 ∨
      s.1.statusAt k = some .pending ∧ (m.make c s).1.statusAt k ≠ some .pending ∧
        (m = pass → (m.make c s).1.statusAt k ≠ some (.failed .initiation)) := by
  by_cases hm : m = .pass
  · subst hm
    have hend := Graph.run_induction (Engine.dispatcher_steady c)
      (P := fun x => x.Orderly ∧ (x.graph.Aside k x.state ∨ x.Over k))
      (fun _ _ hstep ⟨hx, hk⟩ => ⟨hx.step (Engine.dispatcher_handles c) hstep, hk.elim
        (hstep.aside hx) fun hover => .inr (hover.step (Engine.dispatcher_handles c) hx hstep)⟩)
      s.1 s.2 ⟨(hs.start s.2).orderly, .inl h⟩
    refine hend.2.imp_right fun hover => ⟨?_, hover.begun, fun _ => hover.unrefused⟩
    exact h.status.resolve_right fun hk => hover.unrefused (pass.keeps_initiation c hk)
  · refine (Move.aside_reported c hm h).imp_right fun ⟨hpending, hbegun⟩ => ⟨hpending, hbegun, ?_⟩
    exact fun heq => absurd heq hm

/-- Nothing was heard in a run of the actions that are pending, nor of those that the run could not
set going. -/
theorem aside_makeAll (moves : List Move) (hs : s.1.Membership)
    (h : ∀ k, s.1.statusAt k = some .pending → s.1.Aside k s.2) :
    ∀ k, (makeAll c moves s).1.statusAt k = some .pending ∨ Refuses c moves s k →
      (makeAll c moves s).1.Aside k (makeAll c moves s).2 := by
  induction moves using List.reverseRecOn with
  | nil =>
    rintro k (hk | ⟨earlier, later, hnil, -⟩)
    · exact h k hk
    · simp at hnil
  | append_singleton moves m ih =>
    intro k hk
    have hmembers := makeAll_induction (P := fun s' => s'.1.Membership) c
      (fun m _ hs => m.membership c hs) moves hs
    have hmake : makeAll c (moves ++ [m]) s = m.make c (makeAll c moves s) :=
      makeAll_append c moves [m] s
    rw [hmake] at hk ⊢
    rcases hk with hk | ⟨earlier, later, hsplit, hrefused⟩
    · have hbefore := ih k (.inl (m.pending_of_make c hk))
      exact (m.aside c hmembers hbefore).resolve_right fun ⟨_, hbegun, _⟩ => hbegun hk
    · rcases append_singleton_eq_append_cons_iff.mp hsplit with
        ⟨rfl, rfl, rfl⟩ | ⟨rest, rfl, hearlier⟩
      · -- it is the last move that refuses the action
        rw [hmake] at hrefused
        have hbefore := ih k (.inl hrefused.before)
        exact (pass.aside c hmembers hbefore).resolve_right
          fun ⟨_, _, hunrefused⟩ => hunrefused rfl hrefused.after
      · have hrefuses : Refuses c moves s k := ⟨earlier, rest, hearlier, hrefused⟩
        refine (m.aside c hmembers (ih k (.inr hrefuses))).resolve_right fun ⟨hpending, _⟩ => ?_
        rw [hrefuses.statusAt] at hpending
        cases hpending

end Move

/-- At the start nothing was heard of any action. -/
theorem Graph.Fresh.aside {ε : Type} {g : Graph} (h : g.Fresh) {e : Engine ε}
    (he : e.fenceCalls = .empty) {k : Nat} (hk : g.statusAt k = some .pending) : g.Aside k e where
  status := .inl hk
  marks s hs i hi _ := h.inputs s hs i hi
  calls f hf := by
    rw [he] at hf
    cases hf

/-- **A completion is lost exactly if the action could not be set going.**  In every run on a graph
of the loader, take a synapse that has not fired and an input of it whose action has a result that
satisfies the synapse.  If the input is not marked, then a pass of the run found the action pending
and could not set it going; if the cluster accepts requests, because the action lacks something.
And if the engine had no fencing request outstanding at the start, the completions of such actions
are all lost. -/
theorem lost_iff_refused {d : GraphDocument} {g : Graph} (h : d.toGraph = .ok g) {ε : Type}
    (c : Cluster ε) (e : Engine ε) (moves : List Move) {g' : Graph} {e' : Engine ε}
    (hrun : Move.makeAll c moves (g, e) = (g', e')) :
    ∀ s ∈ g'.synapses, s.status = .unfired ∨ s.status = .ready → ∀ i ∈ s.inputs, ∀ a,
      g'.actions[i.slot]? = some a → a.status.isConfirmed →
      a.status.isFailed = false ∨ a.canFail ∨ s.priority = infinity →
      (i.satisfied = false → Move.Refuses c moves (g, e) i.slot ∧
        a.status = .failed .initiation ∧ (c.Accepts → a.dispatchable = false)) ∧
      (e.fenceCalls = .empty → Move.Refuses c moves (g, e) i.slot → i.satisfied = false) := by
  have hloaded := GraphDocument.loadedAs_of_toGraph h
  have hmembers := Graph.Membership.of_fresh hloaded.wellFormed hloaded.fresh
  intro s hs hwaits i hi a ha hknown haccepts
  refine ⟨fun hunmarked => ?_, fun he hrefuses => ?_⟩
  · have harrived := Move.arrived_makeAll (s := (g, e)) c moves hmembers (.of_fresh hloaded.fresh)
    rw [hrun] at harrived
    have haccepted : s.accepts a := by
      simpa [Synapse.accepts, or_assoc] using haccepts
    obtain ⟨hrefuses, hwhy⟩ := (harrived s hs hwaits i hi a ha hknown haccepted).resolve_left
      (by simp [hunmarked])
    refine ⟨hrefuses, ?_, fun hc => ?_⟩
    · have hstatus := hrefuses.statusAt
      rw [hrun, Graph.statusAt_eq ha, Option.some.injEq] at hstatus
      exact hstatus
    · have hplan := Move.plan_makeAll c moves (g, e)
      rw [hrun] at hplan
      exact (hwhy hc).of_plan hplan a ha
  · have haside := Move.aside_makeAll (c := c) (s := (g, e)) moves hmembers
      (fun k hk => hloaded.fresh.aside he hk) i.slot (.inr hrefuses)
    rw [hrun] at haside
    exact haside.marks s hs i hi rfl

/-- In every run of a new engine on the graph of the document, a synapse that has not fired has each
input marked whose action has a result that satisfies it. -/
def GraphDocument.MarksKeepUp (d : GraphDocument) : Prop :=
  ∀ g, d.toGraph = .ok g → ∀ (ε : Type) (c : Cluster ε) (config : EngineConfig) (env : ε)
    (uuid : String) (moves : List Move), ∀ out : Graph × Engine ε,
    Move.makeAll c moves (g, (Engine.new config env uuid).startTransition) = out →
    ∀ s ∈ out.1.synapses, s.status = .unfired ∨ s.status = .ready → ∀ i ∈ s.inputs, ∀ a,
      out.1.actions[i.slot]? = some a → a.status.isConfirmed →
      a.status.isFailed = false ∨ a.canFail ∨ s.priority = infinity → i.satisfied = true

/-- A marker that waits for a start, which may fail. -/
def GraphDocument.toleratedStart : GraphDocument where
  transitionId := 1
  synapses :=
    [{ id := 0
       actions := [{ id := 2, kind := .pseudo }]
       inputs := [1] },
     { id := 1
       actions :=
         [{ id := 1, kind := .resource, task := some "start", target := some "node1"
            canFail := true }] }]

/-- The start cannot be sent, and the marker is not told of its failure. -/
theorem toleratedStart_refused : ∃ g, GraphDocument.toleratedStart.toGraph = .ok g ∧
    let start := (g, (Engine.new { node := "node1" } 0).startTransition)
    let out := Move.makeAll (.cutOff "node1") [.pass] start
    Move.Refuses (.cutOff "node1") [.pass] start 1 ∧
      ∀ s ∈ out.1.synapses, ∀ i ∈ s.inputs, i.satisfied = false := by
  have hfacts : ∀ g, GraphDocument.toleratedStart.toGraph = .ok g →
      let out := Move.makeAll (.cutOff "node1") [.pass]
        (g, (Engine.new { node := "node1" } 0).startTransition)
      (g.statusAt 1 = some .pending ∧ out.1.statusAt 1 = some (.failed .initiation)) ∧
        ∀ s ∈ out.1.synapses, ∀ i ∈ s.inputs, (s.status = .unfired ∨ s.status = .ready) ∧
          i.slot = 1 ∧ ∀ a ∈ out.1.actions[1]?, a.status.isConfirmed ∧ a.canFail := by
    rintro _ ⟨⟩
    decide +kernel
  obtain ⟨g, hg⟩ : ∃ g, GraphDocument.toleratedStart.toGraph = .ok g := ⟨_, rfl⟩
  obtain ⟨⟨hbefore, hafter⟩, hinputs⟩ := hfacts g hg
  have hrefuses : Move.Refuses (.cutOff "node1") [.pass]
      (g, (Engine.new { node := "node1" } 0).startTransition) 1 := ⟨[], [], rfl, hbefore, hafter⟩
  refine ⟨g, hg, hrefuses, fun s hs i hi => ?_⟩
  obtain ⟨hwaits, hslot, haction⟩ := hinputs s hs i hi
  obtain ⟨a, ha, -⟩ := Option.map_eq_some_iff.mp hafter
  obtain ⟨hknown, hcanFail⟩ := haction a ha
  have hpair (p : Graph × Engine Nat) : p = (p.1, p.2) := rfl
  have hlost := lost_iff_refused hg (.cutOff "node1")
    (Engine.new { node := "node1" } 0).startTransition [.pass] (hpair _) s hs hwaits i hi a
    (hslot ▸ ha) hknown (.inr (.inl hcanFail))
  exact hlost.2 rfl (hslot ▸ hrefuses)

/-- The marker waits for a start that has failed and may fail, and its input is not marked. -/
theorem toleratedStart_lost : (∃ g, GraphDocument.toleratedStart.toGraph = .ok g ∧
      let out := Move.makeAll (.cutOff "node1") [.pass]
        (g, (Engine.new { node := "node1" } 0).startTransition)
      out.1.complete = true ∧
        out.1.synapses.map (fun s => (s.status, s.inputs)) =
          [(.unfired, [⟨1, false⟩]), (.failed, [])] ∧
        out.1.actions.map (fun a => (a.id, a.status, a.canFail)) =
          [(2, .pending, false), (1, .failed .initiation, true)]) ∧
    ¬ GraphDocument.toleratedStart.MarksKeepUp := by
  have hfacts : ∀ g, GraphDocument.toleratedStart.toGraph = .ok g →
      let out := Move.makeAll (.cutOff "node1") [.pass]
        (g, (Engine.new { node := "node1" } 0).startTransition)
      (out.1.complete = true ∧
        out.1.synapses.map (fun s => (s.status, s.inputs)) =
          [(.unfired, [⟨1, false⟩]), (.failed, [])] ∧
        out.1.actions.map (fun a => (a.id, a.status, a.canFail)) =
          [(2, .pending, false), (1, .failed .initiation, true)]) ∧
      ∃ s ∈ out.1.synapses, s.status = .unfired ∧ ∃ i ∈ s.inputs, i.satisfied = false ∧
        ∃ a ∈ out.1.actions[i.slot]?, a.status.isConfirmed ∧ a.canFail := by
    rintro _ ⟨⟩
    decide +kernel
  obtain ⟨g, hg⟩ : ∃ g, GraphDocument.toleratedStart.toGraph = .ok g := ⟨_, rfl⟩
  obtain ⟨hrun, s, hs, hunfired, i, hi, hunmarked, a, ha, hknown, hcanFail⟩ := hfacts g hg
  refine ⟨⟨g, hg, hrun⟩, fun hkeep => ?_⟩
  have hmark := hkeep g hg Nat (.cutOff "node1") { node := "node1" } 0 _ [.pass] _ rfl s hs
    (.inl hunfired) i hi a ha hknown (.inr (.inl hcanFail))
  rw [hunmarked] at hmark
  cases hmark

end ClusterTransition
