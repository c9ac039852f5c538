import ClusterTransition.Proofs.Document.Executable
import ClusterTransition.Proofs.Engine.Accounting
import ClusterTransition.Proofs.Graph.Course
import ClusterTransition.Proofs.Timers

/-! # Runs on their course

A run in which every report is a success, and nobody aborts, keeps the graph on its course, if the
cluster accepts requests and every action says all that it takes to carry it out
(`Move.Faithful.progressing`).  Inside a pass no action is refused then, and none is handed over a
second time, so that of the steps of a pass only those are left in which nothing fails
(`PassState.OnCourse.step`).

A success may be reported for an action that was handed over, and for no other.  The engine keeps to
this by itself with fencing: the requests that are outstanding are for such actions.
-/

namespace ClusterTransition

open ClusterTransition.Graph (Advances Begun)

/-! ## A pass -/

/-- Every outstanding fencing request is for an action that was handed over. -/
def Engine.CallsBegun {ε : Type} (e : Engine ε) (g : Graph) : Prop :=
  ∀ f ∈ e.fenceCalls.entries, g.Begun f.2.action

/-- Where a pass stands when nothing has failed: the actions that are still to be handed over are
pending. -/
structure PassState.OnCourse {ε : Type} (x : PassState (Engine ε)) : Prop where
  accounts : x.Exact
  course : x.graph.OnCourse
  capable : x.graph.Capable
  pending : ∀ k ∈ x.stage.rest, x.graph.statusAt k = some .pending
  calls : x.state.CallsBegun x.graph

/-- What a dispatch adds to the outstanding requests is for its own action. -/
theorem Engine.CallsBegun.dispatch {ε : Type} {c : Cluster ε} {e e' : Engine ε} {g g' : Graph}
    {channel : Channel} {id : ActionId} {ok : Bool} (h : e.CallsBegun g) (hbegun : g.Begun id)
    (hgoes : (dispatcher c).dispatch channel id g e = (ok, g', e')) : e'.CallsBegun g' := by
  have hedits := (dispatcher_handles c).edits hgoes
  have hframe := dispatch_frame c channel id g e
  rw [hgoes] at hframe
  intro f hf
  rcases hframe with hframe | ⟨call, fence, hid, hframe⟩
  · rw [fenceCalls_of_frame hframe] at hf
    exact (h f hf).edits hedits
  · have hcalls : e'.fenceCalls = e.fenceCalls.insert call fence := congrArg Prod.snd hframe
    rw [hcalls] at hf
    rcases Table.key_of_mem_put hf with rfl | hf
    · exact (hid ▸ hbegun).edits hedits
    · exact (h f hf).edits hedits

section Pass

variable {ε : Type} {c : Cluster ε}

/-- **Every step of a pass keeps the course**, and none of them is a failure. -/
theorem PassState.OnCourse.step (hc : c.Accepts) {x y : PassState (Engine ε)} (hx : x.OnCourse)
    (h : PassStep (Engine.dispatcher c) x y) : y.OnCourse := by
  have hplan := h.plan (Engine.dispatcher_handles c)
  have hw := hx.accounts.orderly.wellFormed
  have hacc := hx.accounts.accounted
  have hacts := hx.accounts.step c h
  have hcapable := hx.capable.of_plan hplan
  cases h with
  | count | fired | conclude =>
    exact ⟨hacts, hx.course.of_eq rfl rfl fun _ => rfl, hcapable, by simp [PassStage.rest],
      hx.calls⟩
  | ready st hs hwaits hinputs =>
    exact ⟨hacts, hx.course.setSynapseStatus hs hwaits (.inl rfl), hcapable,
      by simp [PassStage.rest], hx.calls⟩
  | skip st hs hready hslot ha hpseudo hlevel =>
    have hpriority := hx.capable.priority _ (List.mem_of_getElem? hs)
    have hzero := hx.course.level
    dsimp only at hzero
    omega
  | @fire g st pos s hs hready hinputs hallowed =>
    have hcourse := hx.course.setSynapseStatus hs (.inr hready) (.inr rfl)
    have hs' := hx.course.synapses s (List.mem_of_getElem? hs)
    exact ⟨hacts, hcourse.of_eq rfl rfl fun _ => rfl, hcapable, (hs'.of_waits (.inr hready)).1,
      hx.calls⟩
  | @dispatch g g' e e' pos slot slots a channel ha hpending hchannel hgoes =>
    obtain ⟨-, -, s, hs, hfired, hsub⟩ := hx.accounts.orderly.firing pos _ rfl
    have hslot := hsub (List.mem_cons_self ..)
    have hstatus : g.statusAt slot = some .pending := hpending ▸ Graph.statusAt_eq ha
    have hadvances := Engine.dispatcher_advances c channel a.id (g.setStatusAt slot .executed) e
    rw [hgoes] at hadvances
    have hw' := hw.of_plan (Graph.plan_setStatusAt g slot .executed)
    -- the action is marked before it is handed over
    obtain ⟨-, hget, hfind, -⟩ := hacc.mark hw ha hpending
    have hbegun : (g.setStatusAt slot .executed).Begun a.id :=
      .of_slot hfind (by simp [Graph.statusAt_eq hget])
    have hmark := hx.course.mark hw hs hfired hslot hstatus
    have hcalls : e.CallsBegun (g.setStatusAt slot .executed) := fun f hf =>
      (hx.calls f hf).setStatusAt (by simp)
    refine ⟨hacts, hmark.advances hw' hbegun hadvances, hcapable, fun k hk => ?_,
      hcalls.dispatch hbegun hgoes⟩
    rw [hx.accounts.orderly.statusAt_rest ha hadvances.edits hk]
    exact hx.pending k (List.mem_cons_of_mem _ hk)
  | @refuse g g' e e' pos slot slots a channel ha hpending hchannel hstays =>
    obtain ⟨-, hget, hfind, -⟩ := hacc.mark hw ha hpending
    have hdispatch := (Engine.dispatch_iff c hc e (a := { a with status := .executed })
      ((Graph.action?_eq_getElem? hfind).trans hget) hchannel).mpr
      (hx.capable.dispatchable a (List.mem_of_getElem? ha))
    dsimp only at hdispatch
    rw [hstays] at hdispatch
    cases hdispatch
  | unroutable st pos slots ha hpending hchannel =>
    have hdispatch := hx.capable.dispatchable _ (List.mem_of_getElem? ha)
    simp [Action.dispatchable, hchannel] at hdispatch
  | again st pos slots hslot =>
    have hstatus := hx.pending _ (List.mem_cons_self ..)
    obtain ⟨a, ha, hpending⟩ := Option.map_eq_some_iff.mp hstatus
    have hexec := hslot a ha
    rw [hpending] at hexec
    cases hexec

end Pass

/-! ## Reports -/

/-- The move is a pass, or the report of a success: the result of an action that was handed over,
with the status and the exit code that are expected and under a key that states no other exit code,
the success of a fencing request, or an administrator's word that a node is safe. -/
inductive Move.Faithful {ε : Type} (s : Graph × Engine ε) : Move → Prop where
  | pass : Faithful s .pass
  | result {r : ActionResult} {key : TransitionKey} {a : Action}
      (hkey : TransitionKey.decode r.transitionKey = .ok key)
      (ha : s.1.action? key.action = some a) (hbegun : a.status ≠ .pending)
      (hstated : 0 ≤ key.targetRc → key.targetRc = a.targetRc)
      (hstatus : r.status = .done) (hrc : r.rc = a.targetRc) : Faithful s (.result r)
  | fenced (call : Nat) : Faithful s (.fencing call (.ok ()))
  | nodeSafe (target : String) : Faithful s (.nodeSafe target)

/-- Every move of the run is a pass or the report of a success. -/
def Move.AllFaithful {ε : Type} (c : Cluster ε) : List Move → Graph × Engine ε → Prop
  | [], _ => True
  | m :: moves, s => m.Faithful s ∧ AllFaithful c moves (m.make c s)

/-- What every faithful move keeps, every faithful run keeps. -/
theorem Move.AllFaithful.induction {ε : Type} {c : Cluster ε} {P : Graph × Engine ε → Prop}
    (hmove : ∀ (m : Move) s, m.Faithful s → P s → P (m.make c s)) {moves : List Move}
    {s : Graph × Engine ε} (h : AllFaithful c moves s) (hs : P s) : P (makeAll c moves s) := by
  induction moves generalizing s with
  | nil => exact hs
  | cons m moves ih => exact ih h.2 (hmove m s h.1 hs)

/-- What the reports of successes do to a graph: advances on behalf of actions that were handed
over. -/
abbrev Graph.Advanced : Graph → Graph → Prop :=
  Relation.ReflTransGen fun g g' => ∃ id, g.Begun id ∧ Advances id g g'

namespace Graph

variable {g g' : Graph}

theorem Advanced.plan (h : Advanced g g') : g'.plan = g.plan := by
  induction h with
  | refl => rfl
  | tail _ step ih =>
    obtain ⟨id, -, hadvances⟩ := step
    exact hadvances.edits.plan.trans ih

theorem Advanced.begun (h : Advanced g g') {id : ActionId} (hid : g.Begun id) : g'.Begun id := by
  induction h with
  | refl => exact hid
  | tail _ step ih =>
    obtain ⟨id', -, hadvances⟩ := step
    exact ih.edits hadvances.edits

theorem OnCourse.advanced (hg : g.OnCourse) (hw : g.WellFormed) (h : Advanced g g') :
    g'.OnCourse := by
  induction h with
  | refl => exact hg
  | tail steps step ih =>
    obtain ⟨id, hbegun, hadvances⟩ := step
    exact ih.advances (hw.of_plan (Advanced.plan steps)) hbegun hadvances

end Graph

namespace Engine

variable {ε : Type} {c : Cluster ε} {e : Engine ε} {g : Graph}

/-- Erasing a request leaves the others. -/
theorem CallsBegun.erase (h : e.CallsBegun g) (call : Nat) :
    ({ e with fenceCalls := e.fenceCalls.erase call } : Engine ε).CallsBegun g :=
  fun f hf => h f (List.mem_filter.mp hf).1

/-- A request that is found is among the outstanding ones. -/
theorem CallsBegun.get? (h : e.CallsBegun g) {call : Nat} {fence : FenceCall}
    (hfence : e.fenceCalls.get? call = some fence) : g.Begun fence.action :=
  h (call, fence) (Table.get?_eq_some_iff.mp hfence)

theorem nodeFenced_advanced {fence : FenceCall} (hbegun : g.Begun fence.action)
    (h : e.CallsBegun g) :
    Graph.Advanced g (e.nodeFenced c g fence).1 ∧
      (e.nodeFenced c g fence).2.CallsBegun (e.nodeFenced c g fence).1 := by
  have hadvances : Advances fence.action g (e.nodeFenced c g fence).1 :=
    finishAction_advances _ g fence.action
  refine ⟨.single ⟨fence.action, hbegun, hadvances⟩, fun f hf => ?_⟩
  rw [fenceCalls_of_frame (frame_nodeFenced c e g fence)] at hf
  exact (h f hf).edits hadvances.edits

theorem completeFencing_advanced {calls : List (Nat × FenceCall)}
    (hcalls : ∀ f ∈ calls, g.Begun f.2.action) (h : e.CallsBegun g) :
    Graph.Advanced g (e.completeFencing c g calls).1 ∧
      (e.completeFencing c g calls).2.CallsBegun (e.completeFencing c g calls).1 := by
  induction calls generalizing e g with
  | nil => exact ⟨.refl, h⟩
  | cons head rest ih =>
    obtain ⟨hadvanced, hbegun⟩ := nodeFenced_advanced (c := c)
      (hcalls head (List.mem_cons_self ..)) (h.erase head.1)
    obtain ⟨hadvanced', hbegun'⟩ := ih
      (fun f hf => hadvanced.begun (hcalls f (List.mem_cons_of_mem _ hf))) hbegun
    exact ⟨hadvanced.trans hadvanced', hbegun'⟩

/-- The report of a success of an action completes it. -/
theorem processResult_advanced {r : ActionResult} (hr : (Move.result r).Faithful (g, e))
    (h : e.CallsBegun g) :
    Graph.Advanced g (e.processResult g r).2.1 ∧
      (e.processResult g r).2.2.CallsBegun (e.processResult g r).2.1 := by
  cases hr with
  | @result _ key a hkey ha hbegun hstated hstatus hrc =>
    obtain ⟨k, hk, hget, hid⟩ := Graph.exists_slot_of_action? ha
    have hbegun' : g.Begun a.id := by
      rw [hid]
      exact .of_slot hk (by simpa [Graph.statusAt, hget] using hbegun)
    have hexpected : resultFailed a key r = false := by
      simp only [resultFailed, hstatus, hrc]
      split
      · rename_i hnonneg
        simp [hstated hnonneg]
      · simp
    -- a report for another engine or another transition changes nothing
    have hfound : e.resultAction g r = .ok (key, a) ∨ ∃ err, e.resultAction g r = .error err := by
      simp only [resultAction, hkey, ha]
      split
      · exact .inr ⟨_, rfl⟩
      · split
        · exact .inr ⟨_, rfl⟩
        · exact .inl rfl
    rcases hfound with hfound | ⟨err, hfound⟩
    · simp only [processResult, hfound, hexpected]
      split
      · exact ⟨.refl, h⟩
      · let quiet : Engine ε := { e with timers := e.timers.cancel a.id }
        have hadvances := finishAction_advances quiet g a.id
        refine ⟨.single ⟨a.id, hbegun', hadvances⟩, fun f hf => ?_⟩
        have hcalls := fenceCalls_of_frame (frame_finishAction quiet g a.id)
        have hf' : f ∈ quiet.fenceCalls.entries := hcalls ▸ hf
        exact (h f hf').edits hadvances.edits
    · simp only [processResult, hfound]
      exact ⟨.refl, h⟩

/-- The success of a fencing request completes its action. -/
theorem fencingResult_advanced (h : e.CallsBegun g) (call : Nat) :
    Graph.Advanced g (e.fencingResult c g call (.ok ())).2.1 ∧
      (e.fencingResult c g call (.ok ())).2.2.CallsBegun
        (e.fencingResult c g call (.ok ())).2.1 := by
  simp only [fencingResult]
  split
  · exact ⟨.refl, h⟩
  · rename_i fence hfence
    split
    · exact ⟨.refl, h.erase call⟩
    · exact nodeFenced_advanced (h.get? hfence) (h.erase call)

/-- That a node is safe completes the requests for it. -/
theorem confirmNodeSafe_advanced (h : e.CallsBegun g) (target : String) :
    Graph.Advanced g (e.confirmNodeSafe c g target).2.1 ∧
      (e.confirmNodeSafe c g target).2.2.CallsBegun (e.confirmNodeSafe c g target).2.1 := by
  simp only [confirmNodeSafe]
  split
  · exact ⟨.refl, h⟩
  · exact completeFencing_advanced (fun f hf => h f (List.mem_filter.mp hf).1) h

end Engine

/-! ## Moves -/

/-- A graph and its engine between the moves of a run in which nothing has failed. -/
structure Graph.Progressing {ε : Type} (s : Graph × Engine ε) : Prop where
  settled : s.1.Settled s.2.ledger
  course : s.1.OnCourse
  capable : s.1.Capable
  calls : s.2.CallsBegun s.1

namespace Graph

/-- A fresh graph is on its course. -/
theorem Fresh.onCourse {g : Graph} (h : g.Fresh) (hw : g.WellFormed) : g.OnCourse := by
  have hpending {k : Nat} {status : ActionStatus} (hk : g.statusAt k = some status) :
      status = .pending := by
    obtain ⟨a, ha, rfl⟩ := Option.map_eq_some_iff.mp hk
    exact (h.actions a (List.mem_of_getElem? ha)).1
  refine ⟨h.level, fun k reason hk => ?_, fun s hs => ?_⟩
  · cases hpending hk
  · refine .waiting (.inl (h.synapses s hs)) (fun k hk => ?_) fun i _ hk => ?_
    · obtain ⟨a, ha⟩ : ∃ a, g.actions[k]? = some a :=
        ⟨_, List.getElem?_eq_getElem (hw.slot_lt hs hk)⟩
      have hstatus := statusAt_eq ha
      rw [hstatus, hpending hstatus]
    · cases hpending hk

end Graph

/-- Between two moves a pass may begin. -/
theorem Graph.Progressing.start {ε : Type} {g : Graph} {e : Engine ε} (h : Progressing (g, e)) :
    PassState.OnCourse ⟨.visiting, g, e⟩ where
  accounts := ⟨⟨h.settled.wellFormed, h.settled.untouched, by simp⟩, h.settled.accounted⟩
  course := h.course
  capable := h.capable
  pending := by simp [PassStage.rest]
  calls := h.calls

/-- A report of a success advances actions that were handed over. -/
theorem Move.Faithful.advanced {ε : Type} (c : Cluster ε) {m : Move} {s : Graph × Engine ε}
    (hm : m.Faithful s) (hpass : m ≠ .pass) (h : s.2.CallsBegun s.1) :
    Graph.Advanced s.1 (m.make c s).1 ∧ (m.make c s).2.CallsBegun (m.make c s).1 := by
  have hfaithful := hm
  cases hm with
  | pass => exact absurd rfl hpass
  | result => exact Engine.processResult_advanced hfaithful h
  | fenced call => exact Engine.fencingResult_advanced h call
  | nodeSafe target => exact Engine.confirmNodeSafe_advanced h target

/-- **Every faithful move keeps the course.** -/
theorem Move.Faithful.progressing {ε : Type} {c : Cluster ε} (hc : c.Accepts) {m : Move}
    {s : Graph × Engine ε} (hm : m.Faithful s) (h : Graph.Progressing s) :
    Graph.Progressing (m.make c s) := by
  have hsettled := m.settled c h.settled
  have hcapable := h.capable.of_plan (m.plan c s)
  by_cases hpass : m = .pass
  · subst hpass
    have hend := Graph.run_induction (Engine.dispatcher_steady c)
      (fun _ _ hstep hx => PassState.OnCourse.step hc hx hstep) s.1 s.2 h.start
    exact ⟨hsettled, hend.course, hcapable, hend.calls⟩
  · obtain ⟨hadvanced, hcalls⟩ := hm.advanced c hpass h.calls
    exact ⟨hsettled, h.course.advanced h.settled.wellFormed hadvanced, hcapable, hcalls⟩

end ClusterTransition
