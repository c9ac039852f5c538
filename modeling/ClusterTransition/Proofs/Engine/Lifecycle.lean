import ClusterTransition.Proofs.Engine.Once
import ClusterTransition.Proofs.Engine.Progress
import ClusterTransition.Proofs.Engine.Refusals
import ClusterTransition.Proofs.Pass.Lives

/-! # Results that come too early

Reports are taken in without a look at whether the action was handed over.  One that comes too early
settles a pending action; and when the synapse of that action fires later, the pass comes upon an
action that it must not hand over, and overwrites the result with a failure to initiate it.

`lives_iff_timely` says that nothing else disturbs the life of an action: a run takes every action
from pending to executed and from there to its result, for good, exactly if each report of the run
is about an action that was handed over before.  The outcomes of fencing requests always are, since
the engine knows which actions the requests are for.
-/

namespace ClusterTransition

open ClusterTransition.Graph (Advances Edits Begun Hears LivesOn Reported)

namespace Turn

variable {ε : Type} (c : Cluster ε)

/-- The actions whose results a turn brings. -/
def about : Turn → Graph × Engine ε → List ActionId
  | move (.result r), (g, e) =>
    match e.resultAction g r with
    | .ok (_, a) => [a.id]
    | .error _ => []
  | move (.timeout id), _ => [id]
  | move (.fencing call _), (g, e) =>
    match e.fenceCalls.get? call with
    | some fence => if fence.transition = g.id then [fence.action] else []
    | none => []
  | move (.nodeSafe target), (g, e) =>
    match (c.confirmSafe target e.env).1 with
    | .ok () => (e.fenceCalls.entries.filter fun f =>
        f.2.target = target && f.2.transition = g.id).map (·.2.action)
    | .error _ => []
  | move .pass, _ | move (.abort ..), _ | dryPass _, _ => []
  | confirmed id, _ => [id]

/-- Each action whose result the turn brings was handed over before. -/
def Timely (t : Turn) (s : Graph × Engine ε) : Prop := ∀ id ∈ t.about c s, s.1.Begun id

/-- Each turn of the run is timely. -/
def AllTimely : List Turn → Graph × Engine ε → Prop
  | [], _ => True
  | t :: turns, s => t.Timely c s ∧ AllTimely turns (t.make c s)

instance (g : Graph) (id : ActionId) : Decidable (g.Begun id) :=
  decidable_of_iff (∀ k ∈ g.slotOf? id, g.statusAt k ≠ some .pending) Iff.rfl

instance (t : Turn) (s : Graph × Engine ε) : Decidable (t.Timely c s) :=
  inferInstanceAs (Decidable (∀ id ∈ t.about c s, s.1.Begun id))

instance decidableAllTimely : (turns : List Turn) → (s : Graph × Engine ε) →
    Decidable (AllTimely c turns s)
  | [], _ => .isTrue trivial
  | t :: turns, s =>
    have := decidableAllTimely turns (t.make c s)
    inferInstanceAs (Decidable (t.Timely c s ∧ AllTimely c turns (t.make c s)))

end Turn

/-! ## What reports do to the statuses -/

namespace Engine

variable {ε : Type} (c : Cluster ε) {g : Graph} {id : ActionId} {k : Nat}

/-- Notes leave the statuses. -/
theorem statusAt_release (e : Engine ε) (g : Graph) (id : ActionId) (k : Nat) :
    (e.release g id).1.statusAt k = g.statusAt k := by
  simp only [release]
  split
  · rfl
  · split
    · exact Graph.statusAt_modifyAction g id (by simp) k
    · rfl

theorem statusAt_recordStatus (e : Engine ε) (g : Graph) (id : ActionId) (status : OpStatus)
    (rc : Int) (k : Nat) : (e.recordStatus c g id status rc).1.statusAt k = g.statusAt k := by
  simp only [recordStatus]
  split
  · rfl
  · dsimp only
    split
    · exact Graph.statusAt_modifyAction g id (by simp) k
    · rfl

theorem statusAt_failExecuted (hslot : g.slotOf? id = some k)
    (hpending : g.statusAt k = some .pending) (reason : String) :
    (failExecuted g id reason).statusAt k = some (.failed .execution) := by
  have hset := Graph.statusAt_settle g id (.failed .execution) k
  rw [if_pos hslot, hpending] at hset
  exact hset

/-- The status of an action, if it was not refused, is a result once the action was finished. -/
theorem statusAt_finishAction (e : Engine ε) (hslot : g.slotOf? id = some k) {s : ActionStatus}
    (hs : g.statusAt k = some s) (hrefused : s ≠ .failed .initiation) :
    ∃ t, (e.finishAction g id).1.statusAt k = some t ∧ t.isConfirmed ∧
      t ≠ .failed .initiation := by
  have hslot' : (e.release g id).1.slotOf? id = some k :=
    (Graph.slotOf?_eq_of_plan (e.release_advances g id).edits.plan id).trans hslot
  have hfinish := Graph.statusAt_finish (e.release g id).1 id k
  rw [if_pos hslot', statusAt_release, hs, Option.map_some] at hfinish
  refine ⟨_, hfinish, ?_⟩
  split
  · rename_i hknown
    exact ⟨hknown, hrefused⟩
  · exact ⟨rfl, by simp⟩

/-- Fencing requests complete the actions that they are for. -/
theorem statusAt_completeFencing (e : Engine ε) {calls : List (Nat × FenceCall)}
    (hid : id ∈ calls.map (·.2.action)) (hslot : g.slotOf? id = some k)
    (hpending : g.statusAt k = some .pending) :
    ∃ t, (e.completeFencing c g calls).1.statusAt k = some t ∧ t.isConfirmed ∧
      t ≠ .failed .initiation := by
  induction calls generalizing e g with
  | nil => cases hid
  | cons head rest ih =>
    let erased : Engine ε := { e with fenceCalls := e.fenceCalls.erase head.1 }
    have hedits := nodeFenced_edits c erased g head.2
    by_cases heq : head.2.action = id
    · subst heq
      obtain ⟨t, ht, hknown, hrefused⟩ : ∃ t, (erased.nodeFenced c g head.2).1.statusAt k = some t ∧
          t.isConfirmed ∧ t ≠ .failed .initiation := statusAt_finishAction _ hslot hpending (by simp)
      have hrest := completeFencing_reported c (erased.nodeFenced c g head.2).2
        (erased.nodeFenced c g head.2).1 rest
      exact ⟨t, hrest.keeps_confirmed ht hknown, hknown, hrefused⟩
    · have hrest : id ∈ rest.map (·.2.action) :=
        (List.mem_cons.mp hid).resolve_left fun h => heq h.symm
      refine ih _ hrest ((Graph.slotOf?_eq_of_plan hedits.plan id).trans hslot) ?_
      refine (hedits.statusAt_other fun hother => heq ?_).trans hpending
      obtain ⟨a, ha, -, rfl⟩ := Graph.exists_action_of_slotOf? hslot
      obtain ⟨b, hb, -, hid'⟩ := Graph.exists_action_of_slotOf? hother
      obtain rfl : a = b := Option.some.inj (ha.symm.trans hb)
      exact hid'.symm

end Engine

/-! ## Turns -/

namespace Turn

variable {ε : Type} {c : Cluster ε} {t : Turn} {s : Graph × Engine ε}

/-- **A turn gives a result to every action that it is about**, also to one that was not handed
over. -/
theorem statusAt_of_about {id : ActionId} (hid : id ∈ t.about c s) {k : Nat}
    (hslot : s.1.slotOf? id = some k) (hpending : s.1.statusAt k = some .pending) :
    ∃ status, (t.make c s).1.statusAt k = some status ∧ status.isConfirmed ∧
      status ≠ .failed .initiation := by
  obtain ⟨g, e⟩ := s
  cases t with
  | dryPass st => cases hid
  | confirmed i =>
    obtain rfl := List.mem_singleton.mp hid
    have hslot' : (e.release g id).1.slotOf? id = some k :=
      (Graph.slotOf?_eq_of_plan (e.release_advances g id).edits.plan id).trans hslot
    have hset := Graph.statusAt_settle (e.release g id).1 id .confirmed k
    rw [if_pos hslot', Engine.statusAt_release, hpending] at hset
    exact ⟨.confirmed, hset, rfl, by simp⟩
  | move m =>
    cases m with
    | pass | abort => cases hid
    | result r =>
      simp only [about] at hid
      split at hid
      · rename_i key a hfound
        obtain rfl := List.mem_singleton.mp hid
        have hopen : a.status.isConfirmed = false := by
          have ha := Engine.action?_of_resultAction hfound
          obtain ⟨j, hj, hget, -⟩ := Graph.exists_slot_of_action? ha
          obtain rfl : j = k := Option.some.inj (hj.symm.trans hslot)
          rw [Graph.statusAt_eq hget, Option.some.injEq] at hpending
          rw [hpending]
          rfl
        simp only [make, Move.make, Engine.processResult, hfound, hopen, Bool.false_eq_true,
          if_false]
        split
        · have hplan : (Engine.failExecuted g a.id "Event failed").plan = g.plan :=
            (Engine.failExecuted_edits g a.id _).plan
          exact Engine.statusAt_finishAction _ ((Graph.slotOf?_eq_of_plan hplan a.id).trans hslot)
            (Engine.statusAt_failExecuted hslot hpending _) (by simp)
        · exact Engine.statusAt_finishAction _ hslot hpending (by simp)
      · cases hid
    | timeout i =>
      obtain rfl := List.mem_singleton.mp hid
      obtain ⟨a, ha, hfind, -⟩ := Graph.exists_action_of_slotOf? hslot
      have hopen : a.status.isConfirmed = false := by
        rw [Graph.statusAt_eq ha, Option.some.injEq] at hpending
        rw [hpending]
        rfl
      have hset := Graph.statusAt_settle g id (.failed .timedOut) k
      rw [if_pos hslot, hpending] at hset
      have hslot' : (g.failAction id .timedOut).2.slotOf? id = some k :=
        (Graph.slotOf?_eq_of_plan (Graph.plan_settle g id _) id).trans hslot
      simp only [make, Move.make, Engine.actionTimedOut, hfind, hopen, Bool.false_eq_true, if_false]
      split
      · have hplan := (Engine.recordStatus_advances c e (g.failAction id .timedOut).2 id .timedOut
          rcUnknown).edits.plan
        refine Engine.statusAt_finishAction _ ((Graph.slotOf?_eq_of_plan hplan id).trans hslot') ?_
          (s := .failed .timedOut) (by simp)
        exact (Engine.statusAt_recordStatus c ..).trans hset
      · exact Engine.statusAt_finishAction _ hslot' hset (by simp [ActionStatus.isConfirmed])
    | fencing call outcome =>
      simp only [about] at hid
      split at hid
      · rename_i fence hfence
        split at hid
        · rename_i hcurrent
          obtain rfl := List.mem_singleton.mp hid
          simp only [make, Move.make, Engine.fencingResult, hfence, hcurrent, ne_eq,
            not_true_eq_false, if_false]
          cases outcome with
          | ok => exact Engine.statusAt_finishAction _ hslot hpending (by simp)
          | error reason =>
            have hplan : (Engine.failExecuted g fence.action "Stonith failed").plan = g.plan :=
              (Engine.failExecuted_edits g fence.action _).plan
            exact Engine.statusAt_finishAction _ ((Graph.slotOf?_eq_of_plan hplan _).trans hslot)
              (Engine.statusAt_failExecuted hslot hpending _) (by simp)
        · cases hid
      · cases hid
    | nodeSafe target =>
      simp only [about] at hid
      simp only [make, Move.make, Engine.confirmNodeSafe]
      split at hid
      · rename_i hsafe
        obtain ⟨env, hanswer⟩ : ∃ env, c.confirmSafe target e.env = (.ok (), env) :=
          ⟨_, Prod.ext hsafe rfl⟩
        rw [hanswer]
        exact Engine.statusAt_completeFencing c _ hid hslot hpending
      · cases hid

end Turn

namespace Engine

variable {ε : Type} (c : Cluster ε) {g : Graph}

theorem processResult_hears {e : Engine ε} {r : ActionResult}
    (h : (Turn.move (.result r)).Timely c (g, e)) : g.Hears (e.processResult g r).2.1 := by
  simp only [Turn.Timely, Turn.about] at h
  simp only [processResult]
  cases hfound : e.resultAction g r with
  | error => exact .refl g
  | ok out =>
    obtain ⟨key, a⟩ := out
    rw [hfound] at h
    have hbegun := h a.id (List.mem_singleton.mpr rfl)
    dsimp only
    split
    · exact .refl g
    · refine Graph.Edits.hears (.trans ?_ (finishAction_advances _ _ a.id).edits) hbegun
      split
      · exact failExecuted_edits g a.id _
      · exact .refl

theorem fencingResult_hears {e : Engine ε} {call : Nat} {outcome : Except String Unit}
    (h : (Turn.move (.fencing call outcome)).Timely c (g, e)) :
    g.Hears (e.fencingResult c g call outcome).2.1 := by
  simp only [Turn.Timely, Turn.about] at h
  simp only [fencingResult]
  cases hfence : e.fenceCalls.get? call with
  | none => exact .refl g
  | some fence =>
    rw [hfence] at h
    dsimp only at h ⊢
    split
    · exact .refl g
    · rename_i hcurrent
      rw [if_pos (Decidable.not_not.mp hcurrent)] at h
      have hbegun := h fence.action (List.mem_singleton.mpr rfl)
      split
      · exact Graph.Edits.hears (nodeFenced_edits c _ g fence) hbegun
      · exact Graph.Edits.hears (fencingFailed_edits _ g fence) hbegun

theorem completeFencing_hears {e : Engine ε} {calls : List (Nat × FenceCall)}
    (h : ∀ f ∈ calls, g.Begun f.2.action) : g.Hears (e.completeFencing c g calls).1 := by
  induction calls generalizing e g with
  | nil => exact .refl g
  | cons head rest ih =>
    let erased : Engine ε := { e with fenceCalls := e.fenceCalls.erase head.1 }
    have hedits := nodeFenced_edits c erased g head.2
    have hfirst := Graph.Edits.hears hedits (h head (List.mem_cons_self ..))
    exact hfirst.trans (ih fun f hf => (h f (List.mem_cons_of_mem _ hf)).edits hedits)

theorem confirmNodeSafe_hears {e : Engine ε} {target : String}
    (h : (Turn.move (.nodeSafe target)).Timely c (g, e)) :
    g.Hears (e.confirmNodeSafe c g target).2.1 := by
  simp only [Turn.Timely, Turn.about] at h
  simp only [confirmNodeSafe]
  split
  · exact .refl g
  · rename_i env hanswer
    rw [hanswer] at h
    exact completeFencing_hears c fun f hf => h _ (List.mem_map_of_mem hf)

end Engine

namespace Turn

variable {ε : Type} {c : Cluster ε} {t : Turn} {s : Graph × Engine ε}

/-- A timely turn is a pass, or all that is heard in it are results of actions that were handed
over. -/
theorem Timely.pass_or_hears (ht : t.Timely c s) :
    (∃ (σ : Type) (d : Dispatcher σ) (st : σ), d.Steady ∧ d.Handles ∧
      (t.make c s).1 = (s.1.run d st).2.1 ∧ t.calls c s = s.1.calls d st) ∨
    s.1.Hears (t.make c s).1 ∧ t.calls c s = [] := by
  obtain ⟨g, e⟩ := s
  cases t with
  | dryPass st =>
    exact .inl ⟨_, _, st, Simulator.dispatcher_steady, Simulator.dispatcher_handles, rfl, rfl⟩
  | confirmed id =>
    have hedits := Engine.actionConfirmed_edits e g id
    exact .inr ⟨Graph.Edits.hears hedits (ht id (List.mem_singleton.mpr rfl)), rfl⟩
  | move m =>
    cases m with
    | pass =>
      exact .inl ⟨_, _, e, Engine.dispatcher_steady c, Engine.dispatcher_handles c, rfl, rfl⟩
    | abort => exact .inr ⟨⟨rfl, fun _ => .inl rfl, fun _ s' hs' hidle => ⟨s', hs', hidle⟩⟩, rfl⟩
    | result r => exact .inr ⟨Engine.processResult_hears c ht, rfl⟩
    | timeout id =>
      have hbegun := ht id (List.mem_singleton.mpr rfl)
      exact .inr ⟨Graph.Edits.hears (Engine.actionTimedOut_edits c e g id) hbegun, rfl⟩
    | fencing call outcome => exact .inr ⟨Engine.fencingResult_hears c ht, rfl⟩
    | nodeSafe target => exact .inr ⟨Engine.confirmNodeSafe_hears c ht, rfl⟩

/-- **A timely turn takes the actions through their lives**, and leaves those of the synapses that
have not fired pending. -/
theorem Timely.lives (ht : t.Timely c s) (hw : s.1.WellFormed) (hg : s.1.Pristine) :
    (t.make c s).1.WellFormed ∧ (t.make c s).1.Pristine ∧
      (s.1 :: ((t.calls c s).map (·.graph) ++ [(t.make c s).1])).IsChain LivesOn := by
  rcases ht.pass_or_hears with ⟨σ, d, st, hsteady, hd, hmake, hcalls⟩ | ⟨hhears, hcalls⟩
  · obtain ⟨hpristine, hchain⟩ := Graph.calls_liveOn hsteady hd hw hg st
    rw [hmake, hcalls]
    exact ⟨hw.of_plan (Graph.plan_run hsteady hd s.1 st), hpristine, hchain⟩
  · rw [hcalls]
    exact ⟨hw.of_plan hhears.plan, hg.hears hhears, by simpa using hhears.liveOn⟩

/-- A turn that brings a result too early disturbs the life of the action. -/
theorem timely_of_lives
    (h : (s.1 :: ((t.calls c s).map (·.graph) ++ [(t.make c s).1])).IsChain LivesOn) :
    t.Timely c s := by
  intro id hid k hslot hpending
  have hcalls : t.calls c s = [] := by
    cases t with
    | confirmed => rfl
    | dryPass => cases hid
    | move m =>
      cases m with
      | pass => cases hid
      | result | timeout | fencing | nodeSafe | abort => rfl
  rw [hcalls] at h
  have hlives : s.1.LivesOn (t.make c s).1 := by simpa using h
  obtain ⟨status, hstatus, hknown, hrefused⟩ := statusAt_of_about hid hslot hpending
  cases hlives.follows k _ _ hpending hstatus with
  | same | handedOver => cases hknown
  | unroutable => exact hrefused rfl

/-- **A run keeps to the lives of the actions exactly if its turns are timely.** -/
theorem lives_iff (turns : List Turn) (hw : s.1.WellFormed) (hg : s.1.Pristine) :
    (s.1 :: moments c turns s).IsChain LivesOn ↔ AllTimely c turns s := by
  induction turns generalizing s with
  | nil => simp [moments, AllTimely]
  | cons t turns ih =>
    rw [moments, AllTimely, List.isChain_cons_split]
    constructor
    · rintro ⟨hfirst, hrest⟩
      have ht := timely_of_lives hfirst
      obtain ⟨hw', hg', -⟩ := ht.lives hw hg
      exact ⟨ht, (ih hw' hg').mp hrest⟩
    · rintro ⟨ht, hturns⟩
      obtain ⟨hw', hg', hfirst⟩ := ht.lives hw hg
      exact ⟨hfirst, (ih hw' hg').mpr hturns⟩

end Turn

/-! ## Outcomes of fencing requests -/

theorem Graph.Begun.failFiring {g : Graph} {id : ActionId} (h : g.Begun id) (pos slot : Nat) :
    (g.failFiring pos slot).Begun id := by
  have hset : (g.setStatusAt slot (.failed .initiation)).Begun id := h.setStatusAt (by simp)
  exact hset

/-- No step of a pass takes back that an action was handed over. -/
theorem PassStep.begun {σ : Type} {d : Dispatcher σ} (hd : d.Handles) {x y : PassState σ}
    {id : ActionId} (hx : x.graph.Begun id) (h : PassStep d x y) : y.graph.Begun id := by
  have hmark {g : Graph} {slot : Nat} (hg : g.Begun id) :
      (g.setStatusAt slot .executed).Begun id := hg.setStatusAt (by simp)
  cases h with
  | count | ready | skip | fire | fired | conclude => exact hx
  | dispatch _ _ _ _ _ hgoes => exact (hmark hx).edits (hd.edits hgoes)
  | refuse _ _ _ _ _ hstays => exact ((hmark hx).edits (hd.edits hstays)).failFiring _ _
  | unroutable => exact (hmark hx).failFiring _ _
  | again => exact hx.failFiring _ _

theorem Graph.Reported.begun {g g' : Graph} (h : Reported g g') {id : ActionId}
    (hid : g.Begun id) : g'.Begun id := by
  induction h with
  | refl => exact hid
  | tail _ step ih =>
    obtain ⟨_, hedits⟩ := step
    exact ih.edits hedits

namespace Engine

variable {ε : Type} (c : Cluster ε) {e e' : Engine ε} {g g' : Graph}

/-- No request is added, and none of the actions is pending again. -/
theorem CallsBegun.of_subset (h : e.CallsBegun g)
    (hcalls : e'.fenceCalls.entries ⊆ e.fenceCalls.entries)
    (hbegun : ∀ id, g.Begun id → g'.Begun id) : e'.CallsBegun g' :=
  fun f hf => hbegun _ (h f (hcalls hf))

/-- A step of a pass only adds requests for actions that it hands over. -/
theorem CallsBegun.step {x y : PassState (Engine ε)} (hw : x.graph.WellFormed)
    (hx : x.state.CallsBegun x.graph) (h : PassStep (dispatcher c) x y) :
    y.state.CallsBegun y.graph := by
  have hmark {g : Graph} {slot : Nat} {a : Action} {e : Engine ε} (hw : g.WellFormed)
      (ha : g.actions[slot]? = some a) (h : e.CallsBegun g) :
      (g.setStatusAt slot .executed).Begun a.id ∧ e.CallsBegun (g.setStatusAt slot .executed) := by
    obtain ⟨hslot, -⟩ := hw.action?_setStatusAt ha .executed
    have hstatus := Graph.statusAt_eq (Graph.getElem?_setStatusAt ha .executed)
    refine ⟨.of_slot hslot (by simp [hstatus]), ?_⟩
    exact h.of_subset (List.Subset.refl _) fun _ hi => hi.setStatusAt (by simp)
  have hkept (hcalls : y.state.fenceCalls = x.state.fenceCalls) : y.state.CallsBegun y.graph := by
    refine hx.of_subset (hcalls ▸ List.Subset.refl _) fun _ hi => ?_
    exact h.begun (dispatcher_handles c) hi
  cases h with
  | count | ready | skip | fire | fired | conclude | unroutable | again => exact hkept rfl
  | dispatch _ _ ha _ _ hgoes =>
    obtain ⟨hbegun, hcalls⟩ := hmark hw ha hx
    exact hcalls.dispatch hbegun hgoes
  | refuse _ _ ha _ _ hstays =>
    obtain ⟨hbegun, hcalls⟩ := hmark hw ha hx
    exact (hcalls.dispatch hbegun hstays).of_subset (List.Subset.refl _) fun _ hi =>
      hi.failFiring _ _

theorem fenceCalls_completeFencing (e : Engine ε) (g : Graph) (calls : List (Nat × FenceCall)) :
    (e.completeFencing c g calls).2.fenceCalls.entries ⊆ e.fenceCalls.entries := by
  induction calls generalizing e g with
  | nil => exact List.Subset.refl _
  | cons head rest ih =>
    let erased : Engine ε := { e with fenceCalls := e.fenceCalls.erase head.1 }
    have hfirst : (erased.nodeFenced c g head.2).2.fenceCalls = erased.fenceCalls :=
      fenceCalls_of_frame (frame_nodeFenced c erased g head.2)
    exact fun f hf => (List.mem_filter.mp (hfirst ▸ ih _ _ hf)).1

end Engine

namespace Turn

variable {ε : Type} {c : Cluster ε} {s : Graph × Engine ε}

/-- No report adds a fencing request. -/
theorem fenceCalls_reported {m : Move} (hm : m ≠ .pass) (s : Graph × Engine ε) :
    (m.make c s).2.fenceCalls.entries ⊆ s.2.fenceCalls.entries := by
  obtain ⟨g, e⟩ := s
  cases m with
  | pass => exact absurd rfl hm
  | abort => exact List.Subset.refl _
  | result r =>
    simp only [Move.make, Engine.processResult]
    split
    · exact List.Subset.refl _
    · split
      · exact List.Subset.refl _
      · rw [Engine.fenceCalls_of_frame (Engine.frame_finishAction ..)]
        exact List.Subset.refl _
  | timeout id =>
    simp only [Move.make, Engine.actionTimedOut]
    split
    · exact List.Subset.refl _
    · split
      · exact List.Subset.refl _
      · rw [Engine.fenceCalls_of_frame (Engine.frame_finishAction ..)]
        split
        · rw [Engine.fenceCalls_of_frame (Engine.frame_recordStatus ..)]
          exact List.Subset.refl _
        · exact List.Subset.refl _
  | fencing call outcome =>
    simp only [Move.make, Engine.fencingResult]
    split
    · exact List.Subset.refl _
    · split
      · exact List.filter_subset_self ..
      · split
        · rw [Engine.fenceCalls_of_frame (Engine.frame_nodeFenced ..)]
          exact List.filter_subset_self ..
        · rw [Engine.fenceCalls_of_frame (Engine.frame_fencingFailed ..)]
          exact List.filter_subset_self ..
  | nodeSafe target =>
    simp only [Move.make, Engine.confirmNodeSafe]
    split
    · exact List.Subset.refl _
    · exact Engine.fenceCalls_completeFencing ..

/-- **The outstanding fencing requests are for actions that were handed over**, whatever is
reported. -/
theorem callsBegun (t : Turn) (hw : s.1.WellFormed) (h : s.2.CallsBegun s.1) :
    (t.make c s).2.CallsBegun (t.make c s).1 := by
  cases t with
  | dryPass st =>
    refine h.of_subset (List.Subset.refl _) fun id hid => ?_
    exact Graph.run_induction Simulator.dispatcher_steady (P := fun x => x.graph.Begun id)
      (fun _ _ hstep hx => hstep.begun Simulator.dispatcher_handles hx) s.1 st hid
  | confirmed id =>
    have hframe := Engine.fenceCalls_of_frame (Engine.frame_release s.2 s.1 id)
    have hedits := Engine.actionConfirmed_edits s.2 s.1 id
    exact h.of_subset (hframe ▸ List.Subset.refl _) fun i hi => hi.edits hedits
  | move m =>
    by_cases hm : m = .pass
    · subst hm
      exact (Graph.run_induction (Engine.dispatcher_steady c)
        (P := fun x => x.graph.WellFormed ∧ x.state.CallsBegun x.graph)
        (fun _ _ hstep hx => ⟨hx.1.of_plan (hstep.plan (Engine.dispatcher_handles c)),
          hx.2.step c hx.1 hstep⟩) s.1 s.2 ⟨hw, h⟩).2
    · exact h.of_subset (fenceCalls_reported hm s) fun _ hi => (m.reported c hm s).begun hi

/-- The turn is about fencing requests. -/
def IsFencing : Turn → Prop
  | move (.fencing ..) | move (.nodeSafe _) => True
  | _ => False

/-- The outcome of an outstanding request is timely. -/
theorem timely_of_callsBegun {t : Turn} (ht : t.IsFencing) (h : s.2.CallsBegun s.1) :
    t.Timely c s := by
  obtain ⟨g, e⟩ := s
  intro id hid
  cases t with
  | dryPass | confirmed => exact ht.elim
  | move m =>
    cases m with
    | pass | result | timeout | abort => exact ht.elim
    | fencing call outcome =>
      simp only [about] at hid
      split at hid
      · rename_i fence hfence
        split at hid
        · obtain rfl := List.mem_singleton.mp hid
          exact h.get? hfence
        · cases hid
      · cases hid
    | nodeSafe target =>
      simp only [about] at hid
      split at hid
      · obtain ⟨f, hf, rfl⟩ := List.mem_map.mp hid
        exact h f (List.mem_filter.mp hf).1
      · cases hid

/-- No turn changes the plan of the graph. -/
theorem plan_make (t : Turn) (s : Graph × Engine ε) : (t.make c s).1.plan = s.1.plan := by
  cases t with
  | move m => exact m.plan c s
  | confirmed id =>
    exact (Graph.plan_settle ..).trans (Engine.release_advances s.2 s.1 id).edits.plan
  | dryPass st =>
    exact Graph.plan_run Simulator.dispatcher_steady Simulator.dispatcher_handles s.1 st

theorem callsBegun_makeAll (turns : List Turn) (hw : s.1.WellFormed) (h : s.2.CallsBegun s.1) :
    (makeAll c turns s).2.CallsBegun (makeAll c turns s).1 := by
  induction turns generalizing s with
  | nil => exact h
  | cons t turns ih => exact ih (hw.of_plan (t.plan_make s)) (t.callsBegun hw h)

end Turn

/-- **A run takes every action through its life exactly if no result comes too early.**  Take any
turns on a graph of the loader: passes with an engine or of dry runs, reports with any contents,
timeouts of any action, confirmations and aborts.  From each moment to the next, at the dispatch
calls and after each turn, every action keeps its status, is handed over while it is pending, gets
a result while it is executed, or fails at once because there is no way to carry it out; if and only
if each turn is timely, that is, the actions whose results it brings are pending no longer.  A turn
that is about fencing requests always is, if the engine had none outstanding at the start. -/
theorem lives_iff_timely {d : GraphDocument} {g : Graph} (h : d.toGraph = .ok g) {ε : Type}
    (c : Cluster ε) (e : Engine ε) (turns : List Turn) :
    ((g :: Turn.moments c turns (g, e)).IsChain Graph.LivesOn ↔
      Turn.AllTimely c turns (g, e)) ∧
    (e.fenceCalls = .empty → ∀ before t after, turns = before ++ t :: after → t.IsFencing →
      t.Timely c (Turn.makeAll c before (g, e))) := by
  have hloaded := GraphDocument.loadedAs_of_toGraph h
  have hw := hloaded.wellFormed
  have hlives := Turn.lives_iff (c := c) (s := (g, e)) turns hw (hloaded.fresh.pristine hw)
  refine ⟨hlives, ?_⟩
  intro he before t after _ ht
  refine Turn.timely_of_callsBegun ht (Turn.callsBegun_makeAll before hw fun f hf => ?_)
  rw [he] at hf
  cases hf

/-- In every run of a new engine on the graph of the document, each action is first pending, then
executed, then it has a result, and that for good. -/
def GraphDocument.KeepsLives (d : GraphDocument) : Prop :=
  ∀ g, d.toGraph = .ok g → ∀ (ε : Type) (c : Cluster ε) (config : EngineConfig) (env : ε)
    (uuid : String) (turns : List Turn),
    (g :: Turn.moments c turns (g, (Engine.new config env uuid).startTransition)).IsChain
      Graph.LivesOn

/-- The fencing of a node, with a start elsewhere that waits for it. -/
def GraphDocument.fenceThenStart : GraphDocument where
  transitionId := 1
  synapses :=
    [{ id := 0
       actions :=
         [{ id := 1, kind := .clusterEvent, task := some "stonith", target := some "node2"
            targetUuid := some "2", params := .ofList [("CRM_meta_stonith_action", "off")] }] },
     { id := 1
       actions := [{ id := 2, kind := .resource, task := some "start", target := some "node1" }]
       inputs := [1] }]

/-- Two passes, with the success of the fencing between them, the timeout of the start, and its
result after that. -/
def Turn.fencedAndLate : List Turn :=
  [.move .pass, .move (.nodeSafe "node2"), .move .pass, .move (.timeout 2),
    .move (.result
      { transitionKey := "2:1:0:6f1e8a52-7d0c-4c1b-9a3e-2b5d4c3a1f00", status := .done, rc := 0 })]

/-- The start fails by its timeout, and stays failed when its result comes after all. -/
theorem fenceThenStart_lives : ∃ g, GraphDocument.fenceThenStart.toGraph = .ok g ∧
    let start := (g, (Engine.new { node := "node1" } 0).startTransition)
    (Turn.moments .willing Turn.fencedAndLate start).map (·.actions.map (·.status)) =
        [[.executed, .pending], [.executed, .pending], [.confirmed, .pending],
          [.confirmed, .executed], [.confirmed, .executed], [.confirmed, .failed .timedOut],
          [.confirmed, .failed .timedOut]] ∧
      (g :: Turn.moments .willing Turn.fencedAndLate start).IsChain Graph.LivesOn := by
  have hfacts : ∀ g, GraphDocument.fenceThenStart.toGraph = .ok g →
      let start := (g, (Engine.new { node := "node1" } 0).startTransition)
      (Turn.moments .willing Turn.fencedAndLate start).map (·.actions.map (·.status)) =
        [[.executed, .pending], [.executed, .pending], [.confirmed, .pending],
          [.confirmed, .executed], [.confirmed, .executed], [.confirmed, .failed .timedOut],
          [.confirmed, .failed .timedOut]] ∧
        Turn.AllTimely .willing Turn.fencedAndLate start := by
    rintro _ ⟨⟩
    decide +kernel
  obtain ⟨g, hg⟩ : ∃ g, GraphDocument.fenceThenStart.toGraph = .ok g := ⟨_, rfl⟩
  obtain ⟨hstatuses, htimely⟩ := hfacts g hg
  have hlives := lives_iff_timely hg .willing (Engine.new { node := "node1" } 0).startTransition
    Turn.fencedAndLate
  exact ⟨g, hg, hstatuses, hlives.1.mpr htimely⟩

/-- One start. -/
def GraphDocument.loneStart : GraphDocument where
  transitionId := 1
  synapses :=
    [{ id := 0
       actions := [{ id := 1, kind := .resource, task := some "start", target := some "node1" }] }]

/-- The result of the start, before the pass that would hand it over. -/
def Turn.resultAndPass : List Turn :=
  [.move (.result
      { transitionKey := "1:1:0:6f1e8a52-7d0c-4c1b-9a3e-2b5d4c3a1f00", status := .done, rc := 0 }),
    .move .pass]

/-- The start is confirmed without having been handed over, and fails after that. -/
theorem loneStart_overwritten : (∃ g, GraphDocument.loneStart.toGraph = .ok g ∧
      let start := (g, (Engine.new { node := "node1" } 0).startTransition)
      (Turn.moments .willing Turn.resultAndPass start).map (·.actions.map (·.status)) =
          [[.confirmed], [.failed .initiation]] ∧
        Turn.log .willing Turn.resultAndPass start = [[], []]) ∧
    ¬ GraphDocument.loneStart.KeepsLives := by
  have hfacts : ∀ g, GraphDocument.loneStart.toGraph = .ok g →
      let start := (g, (Engine.new { node := "node1" } 0).startTransition)
      ((Turn.moments .willing Turn.resultAndPass start).map (·.actions.map (·.status)) =
          [[.confirmed], [.failed .initiation]] ∧
        Turn.log .willing Turn.resultAndPass start = [[], []]) ∧
      ∃ m m', Turn.moments .willing Turn.resultAndPass start = [m, m'] ∧
        m.statusAt 0 = some .confirmed ∧ m'.statusAt 0 = some (.failed .initiation) := by
    rintro _ ⟨⟩
    exact ⟨by decide +kernel, _, _, rfl, by decide +kernel, by decide +kernel⟩
  obtain ⟨g, hg⟩ : ∃ g, GraphDocument.loneStart.toGraph = .ok g := ⟨_, rfl⟩
  obtain ⟨hrun, m, m', hmoments, hconfirmed, hfailed⟩ := hfacts g hg
  refine ⟨⟨g, hg, hrun⟩, fun hkeeps => ?_⟩
  have hchain := hkeeps g hg Nat .willing { node := "node1" } 0 Engine.defaultUuid
    Turn.resultAndPass
  rw [hmoments] at hchain
  have hlives : m.LivesOn m' := by simpa using (List.isChain_cons.mp hchain).2
  cases hlives.follows 0 _ _ hconfirmed hfailed

end ClusterTransition
