import ClusterTransition.Proofs.Engine.Members
import ClusterTransition.Proofs.Engine.Numbering
import ClusterTransition.Proofs.Engine.Results
import ClusterTransition.Proofs.Engine.Waiting

/-! # Whatever runs is waited for

An action for which nobody waits would hold a transition up for good.  There is none
(`no_orphans`): between the events of a run every action that runs has either an armed timer or an
outstanding fencing request, every armed timer is for an action that runs, and an executing synapse
waits for one of its actions.

Time enters with the events of the clock (`Event`).  Moving it forward disarms the timers that are
due; each of these expiries is reported later, once, and nothing else is reported as a timeout
(`Event.Possible`).
-/

namespace ClusterTransition

open ClusterTransition.Graph (Edits)

/-! ## Shared steps -/

section Steps

variable {ε : Type} {apart : Prop} {c : Cluster ε} {g : Graph} {e : Engine ε}
  {due : List ActionId} {x : ActionId}

theorem Graph.statusOf_modifyAction (g : Graph) (id : ActionId) {f : Action → Action}
    (hplan : ∀ a, (f a).plan = a.plan) (hstatus : ∀ a, (f a).status = a.status) (x : ActionId) :
    (g.modifyAction id f).statusOf x = g.statusOf x :=
  statusOf_congr (plan_modifyAction g id hplan) (statusAt_modifyAction g id hstatus) x

namespace Graph.Watched

/-- Finishing an action ends its exception. -/
theorem finish {g₀ : Graph} (h : g₀.Watched apart e due (some x))
    (hx : e.timers.isArmed x = false) {e' : Engine ε} (hedits : Edits x g₀ g)
    (htimers : e'.timers = e.timers)
    (hcalls : e'.fenceCalls = e.fenceCalls) :
    (e'.finishAction g x).1.Watched apart (e'.finishAction g x).2 due none := by
  have hall := hedits.trans (Engine.finishAction_advances e' g x).edits
  have hend := h.edits hall hx ((Engine.timers_finishAction g e' x).trans htimers)
    ((Engine.fenceCalls_finishAction g e' x).trans hcalls)
  refine hend.close ?_
  exact statusOf_finish (e'.release g x).1 x

/-- The timer of the exception is armed, when it runs. -/
theorem startActionTimer (h : g.Watched apart e due (some x)) (hx : g.statusOf x = some .executed)
    (hfences : ¬ g.Fences x) (hdue : x ∉ due) :
    (e.startActionTimer g x).1.Watched apart (e.startActionTimer g x).2 due none := by
  obtain ⟨a, ha, -⟩ := exists_of_statusOf hx
  simp only [Engine.startActionTimer, ha]
  have harm := h.arm hx hfences hdue
    (Engine.timerSpan g.networkDelay (Engine.coercedTimeout g.networkDelay a.op.timeoutMs))
  exact harm.of_eq (plan_modifyAction g x fun _ => rfl)
    (statusOf_modifyAction g x (fun _ => rfl) fun _ => rfl) rfl rfl

/-- Storing a status record changes nothing that is waited for. -/
theorem recordStatus {except : Option ActionId} (h : g.Watched apart e due except) (id : ActionId)
    (status : OpStatus) (rc : Int) :
    (e.recordStatus c g id status rc).1.Watched apart (e.recordStatus c g id status rc).2 due
      except := by
  simp only [Engine.recordStatus]
  split
  · exact h
  · dsimp only
    split
    · exact h.of_eq (plan_modifyAction g id fun _ => rfl)
        (statusOf_modifyAction g id (fun _ => rfl) fun _ => rfl) rfl rfl
    · exact h.of_eq rfl (fun _ => rfl) rfl rfl

/-- A resource operation that was sent is awaited, unless nobody waits for its result. -/
theorem resourceSent {a : Action} (h : g.Watched apart e due (some a.id))
    (hignores : e.Ignores due a.id) (ha : g.action? a.id = some a) (hexec : a.status = .executed)
    (hfences : ¬ g.Fences a.id) :
    (e.resourceSent g a).1.Watched apart (e.resourceSent g a).2 due none := by
  simp only [Engine.resourceSent]
  split
  · have hfinish : Edits a.id g ((g.settle a.id .confirmed).2.update a.id).2 := .finish g rfl
    have hend : ((g.settle a.id .confirmed).2.update a.id).2.Watched apart e.requestPass due
        (some a.id) := h.edits hfinish hignores.unarmed rfl rfl
    exact hend.close (statusOf_finish g a.id)
  · split
    · rename_i hknown
      rw [hexec] at hknown
      cases hknown
    · let charged : Engine ε := { e with ledger := e.ledger.recordAction a 1 }
      let counted := g.modifyAction a.id fun a => { a with counted := true }
      have hstatus := statusOf_modifyAction g a.id (f := fun a => { a with counted := true })
        (fun _ => rfl) fun _ => rfl
      have hplan : counted.plan = g.plan := plan_modifyAction g a.id fun _ => rfl
      have hcounted : counted.Watched apart charged due (some a.id) :=
        h.of_eq hplan hstatus rfl rfl
      refine hcounted.startActionTimer ?_ ?_ hignores.unexpired
      · rw [hstatus, statusOf_eq ha, hexec]
      · rwa [fences_of_plan hplan]

/-! ## Dispatches -/

/-- What a dispatch of an action that was just marked executed may leave. -/
def Dispatched (apart : Prop) (g : Graph) (e : Engine ε) (due : List ActionId) (id : ActionId)
    (out : Bool × Graph × Engine ε) : Prop :=
  if out.1 then out.2.1.Watched apart out.2.2 due none
  else out.2.1 = g ∧ out.2.2.timers = e.timers ∧ g.Watched apart out.2.2 due (some id)

/-- **An action that goes is waited for.** -/
theorem dispatch {a : Action} {channel : Channel} (h : g.Watched apart e due (some a.id))
    (hignores : e.Ignores due a.id) (ha : g.action? a.id = some a) (hexec : a.status = .executed)
    (hchannel : a.channel? = some channel)
    (hnew : apart → ∀ call fence,
      ((Engine.dispatcher c).dispatch channel a.id g e).2.2.fenceCalls.get? call = some fence →
        e.fenceCalls.get? call = some fence ∨ e.fenceCalls.get? call = none) :
    Dispatched apart g e due a.id ((Engine.dispatcher c).dispatch channel a.id g e) := by
  have hstatus : g.statusOf a.id = some .executed := hexec ▸ statusOf_eq ha
  have hfences (hne : channel ≠ .fencing) : ¬ g.Fences a.id := by
    rintro ⟨b, hb, hfencing⟩
    rw [ha, Option.some.injEq] at hb
    rw [← hb, hchannel, Option.some.injEq] at hfencing
    exact hne hfencing
  have hsame (env : ε) (down : List String) :
      g.Watched apart ({ e with env, expectedDown := down } : Engine ε) due (some a.id) :=
    h.of_eq rfl (fun _ => rfl) rfl rfl
  have hout := Engine.dispatch_outcome c e ha channel
  generalize (Engine.dispatcher c).dispatch channel a.id g e = out at hout hnew
  cases hout with
  | refused _ env down => exact ⟨rfl, rfl, hsame env down⟩
  | marker => exact h.finish hignores.unarmed .refl rfl rfl
  | sent env htarget =>
    exact (hsame env e.expectedDown).resourceSent ⟨hignores.unarmed, hignores.unexpired,
      hignores.uncalled⟩ ha hexec (hfences (by simp))
  | recorded env htarget hsent =>
    have hwatched := (hsame env e.expectedDown).resourceSent ⟨hignores.unarmed, hignores.unexpired,
      hignores.uncalled⟩ ha hexec (hfences (by simp))
    rw [hsent] at hwatched
    exact hwatched.recordStatus a.id .pending rcUnknown
  | shutdown htarget =>
    have hshut : ({ g with completionAction := .shutdown, abortReason := some "local shutdown" } :
        Graph).Watched apart e due (some a.id) := h.of_eq rfl (fun _ => rfl) rfl rfl
    exact hshut.finish hignores.unarmed .refl rfl rfl
  | told env down htarget => exact (hsame env down).finish hignores.unarmed .refl rfl rfl
  | asked env down htarget =>
    exact (hsame env down).startActionTimer hstatus (hfences (by simp)) hignores.unexpired
  | @fenced env call fence haction htransition hfields =>
    have hfresh : apart → e.fenceCalls.get? call = none := by
      intro hapart
      rcases hnew hapart call fence (by rw [Table.get?_insert, if_pos rfl]) with hold | hnone
      · exact absurd haction (hignores.uncalled call fence hold)
      · exact hnone
    exact (hsame env e.expectedDown).ask hstatus ⟨a, ha, hchannel⟩ hignores.uncalled hfresh haction
      htransition

/-! ## Reports -/

theorem processResult (h : g.Watched apart e due none) (r : ActionResult) :
    (e.processResult g r).2.1.Watched apart (e.processResult g r).2.2 due none := by
  simp only [Engine.processResult]
  split
  · exact h
  · rename_i key a hfound
    have ha : g.action? a.id = some a := Engine.action?_of_resultAction hfound
    have hcancel := h.cancel a.id
    have hunarmed : (e.timers.cancel a.id).isArmed a.id = false := by
      refine Bool.eq_false_iff.mpr fun harmed => ?_
      exact ((Timers.isArmed_cancel e.timers a.id a.id).mp harmed).1 rfl
    split
    · rename_i hknown
      refine hcancel.close ?_
      rw [statusOf_eq ha]
      intro hexec
      rw [Option.some.inj hexec] at hknown
      cases hknown
    · refine hcancel.finish hunarmed ?_ rfl rfl
      split
      · exact Engine.failExecuted_edits g a.id _
      · exact .refl

/-- The report of an expiry takes it from those that are due. -/
theorem actionTimedOut (h : g.Watched apart e due none) {id : ActionId} (hid : id ∈ due) :
    (e.actionTimedOut c g id).2.1.Watched apart (e.actionTimedOut c g id).2.2
      (due.filter (· ≠ id)) none := by
  have hreport := h.report id
  have hunarmed : e.timers.isArmed id = false :=
    Bool.eq_false_iff.mpr fun harmed => (h.armed id harmed).1 hid
  simp only [Engine.actionTimedOut]
  split
  · rename_i hnone
    refine hreport.close fun hexec => ?_
    obtain ⟨a, ha, -⟩ := exists_of_statusOf hexec
    rw [hnone] at ha
    cases ha
  · rename_i a ha
    split
    · rename_i hknown
      refine hreport.close fun hexec => ?_
      rw [statusOf_eq ha, Option.some.injEq] at hexec
      rw [hexec] at hknown
      cases hknown
    · have hset : Edits id g (g.failAction id .timedOut).2 :=
        .single (.settle g (.failed .timedOut) rfl)
      dsimp only
      split
      · have hrecorded := (hreport.edits hset hunarmed rfl rfl).recordStatus (c := c) id .timedOut
          rcUnknown
        have hquiet : (e.recordStatus c (g.failAction id .timedOut).2 id .timedOut
            rcUnknown).2.timers = e.timers := by
          simp only [Engine.recordStatus]
          split <;> rfl
        exact hrecorded.finish (by rw [hquiet]; exact hunarmed) .refl rfl rfl
      · exact hreport.finish hunarmed hset rfl rfl

theorem nodeFenced {fence : FenceCall} (h : g.Watched apart e due (some fence.action))
    (hx : e.timers.isArmed fence.action = false) :
    (e.nodeFenced c g fence).1.Watched apart (e.nodeFenced c g fence).2 due none :=
  h.finish hx .refl rfl rfl

theorem fencingFailed {fence : FenceCall} (h : g.Watched apart e due (some fence.action))
    (hx : e.timers.isArmed fence.action = false) :
    (e.fencingFailed g fence).1.Watched apart (e.fencingFailed g fence).2 due none :=
  h.finish hx (Engine.failExecuted_edits g fence.action _) rfl rfl

/-- No outcome is taken for a stale one, since all requests are of this transition. -/
theorem fencingResult (h : g.Watched apart e due none) (call : Nat)
    (outcome : Except String Unit) :
    (e.fencingResult c g call outcome).2.1.Watched apart (e.fencingResult c g call outcome).2.2
      due none := by
  simp only [Engine.fencingResult]
  split
  · exact h
  · rename_i fence hget
    have herase := h.erase hget
    have hunarmed := h.unarmed_of_call hget
    rw [if_neg (not_not.mpr (h.calls call fence hget).1)]
    split
    · exact herase.nodeFenced hunarmed
    · exact herase.fencingFailed hunarmed

theorem completeFencing {calls : List (Nat × FenceCall)} (h : g.Watched apart e due none)
    (hdistinct : (calls.map (·.1)).Nodup)
    (hcalls : ∀ f ∈ calls, e.fenceCalls.get? f.1 = some f.2) :
    (e.completeFencing c g calls).1.Watched apart (e.completeFencing c g calls).2 due none := by
  induction calls generalizing e g with
  | nil => exact h
  | cons head rest ih =>
    obtain ⟨hhead, hrest⟩ := List.nodup_cons.mp hdistinct
    have hget := hcalls head (List.mem_cons_self ..)
    let erased : Engine ε := { e with fenceCalls := e.fenceCalls.erase head.1 }
    have hfenced := (h.erase hget).nodeFenced (c := c) (h.unarmed_of_call hget)
    refine ih hfenced hrest fun f hf => ?_
    have hframe := Engine.fenceCalls_of_frame (Engine.frame_nodeFenced c erased g head.2)
    have hne : f.1 ≠ head.1 := by
      intro heq
      exact hhead (List.mem_map.mpr ⟨f, hf, heq⟩)
    have hkept : erased.fenceCalls.get? f.1 = some f.2 := by
      rw [Table.get?_erase, if_neg hne]
      exact hcalls f (List.mem_cons_of_mem _ hf)
    exact (congrArg (·.get? f.1) hframe).trans hkept

theorem confirmNodeSafe (h : g.Watched apart e due none) (target : String) :
    (e.confirmNodeSafe c g target).2.1.Watched apart (e.confirmNodeSafe c g target).2.2 due
      none := by
  simp only [Engine.confirmNodeSafe]
  rcases c.confirmSafe target e.env with ⟨_ | _, env⟩
  · exact h.of_eq rfl (fun _ => rfl) rfl rfl
  · have hsafe : g.Watched apart ({ e with env } : Engine ε) due none :=
      h.of_eq rfl (fun _ => rfl) rfl rfl
    refine hsafe.completeFencing ?_ fun f hf => ?_
    · exact e.fenceCalls.keys_nodup.sublist (List.filter_sublist.map _)
    · exact Table.get?_eq_some_iff.mpr (List.mem_filter.mp hf).1

end Graph.Watched
end Steps

/-! ## A pass -/

/-- Where a pass stands with respect to what the engine waits for. -/
structure PassState.Watched {ε : Type} (c : Cluster ε) (used : ε → Nat → Prop)
    (due : List ActionId) (x : PassState (Engine ε)) : Prop where
  orderly : x.Orderly
  numbered : c.NumbersOnce used → x.state.Numbered used
  watched : x.graph.Watched (c.NumbersOnce used) x.state due none

section Pass

variable {ε : Type} {apart : Prop} {used : ε → Nat → Prop} {c : Cluster ε} {due : List ActionId}

/-- The action at a slot fails, and the synapse that is being fired with it. -/
theorem Graph.Watched.failFiring {g : Graph} {e : Engine ε} {slot : Nat} {a : Action}
    (h : g.Watched apart e due (some a.id)) (hw : g.WellFormed) (ha : g.actions[slot]? = some a)
    (hx : e.timers.isArmed a.id = false) (pos : Nat) :
    (g.failFiring pos slot).Watched apart e due none := by
  have hset : (g.setStatusAt slot (.failed .initiation)).Watched apart e due (some a.id) :=
    h.setStatusAt hw ha rfl hx (by simp)
  have hclosed : (g.setStatusAt slot (.failed .initiation)).Watched apart e due none := by
    refine hset.close ?_
    rw [statusOf_setStatusAt hw ha, if_pos rfl]
    simp
  refine hclosed.of_eq ?_ (fun _ => rfl) rfl rfl
  rw [plan_failFiring, plan_setStatusAt]

/-- A pending action is marked as handed over, and becomes the exception. -/
theorem Graph.Watched.mark {g : Graph} {e : Engine ε} {slot : Nat} {a : Action}
    (h : g.Watched apart e due none) (hw : g.WellFormed) (ha : g.actions[slot]? = some a)
    (hpending : a.status = .pending) :
    e.Ignores due a.id ∧ (g.setStatusAt slot .executed).Watched apart e due (some a.id) ∧
      (g.setStatusAt slot .executed).action? a.id = some { a with status := .executed } := by
  have hignores := h.ignores (hpending ▸ statusOf_eq_of_getElem? hw ha)
  exact ⟨hignores, (h.weaken a.id).setStatusAt hw ha rfl hignores.unarmed (by simp),
    (hw.action?_setStatusAt ha .executed).2⟩

/-- A dispatch keeps everything that runs waited for. -/
theorem Graph.Watched.dispatch_marked {g : Graph} {e : Engine ε}
    (hnumbered : c.NumbersOnce used → e.Numbered used) {a : Action} {channel : Channel}
    (h : g.Watched (c.NumbersOnce used) e due (some a.id)) (hignores : e.Ignores due a.id)
    (ha : g.action? a.id = some { a with status := .executed })
    (hchannel : a.channel? = some channel) :
    Dispatched (c.NumbersOnce used) g e due a.id
      ((Engine.dispatcher c).dispatch channel a.id g e) := by
  refine dispatch (a := { a with status := .executed }) h hignores ha rfl hchannel ?_
  intro hc call fence hget
  rcases (Engine.dispatch_renumbered g hc channel a.id e).calls call fence hget with
    hold | ⟨hunused, -⟩
  · exact .inl hold
  · refine .inr (Option.eq_none_iff_forall_ne_some.mpr fun f hf => ?_)
    exact hunused (hnumbered hc call f hf)

theorem PassState.Watched.step {x y : PassState (Engine ε)} (hx : x.Watched c used due)
    (h : PassStep (Engine.dispatcher c) x y) : y.Watched c used due := by
  refine ⟨hx.orderly.step (Engine.dispatcher_handles c) h,
    fun hc => (h.renumbered hc).numbered (hx.numbered hc), ?_⟩
  have hw := hx.orderly.wellFormed
  have hplan := h.plan (Engine.dispatcher_handles c)
  cases h with
  | count | ready | skip | fire | fired | conclude =>
    exact hx.watched.of_eq hplan (fun _ => rfl) rfl rfl
  | dispatch pos slots ha hpending hchannel hgoes =>
    obtain ⟨hignores, hmark, hfind⟩ := hx.watched.mark hw ha hpending
    have hdispatched := hmark.dispatch_marked hx.numbered hignores hfind hchannel
    rw [hgoes] at hdispatched
    exact hdispatched
  | @refuse g g' e e' pos slot slots a channel ha hpending hchannel hstays =>
    obtain ⟨hignores, hmark, hfind⟩ := hx.watched.mark hw ha hpending
    have hdispatched := hmark.dispatch_marked hx.numbered hignores hfind hchannel
    rw [hstays] at hdispatched
    obtain ⟨rfl, htimers, hwatched⟩ := hdispatched
    exact hwatched.failFiring (a := { a with status := .executed })
      (hw.of_plan (Graph.plan_setStatusAt ..)) (Graph.getElem?_setStatusAt ha .executed)
      (htimers ▸ hignores.unarmed) pos
  | @unroutable g e pos slot slots a ha hpending hchannel =>
    obtain ⟨hignores, hmark, hfind⟩ := hx.watched.mark hw ha hpending
    exact hmark.failFiring (a := { a with status := .executed })
      (hw.of_plan (Graph.plan_setStatusAt ..)) (Graph.getElem?_setStatusAt ha .executed)
      hignores.unarmed pos
  | @again g e pos slot slots hslot =>
    -- the action does not run, since its synapse has only just fired
    obtain ⟨-, hidle, s, hs, -, hsub⟩ := hx.orderly.firing pos _ rfl
    have hlt := hw.slot_lt (List.mem_of_getElem? hs) (hsub (List.mem_cons_self ..))
    have ha := List.getElem?_eq_getElem hlt
    refine (hx.watched.weaken g.actions[slot].id).failFiring hw ha ?_ pos
    refine Bool.eq_false_iff.mpr fun harmed => hidle slot (List.mem_cons_self ..) ?_
    have hexec := (hx.watched.armed _ harmed).2.1
    rw [Graph.statusOf_eq_of_getElem? hw ha] at hexec
    rw [Graph.statusAt_eq ha, hexec]

end Pass

/-! ## Events -/

/-- A graph with its engine, and the actions whose timers have expired without that having been
reported. -/
structure Watch (ε : Type) where
  graph : Graph
  engine : Engine ε
  due : List ActionId

/-- What can happen while the clock runs. -/
inductive Event where
  | move (m : Move)
  /-- The clock moves forward by a span. -/
  | advance (span : Duration)
  /-- The clock moves forward to the next deadline. -/
  | expireNext

namespace Event

variable {ε : Type} (c : Cluster ε)

/-- The engine after its timers came to `out.2`, with those of `out.1` expired. -/
def expire (w : Watch ε) (out : List Int × Timers) : Watch ε :=
  { w with engine := { w.engine with timers := out.2 }, due := w.due ++ out.1 }

/-- What is due after a move: the report of an expiry is made once. -/
def dueAfter (due : List ActionId) : Move → List ActionId
  | .timeout id => due.filter (· ≠ id)
  | _ => due

/-- What an event does. -/
def make : Event → Watch ε → Watch ε
  | move m, w =>
    ⟨(m.make c (w.graph, w.engine)).1, (m.make c (w.graph, w.engine)).2, dueAfter w.due m⟩
  | advance span, w => expire w (w.engine.timers.advance span)
  | expireNext, w => expire w w.engine.timers.expireNext

/-- What several events do. -/
def makeAll (events : List Event) (w : Watch ε) : Watch ε :=
  events.foldl (fun w ev => ev.make c w) w

/-- A timeout is reported only for an action whose timer has expired. -/
def Possible (w : Watch ε) : Event → Prop
  | move (.timeout id) => id ∈ w.due
  | _ => True

/-- Every event of the run is possible when it happens. -/
def AllPossible : List Event → Watch ε → Prop
  | [], _ => True
  | ev :: events, w => ev.Possible w ∧ AllPossible events (ev.make c w)

end Event

/-- Where a run stands between two events: everything that runs is waited for, if the cluster
numbers fencing requests apart. -/
structure Watch.Kept {ε : Type} (c : Cluster ε) (used : ε → Nat → Prop) (w : Watch ε) : Prop where
  membership : w.graph.Membership
  numbered : c.NumbersOnce used → w.engine.Numbered used
  watched : w.graph.Watched (c.NumbersOnce used) w.engine w.due none

section Events

variable {ε : Type} {apart : Prop} {used : ε → Nat → Prop} {c : Cluster ε}

/-- The clock takes timers from those that are armed to those that are due. -/
theorem Graph.Watched.expire {g : Graph} {e : Engine ε} {due : List ActionId}
    (h : g.Watched apart e due none) {out : List Int × Timers} (hout : e.timers.Expires out) :
    g.Watched apart ({ e with timers := out.2 } : Engine ε) (due ++ out.1) none where
  awaited hapart id hid hexec := by
    rcases h.awaited hapart id hid hexec with hcall | ⟨hfences, harmed | hdue⟩
    · exact .inl hcall
    · by_cases hexpired : id ∈ out.1
      · exact .inr ⟨hfences, .inr (List.mem_append_right _ hexpired)⟩
      · exact .inr ⟨hfences, .inl ((hout.rest id).mpr ⟨harmed, hexpired⟩)⟩
    · exact .inr ⟨hfences, .inr (List.mem_append_left _ hdue)⟩
  armed id hid := by
    obtain ⟨harmed, hunexpired⟩ := (hout.rest id).mp hid
    obtain ⟨hdue, hexec, hfences⟩ := h.armed id harmed
    refine ⟨fun hmem => ?_, hexec, hfences⟩
    rcases List.mem_append.mp hmem with hmem | hmem
    · exact hdue hmem
    · exact hunexpired hmem
  expired id hid := by
    rcases List.mem_append.mp hid with hdue | hexpired
    · exact h.expired id hdue
    · refine begun_of_statusOf ?_
      rw [(h.armed id (hout.due id hexpired)).2.1]
      simp
  calls := h.calls
  single := h.single

/-- **Every possible event keeps what runs waited for.** -/
theorem Watch.Kept.event {w : Watch ε} (h : w.Kept c used) {ev : Event} (hev : ev.Possible w) :
    (ev.make c w).Kept c used := by
  cases ev with
  | advance span =>
    exact ⟨h.membership, h.numbered, h.watched.expire (w.engine.timers.advance_expires span)⟩
  | expireNext =>
    exact ⟨h.membership, h.numbered, h.watched.expire w.engine.timers.expireNext_expires⟩
  | move m =>
    refine ⟨m.membership c (s := (w.graph, w.engine)) h.membership,
      fun hc => (m.renumbered hc (w.graph, w.engine)).numbered (h.numbered hc), ?_⟩
    cases m with
    | pass =>
      have hstart : PassState.Watched c used w.due ⟨.visiting, w.graph, w.engine⟩ :=
        ⟨⟨h.membership.wellFormed, h.membership.untouched, by simp⟩, h.numbered, h.watched⟩
      exact (Graph.run_induction (Engine.dispatcher_steady c)
        (fun _ _ hstep hx => PassState.Watched.step hx hstep) w.graph w.engine hstart).watched
    | result r => exact h.watched.processResult r
    | timeout id => exact h.watched.actionTimedOut hev
    | fencing call outcome => exact h.watched.fencingResult call outcome
    | nodeSafe target => exact h.watched.confirmNodeSafe target
    | abort => exact h.watched.of_eq rfl (fun _ => rfl) rfl rfl

theorem Watch.Kept.events {events : List Event} {w : Watch ε} (h : w.Kept c used)
    (hevents : Event.AllPossible c events w) : (Event.makeAll c events w).Kept c used := by
  induction events generalizing w with
  | nil => exact h
  | cons ev events ih => exact ih (h.event hevents.1) hevents.2

/-- Nothing runs on a graph of the loader, and the engine waits for nothing. -/
theorem Watch.Kept.of_toGraph {d : GraphDocument} {g : Graph} (h : d.toGraph = .ok g)
    {e : Engine ε} (htimers : e.timers.deadlines = .empty) (hcalls : e.fenceCalls = .empty) :
    (⟨g, e, []⟩ : Watch ε).Kept c used := by
  have hloaded := GraphDocument.loadedAs_of_toGraph h
  have hget (call : Nat) : e.fenceCalls.get? call = none := by
    rw [hcalls]
    rfl
  refine ⟨.of_fresh hloaded.wellFormed hloaded.fresh, fun _ call fence hfence => ?_,
    fun _ id _ hexec => ?_, fun id harmed => ?_, by simp, fun call fence hfence => ?_,
    fun call _ fence _ hfence => ?_⟩
  · rw [hget] at hfence
    cases hfence
  · obtain ⟨a, ha, hstatus⟩ := Graph.exists_of_statusOf hexec
    have hpending := (hloaded.fresh.actions a (List.mem_of_find?_eq_some ha)).1
    rw [hstatus] at hpending
    cases hpending
  · obtain ⟨deadline, hdeadline⟩ := Timers.isArmed_iff.mp harmed
    rw [htimers] at hdeadline
    cases hdeadline
  · rw [hget] at hfence
    cases hfence
  · rw [hget] at hfence
    cases hfence

end Events

/-- **Nothing that runs is forgotten.**  Take any run of an engine without timers and fencing
requests on a graph of the loader, in a cluster that never gives two fencing requests one number,
with timeouts reported only for timers that have expired.  When all expiries are reported, every
action that runs is awaited either by its timer or by exactly one fencing request, and every armed
timer is for an action that runs.  And of a synapse that owns actions, one runs while it executes,
and the results of all are known when it is confirmed. -/
theorem no_orphans {d : GraphDocument} {g : Graph} (h : d.toGraph = .ok g) {ε : Type}
    {used : ε → Nat → Prop} {c : Cluster ε} (hc : c.NumbersOnce used) {e : Engine ε}
    (htimers : e.timers.deadlines = .empty) (hcalls : e.fenceCalls = .empty)
    {events : List Event} (hevents : Event.AllPossible c events ⟨g, e, []⟩)
    {g' : Graph} {e' : Engine ε} (hrun : Event.makeAll c events ⟨g, e, []⟩ = ⟨g', e', []⟩) :
    (∀ a ∈ g'.actions, a.status = .executed →
      (e'.timers.isArmed a.id = true ∧
        ∀ call fence, e'.fenceCalls.get? call = some fence → fence.action ≠ a.id) ∨
      (e'.timers.isArmed a.id = false ∧
        ∃! call, ∃ fence, e'.fenceCalls.get? call = some fence ∧ fence.action = a.id)) ∧
    (∀ id, e'.timers.isArmed id = true → ∃ a, g'.action? id = some a ∧ a.status = .executed) ∧
    ∀ s ∈ g'.synapses, s.actions ≠ [] →
      (s.status = .executing → ∃ k ∈ s.actions, g'.statusAt k = some .executed) ∧
      (s.status = .confirmed → ∀ k ∈ s.actions,
        ∃ status, g'.statusAt k = some status ∧ status.isConfirmed = true) := by
  have hstart : Watch.Kept c used ⟨g, e, []⟩ := .of_toGraph h htimers hcalls
  have hend := hstart.events hevents
  rw [hrun] at hend
  obtain ⟨hmembership, -, hwatched⟩ := hend
  refine ⟨fun a ha hexec => ?_, fun id harmed => ?_, fun s hs hne => ⟨fun hstatus => ?_, ?_⟩⟩
  · obtain ⟨k, hk⟩ := List.getElem?_of_mem ha
    have hstatus := hexec ▸ Graph.statusOf_eq_of_getElem? hmembership.wellFormed hk
    rcases hwatched.awaited hc a.id (by simp) hstatus with
      ⟨hfences, call, fence, hfence, haction⟩ | ⟨hfences, harmed | hdue⟩
    · refine .inr ⟨haction ▸ hwatched.unarmed_of_call hfence, call, ⟨fence, hfence, haction⟩, ?_⟩
      rintro call' ⟨fence', hfence', haction'⟩
      exact hwatched.single call' call fence' fence hfence' hfence (haction'.trans haction.symm)
    · refine .inl ⟨harmed, fun call fence hfence haction => hfences ?_⟩
      exact haction ▸ (hwatched.calls call fence hfence).2.2
    · cases hdue
  · exact Graph.exists_of_statusOf (hwatched.armed id harmed).2.1
  · exact hmembership.exists_executed hs hstatus hne
  · exact fun hstatus => hmembership.confirmed s hs hstatus

/-- The fencing of a node and two starts, of which the second may take long. -/
def GraphDocument.fenceAndStarts : GraphDocument where
  transitionId := 1
  synapses :=
    [{ id := 0
       actions :=
         [{ id := 1, kind := .clusterEvent, task := some "stonith", target := some "node3"
            targetUuid := some "uuid3", params := .ofList [("CRM_meta_stonith_action", "off")] }] },
     { id := 1
       actions := [{ id := 2, kind := .resource, task := some "start", target := some "node1" }] },
     { id := 2
       actions :=
         [{ id := 3, kind := .resource, task := some "start", target := some "node2"
            timeout := some 300000 }] }]

/-- A pass, the expiry of the first timer, and its report. -/
def Event.fenceAndStarts : List Event := [.move .pass, .expireNext, .move (.timeout 2)]

/-- The first start is over then; its synapse is confirmed.  The fencing is awaited by its request
and the second start by its timer. -/
theorem fenceAndStarts_no_orphans : ∃ g, GraphDocument.fenceAndStarts.toGraph = .ok g ∧
    let w := Event.makeAll .willing Event.fenceAndStarts ⟨g, .new { node := "node1" } 0, []⟩
    w.graph.actions.map (fun a => (a.id, a.status)) =
        [(1, .executed), (2, .failed .timedOut), (3, .executed)] ∧
      w.engine.timers.deadlines.keys = [3] ∧ w.engine.fenceCalls.keys = [0] ∧
      ∀ a ∈ w.graph.actions, a.status = .executed →
        (w.engine.timers.isArmed a.id = true ∧
          ∀ call fence, w.engine.fenceCalls.get? call = some fence → fence.action ≠ a.id) ∨
        (w.engine.timers.isArmed a.id = false ∧
          ∃! call, ∃ fence, w.engine.fenceCalls.get? call = some fence ∧ fence.action = a.id) := by
  have hstate : ∀ g, GraphDocument.fenceAndStarts.toGraph = .ok g →
      let w := Event.makeAll .willing Event.fenceAndStarts ⟨g, .new { node := "node1" } 0, []⟩
      w.graph.actions.map (fun a => (a.id, a.status)) =
          [(1, .executed), (2, .failed .timedOut), (3, .executed)] ∧
        w.engine.timers.deadlines.keys = [3] ∧ w.engine.fenceCalls.keys = [0] ∧ w.due = [] := by
    rintro _ ⟨⟩
    decide +kernel
  have hexpired : ∀ g, GraphDocument.fenceAndStarts.toGraph = .ok g →
      (2 : ActionId) ∈ (Event.makeAll .willing [.move .pass, .expireNext]
        ⟨g, .new { node := "node1" } 0, []⟩).due := by
    rintro _ ⟨⟩
    decide +kernel
  obtain ⟨g, hg⟩ : ∃ g, GraphDocument.fenceAndStarts.toGraph = .ok g := ⟨_, rfl⟩
  obtain ⟨hactions, htimers, hcalls, hdue⟩ := hstate g hg
  have hpossible : Event.AllPossible .willing Event.fenceAndStarts
      ⟨g, .new { node := "node1" } 0, []⟩ := ⟨trivial, trivial, hexpired g hg, trivial⟩
  have hparts : ∀ w : Watch Nat, w.due = [] → w = ⟨w.graph, w.engine, []⟩ := by
    rintro ⟨_, _, _⟩ rfl
    rfl
  have hkept := no_orphans hg Cluster.willing_numbersOnce rfl rfl hpossible (hparts _ hdue)
  exact ⟨g, hg, hactions, htimers, hcalls, hkept.1⟩

end ClusterTransition
