import ClusterTransition.Proofs.Engine.Members
import ClusterTransition.Proofs.Engine.Numbering
import ClusterTransition.Proofs.Engine.Prerequisites
import ClusterTransition.Proofs.Engine.Refusals

/-! # How long the timer of an action runs

The time that an action may take goes through several hands.  The loader adds the delay of the
start to the timeout, the engine puts the network delay in place of a timeout that is not positive,
and adds it to the result, and the timer takes the sum for an unsigned number.  Each sum stops at
the limits of 64 bits.

In exact integers this is one formula, `ActionDocument.armedMillis`, and every timer that an engine
arms runs for that time (`armed_exactly`).  For this the action that is handed over has to be the
one of the document: whatever a run does to a pending action makes it known, so what is pending is
as it was loaded (`Graph.KeepsPending`).
-/

namespace ClusterTransition

open ClusterTransition.Graph (Edit Edits Completed)

/-! ## The numbers -/

namespace ActionDocument

variable (ad : ActionDocument) (networkDelay : Int)

/-- The timeout of the action once it is sent, in milliseconds: the timeout of the document with the
delay of the start on top, as near as 64 bits allow, or the network delay if that is not
positive. -/
def grantedTimeout : Int :=
  let base := (ad.timeout.or (ad.metaNumber "timeout")).getD 0
  let total := max (-2 ^ 63) (min (base + (ad.metaNumber "start_delay").getD 0) (2 ^ 63 - 1))
  if 0 < total then total else networkDelay

/-- The time after which the timer of the action expires, in milliseconds. -/
def armedMillis : Int := min (max (ad.grantedTimeout networkDelay + networkDelay) 0) (2 ^ 63 - 1)

theorem coercedTimeout_effectiveTimeout :
    Engine.coercedTimeout networkDelay ad.effectiveTimeout = ad.grantedTimeout networkDelay := by
  have hgranted : ad.grantedTimeout networkDelay =
      if 0 < ad.effectiveTimeout then ad.effectiveTimeout else networkDelay := rfl
  rw [hgranted, Engine.coercedTimeout]
  by_cases hpos : 0 < ad.effectiveTimeout
  · rw [if_pos hpos, if_neg (Int.not_le.mpr hpos)]
  · rw [if_neg hpos, if_pos (Int.not_lt.mp hpos)]

theorem timerSpan_grantedTimeout :
    Engine.timerSpan networkDelay (ad.grantedTimeout networkDelay) =
      Duration.ofMillis (ad.armedMillis networkDelay).toNat := by
  have hlimits : (2 : Int) ^ 63 = 9223372036854775808 := by decide
  simp only [Engine.timerSpan, Numeral.clampInt64, armedMillis, hlimits]
  congr 1
  omega

end ActionDocument

/-! ## One dispatch -/

namespace Engine

variable {ε : Type} {c : Cluster ε} {e : Engine ε} {g : Graph} {a : Action}

/-- The engine waits for the result of the action once it is sent: it is a resource operation or an
event of the cluster, it does not say that nobody waits, and it is not the shutdown of the engine's
own node. -/
def awaits (e : Engine ε) (a : Action) : Bool :=
  match a.channel? with
  | some .resource => !a.noWait
  | some .clusterEvent =>
    !a.noWait && !(a.task = some "do_shutdown" && a.route = some e.localNode)
  | some .pseudo | some .fencing | none => false

/-- The timer of an action was armed, and the action has the timeout that is waited for. -/
structure Guarded (timers : Timers) (id : ActionId) (span : Duration) (timeoutMs : Int)
    (out : Graph × Engine ε) : Prop where
  timers : out.2.timers = timers.set id span
  timeout : ∃ a, out.1.action? id = some a ∧ a.op.timeoutMs = timeoutMs

/-- What a dispatch of `a` does to the timers: that of the action is armed if the action went and
its result is awaited, and else none changes. -/
def Timed (e : Engine ε) (g : Graph) (a : Action) (out : Bool × Graph × Engine ε) : Prop :=
  let timeoutMs := coercedTimeout g.networkDelay a.op.timeoutMs
  if out.1 = true ∧ e.awaits a = true then
    Guarded e.timers a.id (timerSpan g.networkDelay timeoutMs) timeoutMs out.2
  else out.2.2.timers = e.timers

/-- Only the timers and the name of the engine's node matter. -/
theorem Timed.of_eq {e' : Engine ε} {out : Bool × Graph × Engine ε} (h : e'.Timed g a out)
    (htimers : e'.timers = e.timers) (hnode : e'.localNode = e.localNode) : e.Timed g a out := by
  have hawaits : e'.awaits a = e.awaits a := by simp only [awaits, hnode]
  rwa [Timed, hawaits, htimers] at h

theorem startActionTimer_guarded {id : ActionId} (ha : g.action? id = some a) (e : Engine ε) :
    Guarded e.timers id
      (timerSpan g.networkDelay (coercedTimeout g.networkDelay a.op.timeoutMs))
      (coercedTimeout g.networkDelay a.op.timeoutMs) (e.startActionTimer g id) := by
  simp only [startActionTimer, ha]
  exact ⟨rfl, _, Graph.action?_modifyAction ha fun _ => rfl, rfl⟩

theorem timers_recordStatus (e : Engine ε) (g : Graph) (id : ActionId) (status : OpStatus)
    (rc : Int) : (e.recordStatus c g id status rc).2.timers = e.timers := by
  simp only [recordStatus]
  split <;> rfl

/-- A record of the action is stored beside its timer. -/
theorem Guarded.recordStatus {timers : Timers} {id : ActionId} {span : Duration} {timeoutMs : Int}
    (h : Guarded timers id span timeoutMs (g, e)) (status : OpStatus) (rc : Int) :
    Guarded timers id span timeoutMs (e.recordStatus c g id status rc) := by
  refine ⟨(timers_recordStatus ..).trans h.timers, ?_⟩
  obtain ⟨b, hb, htimeout⟩ := h.timeout
  simp only [Engine.recordStatus, hb]
  split
  · exact ⟨_, Graph.action?_modifyAction hb fun _ => rfl, htimeout⟩
  · exact ⟨b, hb, htimeout⟩

theorem Timed.recordStatus {g' : Graph} {e' : Engine ε} (h : e.Timed g a (true, g', e'))
    (status : OpStatus) (rc : Int) :
    e.Timed g a (true, e'.recordStatus c g' a.id status rc) := by
  simp only [Timed] at h ⊢
  split
  · rename_i hawaits
    rw [if_pos hawaits] at h
    exact h.recordStatus status rc
  · rename_i hquiet
    rw [if_neg hquiet] at h
    exact (timers_recordStatus ..).trans h

/-- A request that went out is awaited, unless nobody waits for its result. -/
theorem resourceSent_timed (ha : g.action? a.id = some a) (hexec : a.status = .executed)
    (hchannel : a.channel? = some .resource) (e : Engine ε) :
    e.Timed g a (true, e.resourceSent g a) := by
  cases hquiet : a.noWait with
  | true => simp [Timed, awaits, hchannel, resourceSent, hquiet, requestPass]
  | false =>
    have hopen : a.status.isConfirmed = false := by rw [hexec]; rfl
    have hcounted : (g.modifyAction a.id fun a => { a with counted := true }).action? a.id =
        some { a with counted := true } := Graph.action?_modifyAction ha fun _ => rfl
    have hdelay : (g.modifyAction a.id fun a => { a with counted := true }).networkDelay =
        g.networkDelay := by
      simp only [Graph.modifyAction]
      split <;> rfl
    have hguarded := startActionTimer_guarded hcounted
      { e with ledger := e.ledger.recordAction a 1 }
    simpa [Timed, awaits, hchannel, resourceSent, hquiet, hopen, awaitResult, hdelay]
      using hguarded

theorem dispatchResource_timed (ha : g.action? a.id = some a) (hexec : a.status = .executed)
    (hchannel : a.channel? = some .resource) :
    e.Timed g a (dispatchResource c a.id g e) := by
  simp only [dispatchResource, ha]
  split
  · simp [Timed]
  · rename_i target htarget
    obtain ⟨sent, env, -, hsend⟩ := exists_sendRequest c e g a target
    rw [hsend]
    cases sent with
    | false => simp [Timed]
    | true =>
      have hsent : e.Timed g a (true, ({ e with env } : Engine ε).resourceSent g a) :=
        (resourceSent_timed ha hexec hchannel { e with env }).of_eq rfl rfl
      dsimp only
      split
      · exact hsent.recordStatus .pending rcUnknown
      · exact hsent

theorem timers_expectDown (e : Engine ε) (node : String) :
    (e.expectDown node).timers = e.timers := by
  simp only [expectDown]
  split <;> rfl

theorem dispatchEvent_timed (ha : g.action? a.id = some a)
    (hchannel : a.channel? = some .clusterEvent) :
    e.Timed g a (dispatchEvent c a.id g e) := by
  simp only [dispatchEvent, ha]
  split
  · simp [Timed]
  · rename_i target htarget
    have hroute : a.route = some (a.route.getD target) := by
      simp only [Action.route, htarget]
      cases a.router <;> rfl
    split
    · rename_i hlocal
      rw [Bool.and_eq_true, decide_eq_true_eq, decide_eq_true_eq] at hlocal
      rw [hlocal.2] at hroute
      simp [Timed, awaits, hchannel, localShutdown, timers_finishAction, hlocal.1, hroute]
    · rename_i hremote
      have hremote' : (decide (a.task = some "do_shutdown") &&
          decide (a.route.getD target = e.localNode)) = false := by simpa using hremote
      have hawaits : e.awaits a = !a.noWait := by
        rw [awaits, hchannel, hroute]
        simp only [Option.some.injEq, hremote', Bool.not_false, Bool.and_true]
      obtain ⟨e', hexpecting, htimers⟩ : ∃ e', (if a.task = some "do_shutdown" then
          e.expectDown (a.route.getD target) else e) = e' ∧ e'.timers = e.timers := by
        refine ⟨_, rfl, ?_⟩
        split
        · exact timers_expectDown ..
        · rfl
      rw [hexpecting]
      obtain ⟨sent, env, -, hsend⟩ := exists_sendRequest c e' g a target
      rw [hsend]
      cases sent with
      | false => simp [Timed, htimers]
      | true =>
        cases hquiet : a.noWait with
        | true => simp [Timed, hawaits, hquiet, timers_finishAction, htimers]
        | false =>
          have hguarded := startActionTimer_guarded ha { e' with env }
          simpa [Timed, hawaits, hquiet, htimers] using hguarded

theorem dispatchFencing_timed (ha : g.action? a.id = some a)
    (hchannel : a.channel? = some .fencing) : e.Timed g a (dispatchFencing c a.id g e) := by
  have hquiet : e.awaits a = false := by simp [awaits, hchannel]
  simp only [Timed, hquiet, Bool.false_eq_true, and_false, if_false, dispatchFencing, ha]
  split
  · split <;> rfl
  · rfl

theorem dispatchPseudo_timed (hchannel : a.channel? = some .pseudo) :
    e.Timed g a (dispatchPseudo a.id g e) := by
  simp [Timed, awaits, hchannel, dispatchPseudo, timers_finishAction]

/-- **A dispatch arms one timer or none**, and one exactly if the result is awaited. -/
theorem dispatch_timed {channel : Channel} (ha : g.action? a.id = some a)
    (hexec : a.status = .executed) (hchannel : a.channel? = some channel) (e : Engine ε) :
    e.Timed g a ((dispatcher c).dispatch channel a.id g e) := by
  cases channel with
  | pseudo => exact dispatchPseudo_timed hchannel
  | resource => exact dispatchResource_timed ha hexec hchannel
  | clusterEvent => exact dispatchEvent_timed ha hchannel
  | fencing => exact dispatchFencing_timed ha hchannel

end Engine

/-! ## Pending actions -/

namespace Graph

variable {g g' g'' : Graph} {id : ActionId}

/-- What is pending in `g'` is as it was in `g`. -/
def KeepsPending (g g' : Graph) : Prop :=
  ∀ (k : Nat) (a : Action), g'.actions[k]? = some a → a.status = .pending →
    g.actions[k]? = some a

theorem KeepsPending.refl (g : Graph) : g.KeepsPending g := fun _ _ ha _ => ha

theorem KeepsPending.trans (h : g.KeepsPending g') (h' : g'.KeepsPending g'') :
    g.KeepsPending g'' :=
  fun k a ha hpending => h k a (h' k a ha hpending) hpending

/-- An edit on behalf of an action changes no other action. -/
theorem Edit.getElem?_other (h : Edit id g g') {k : Nat} (hk : g.slotOf? id ≠ some k) :
    g'.actions[k]? = g.actions[k]? := by
  have hmodify (f : Action → Action) : (g.modifyAction id f).actions[k]? = g.actions[k]? := by
    simp only [modifyAction]
    split
    · rfl
    · rename_i slot hslot
      have hne : slot ≠ k := by
        rintro rfl
        exact hk hslot
      simp [hne]
  cases h with
  | note => exact hmodify _
  | settle status =>
    simp only [Graph.settle]
    split
    · rfl
    · split
      · rfl
      · exact hmodify _
  | spread ha hc =>
    obtain ⟨slot, hslot, hget, -⟩ := exists_slot_of_action? ha
    rw [update_of_confirmed hslot hget hc]
  | abort | shutdown => rfl

theorem Edits.getElem?_other (h : Edits id g g') {k : Nat} (hk : g.slotOf? id ≠ some k) :
    g'.actions[k]? = g.actions[k]? := by
  induction h with
  | refl => rfl
  | tail steps step ih =>
    refine (step.getElem?_other ?_).trans ih
    rwa [slotOf?_eq_of_plan (Edits.plan steps)]

/-- What is done on behalf of an action does not touch what is pending, unless the action itself
stays pending. -/
theorem Edits.keepsPending (h : Edits id g g')
    (hself : ∀ k, g.slotOf? id = some k → g'.statusAt k ≠ some .pending) : g.KeepsPending g' := by
  intro k a ha hpending
  by_cases hk : g.slotOf? id = some k
  · exact absurd (hpending ▸ statusAt_eq ha) (hself k hk)
  · rw [← h.getElem?_other hk, ha]

/-- A completion leaves no pending action behind. -/
theorem Completed.keepsPending (h : g.Completed g') : g.KeepsPending g' := by
  obtain ⟨id, g₁, hedits, rfl⟩ := h
  have hall : Edits id g ((g₁.settle id .confirmed).2.update id).2 :=
    hedits.trans (Edits.finish g₁ rfl)
  refine hall.keepsPending fun k hk => statusAt_finish_ne_pending g₁ ?_
  rwa [slotOf?_eq_of_plan hedits.plan]

theorem keepsPending_of_completions (h : Relation.ReflTransGen Completed g g') :
    g.KeepsPending g' := by
  induction h with
  | refl => exact .refl g
  | tail _ step ih => exact ih.trans step.keepsPending

/-- A status other than pending is set. -/
theorem keepsPending_setStatusAt (g : Graph) (slot : Nat) (status : ActionStatus)
    (hstatus : status ≠ .pending) : g.KeepsPending (g.setStatusAt slot status) := by
  intro k a ha hpending
  simp only [setStatusAt, List.getElem?_modify] at ha
  obtain ⟨b, hb, rfl⟩ := Option.map_eq_some_iff.mp ha
  split at hpending
  · exact absurd hpending hstatus
  · rename_i hne
    rw [if_neg hne, hb]

theorem keepsPending_failFiring (g : Graph) (pos slot : Nat) :
    g.KeepsPending (g.failFiring pos slot) :=
  keepsPending_setStatusAt g slot (.failed .initiation) (by simp)

/-- An action that is handed over is pending no longer, whatever is done on its behalf. -/
theorem keepsPending_handed {slot : Nat} {a : Action} (hw : g.WellFormed)
    (ha : g.actions[slot]? = some a) (h : Edits a.id (g.setStatusAt slot .executed) g') :
    g.KeepsPending g' := by
  have hmarks := keepsPending_setStatusAt g slot .executed (by simp)
  refine hmarks.trans (h.keepsPending fun k hk hpending => ?_)
  obtain rfl : slot = k :=
    Option.some.inj ((hw.action?_setStatusAt ha .executed).1.symm.trans hk)
  have hmarked := pending_of_edits h hpending
  rw [statusAt_eq (getElem?_setStatusAt ha .executed)] at hmarked
  cases hmarked

end Graph

/-! ## The calls of a run -/

/-- The call hands over an action of `g` as it was, but for the mark that it was handed over. -/
def DispatchCall.Hands (g : Graph) (call : DispatchCall) : Prop :=
  ∃ a ∈ g.actions, a.id = call.id ∧ a.channel? = some call.channel ∧
    call.graph.action? call.id = some { a with status := .executed } ∧
    call.graph.networkDelay = g.networkDelay

/-- What is pending in the pass is as it was in `g`, and so was all that was handed over. -/
structure PassState.Hands {σ : Type} (g : Graph) (x : PassState (σ × List DispatchCall)) :
    Prop where
  plan : x.graph.plan = g.plan
  pending : g.KeepsPending x.graph
  calls : ∀ call ∈ x.state.2, call.Hands g

section Pass

variable {σ : Type} {d : Dispatcher σ} {g₀ : Graph}

/-- The record of a call that was made. -/
theorem Dispatcher.calls_of_recording {channel : Channel} {id : ActionId} {g g' : Graph}
    {st st' : σ × List DispatchCall} {ok : Bool}
    (h : d.recording.dispatch channel id g st = (ok, g', st')) :
    st'.2 = st.2 ++ [⟨channel, id, g⟩] := by
  simp only [recording, Prod.mk.injEq] at h
  rw [← h.2.2]

theorem PassState.Hands.step (hw : g₀.WellFormed) (hd : d.Handles)
    {x y : PassState (σ × List DispatchCall)} (hx : x.Hands g₀) (h : PassStep d.recording x y) :
    y.Hands g₀ := by
  have hplan := (h.plan hd.recording).trans hx.plan
  have hnow := hw.of_plan hx.plan
  have hdelay : x.graph.plan.networkDelay = g₀.plan.networkDelay := by rw [hx.plan]
  have hcalls {slot : Nat} {a : Action} {channel : Channel} {ok : Bool} {g' : Graph}
      {st' : σ × List DispatchCall} (ha : x.graph.actions[slot]? = some a)
      (hpending : a.status = .pending) (hchannel : a.channel? = some channel)
      (hout : d.recording.dispatch channel a.id (x.graph.setStatusAt slot .executed) x.state =
        (ok, g', st')) : ∀ call ∈ st'.2, call.Hands g₀ := by
    intro call hmem
    rw [Dispatcher.calls_of_recording hout] at hmem
    rcases List.mem_append.mp hmem with hmem | hmem
    · exact hx.calls call hmem
    · rw [List.mem_singleton.mp hmem]
      exact ⟨a, List.mem_of_getElem? (hx.pending slot a ha hpending), rfl, hchannel,
        (hnow.action?_setStatusAt ha .executed).2, hdelay⟩
  cases h with
  | count | ready | skip | fire | fired | conclude => exact ⟨hplan, hx.pending, hx.calls⟩
  | @dispatch g g' st st' pos slot slots a channel ha hpending hchannel hgoes =>
    have hhanded := Graph.keepsPending_handed hnow ha (hd.recording.edits hgoes)
    exact ⟨hplan, hx.pending.trans hhanded, hcalls ha hpending hchannel hgoes⟩
  | @refuse g g' st st' pos slot slots a channel ha hpending hchannel hstays =>
    have hhanded := Graph.keepsPending_handed hnow ha (hd.recording.edits hstays)
    have hfailed := Graph.keepsPending_failFiring g' pos slot
    exact ⟨hplan, (hx.pending.trans hhanded).trans hfailed, hcalls ha hpending hchannel hstays⟩
  | @unroutable g st pos slot slots a =>
    have hmarked := Graph.keepsPending_setStatusAt g slot .executed (by simp)
    have hfailed := Graph.keepsPending_failFiring (g.setStatusAt slot .executed) pos slot
    exact ⟨hplan, (hx.pending.trans hmarked).trans hfailed, hx.calls⟩
  | @again g st pos slot =>
    exact ⟨hplan, hx.pending.trans (Graph.keepsPending_failFiring g pos slot), hx.calls⟩

/-- **A pass hands over what is pending as it was**, and leaves the rest of it alone. -/
theorem Graph.calls_hands (hsteady : d.Steady) (hd : d.Handles) (hw : g₀.WellFormed) {g : Graph}
    (hplan : g.plan = g₀.plan) (hpending : g₀.KeepsPending g) (st : σ) :
    (∀ call ∈ g.calls d st, call.Hands g₀) ∧ g₀.KeepsPending (g.run d st).2.1 := by
  have hstart : PassState.Hands g₀ ⟨.visiting, g, (st, ([] : List DispatchCall))⟩ :=
    ⟨hplan, hpending, by simp⟩
  have hend := Graph.run_induction hsteady.recording (fun _ _ hstep hx => hx.step hw hd hstep)
    g (st, []) hstart
  refine ⟨hend.calls, ?_⟩
  rw [Graph.run_recording d g (st, [])]
  exact hend.pending

end Pass

namespace Move

variable {ε : Type} (c : Cluster ε) {g₀ : Graph}

/-- No move touches what stays pending. -/
theorem keepsPending (hw : g₀.WellFormed) (m : Move) {s : Graph × Engine ε}
    (hplan : s.1.plan = g₀.plan) (hpending : g₀.KeepsPending s.1) :
    g₀.KeepsPending (m.make c s).1 := by
  have hreport {g' : Graph} (hcases : g' = s.1 ∨ s.1.Completed g') : g₀.KeepsPending g' := by
    rcases hcases with rfl | hcompleted
    · exact hpending
    · exact hpending.trans hcompleted.keepsPending
  cases m with
  | pass => exact (Graph.calls_hands (Engine.dispatcher_steady c) (Engine.dispatcher_handles c) hw
      hplan hpending s.2).2
  | result r => exact hreport (Engine.processResult_completed s.2 s.1 r)
  | timeout id => exact hreport (Engine.actionTimedOut_completed c s.2 s.1 id)
  | fencing call outcome => exact hreport (Engine.fencingResult_completed c s.2 s.1 call outcome)
  | nodeSafe target =>
    simp only [make, Engine.confirmNodeSafe]
    split
    · exact hpending
    · exact hpending.trans
        (Graph.keepsPending_of_completions (Engine.completeFencing_completed c _ s.1 _))
  | abort => exact hpending

/-- **Every call of a run hands over an action as it was at the beginning.** -/
theorem allCalls_hands (hw : g₀.WellFormed) (moves : List Move) {s : Graph × Engine ε}
    (hplan : s.1.plan = g₀.plan) (hpending : g₀.KeepsPending s.1) :
    ∀ call ∈ allCalls c moves s, call.Hands g₀ := by
  induction moves generalizing s with
  | nil => simp [allCalls]
  | cons m moves ih =>
    intro call hmem
    rcases List.mem_append.mp hmem with hmem | hmem
    · cases m with
      | pass =>
        exact (Graph.calls_hands (Engine.dispatcher_steady c) (Engine.dispatcher_handles c) hw
          hplan hpending s.2).1 call hmem
      | result | timeout | fencing | nodeSafe | abort => cases hmem
    · exact ih ((m.plan c s).trans hplan) (m.keepsPending c hw hplan hpending) call hmem

end Move

/-! ## The timers of a run -/

/-- The action is that of a document, so the numbers are those of the document. -/
theorem Engine.Timed.of_document {ε : Type} {e : Engine ε} {g : Graph} {ad : ActionDocument}
    {out : Bool × Graph × Engine ε}
    (h : e.Timed g { ad.toAction with status := .executed } out) :
    if out.1 = true ∧ e.awaits ad.toAction = true then
      out.2.2.timers =
        e.timers.set ad.id (Duration.ofMillis (ad.armedMillis g.networkDelay).toNat) ∧
      ∃ a, out.2.1.action? ad.id = some a ∧ a.op.timeoutMs = ad.grantedTimeout g.networkDelay
    else out.2.2.timers = e.timers := by
  have hsame : e.awaits { ad.toAction with status := .executed } = e.awaits ad.toAction := rfl
  have hgranted := ad.coercedTimeout_effectiveTimeout g.networkDelay
  rw [Timed, hsame] at h
  split
  · rename_i hawaits
    rw [if_pos hawaits] at h
    obtain ⟨htimers, a, ha, htimeout⟩ := h
    refine ⟨htimers.trans ?_, a, ha, htimeout.trans hgranted⟩
    rw [← ad.timerSpan_grantedTimeout, ← hgranted]
    rfl
  · rename_i hquiet
    rwa [if_neg hquiet] at h

/-- **Timers never wrap.**  A graph has the work of a document, with whatever settings.  Whenever an
engine hands over one of its actions, the action is that of the document.  If it goes and its result
is awaited, its timer is armed for the time that the document and the network delay ask for, in
exact integers, and the action has the timeout that is granted to it; else no timer is armed. -/
theorem armed_exactly {d : GraphDocument} {g g₀ : Graph} (h : d.toGraph = .ok g)
    (hwork : g₀.synapses = g.synapses ∧ g₀.actions = g.actions) {ε : Type} (c : Cluster ε)
    (e : Engine ε) (moves : List Move) :
    ∀ call ∈ Move.allCalls c moves (g₀, e), ∃ ad ∈ d.arena, ad.id = call.id ∧
      call.graph.action? call.id = some { ad.toAction with status := .executed } ∧
      ∀ e₁ : Engine ε,
        let out := (Engine.dispatcher c).dispatch call.channel call.id call.graph e₁
        if out.1 = true ∧ e₁.awaits ad.toAction = true then
          out.2.2.timers = e₁.timers.set ad.id
            (Duration.ofMillis (ad.armedMillis g₀.networkDelay).toNat) ∧
          ∃ a, out.2.1.action? ad.id = some a ∧
            a.op.timeoutMs = ad.grantedTimeout g₀.networkDelay
        else out.2.2.timers = e₁.timers := by
  have hloaded := GraphDocument.loadedAs_of_toGraph h
  have hw : g₀.WellFormed := by
    obtain ⟨hids, howned, hinputs⟩ := hloaded.wellFormed
    exact ⟨by rwa [hwork.2], by rwa [hwork.1, hwork.2], by rwa [hwork.1, hwork.2]⟩
  intro call hmem
  obtain ⟨a, ha, hid, hchannel, hfound, hdelay⟩ :=
    Move.allCalls_hands c hw moves rfl (.refl g₀) call hmem
  rw [hwork.2, hloaded.actions] at ha
  obtain ⟨ad, had, rfl⟩ := List.mem_map.mp ha
  refine ⟨ad, had, hid, hfound, fun e₁ => ?_⟩
  rw [← hid] at hfound ⊢
  have htimed := Engine.dispatch_timed (c := c) (a := { ad.toAction with status := .executed })
    hfound rfl hchannel e₁
  rw [← hdelay]
  exact htimed.of_document

/-- Two starts.  The first may take as long as 64 bits allow and starts late; the timeout of the
second cannot be read, and its start comes early. -/
def GraphDocument.extremeStarts : GraphDocument where
  transitionId := 1
  networkDelay := some 1000
  synapses :=
    [{ id := 0
       actions :=
         [{ id := 1, kind := .resource, task := some "start", target := some "node1"
            timeout := some 9223372036854775807
            params := Table.empty.insert "CRM_meta_start_delay" " 5000 " },
          { id := 2, kind := .resource, task := some "start", target := some "node2"
            params := (Table.empty.insert "CRM_meta_timeout" "20s").insert
              "CRM_meta_start_delay" "-7" }] }]

/-- The first timer runs for as long as a timer can, and the second for twice the network delay. -/
theorem extremeStarts_armed : ∃ g, GraphDocument.extremeStarts.toGraph = .ok g ∧
    let s := (g, Engine.new { node := "node1" } 0)
    (Move.makeAll .willing [.pass] s).2.timers.deadlines.entries =
        [(1, Duration.ofMillis 9223372036854775807), (2, Duration.ofMillis 2000)] ∧
      (Move.allCalls .willing [.pass] s).map (·.id) = [1, 2] ∧
      ∀ call ∈ Move.allCalls .willing [.pass] s,
        ∃ millis : Nat, (call.id, millis) ∈ [((1 : ActionId), 9223372036854775807), (2, 2000)] ∧
          ∀ e : Engine Nat,
            let out := (Engine.dispatcher .willing).dispatch call.channel call.id call.graph e
            out.1 = true → out.2.2.timers = e.timers.set call.id (Duration.ofMillis millis) := by
  have hrun : ∀ g, GraphDocument.extremeStarts.toGraph = .ok g →
      let s := (g, Engine.new { node := "node1" } 0)
      (Move.makeAll .willing [.pass] s).2.timers.deadlines.entries =
          [(1, Duration.ofMillis 9223372036854775807), (2, Duration.ofMillis 2000)] ∧
        (Move.allCalls .willing [.pass] s).map (·.id) = [1, 2] ∧ g.networkDelay = 1000 := by
    rintro _ ⟨⟩
    decide +kernel
  have hdocument : ∀ ad ∈ GraphDocument.extremeStarts.arena,
      (ad.id, (ad.armedMillis 1000).toNat) ∈
          [((1 : ActionId), 9223372036854775807), (2, 2000)] ∧
        ad.toAction.noWait = false ∧ ad.toAction.channel? = some .resource := by
    decide +kernel
  obtain ⟨g, hg⟩ : ∃ g, GraphDocument.extremeStarts.toGraph = .ok g := ⟨_, rfl⟩
  obtain ⟨hdeadlines, hids, hdelay⟩ := hrun g hg
  refine ⟨g, hg, hdeadlines, hids, fun call hcall => ?_⟩
  obtain ⟨ad, had, hid, -, hall⟩ := armed_exactly hg ⟨rfl, rfl⟩ .willing
    (Engine.new { node := "node1" } 0) [.pass] call hcall
  obtain ⟨hmillis, hquiet, hchannel⟩ := hdocument ad had
  refine ⟨(ad.armedMillis 1000).toNat, hid ▸ hmillis, fun e hgoes => ?_⟩
  have hawaits : e.awaits ad.toAction = true := by simp [Engine.awaits, hchannel, hquiet]
  have harmed := hall e
  rw [if_pos ⟨hgoes, hawaits⟩, hdelay, hid] at harmed
  exact harmed.1

end ClusterTransition
