import ClusterTransition.Proofs.Engine.Quiescence

/-! # Passes that request no other

An engine asks for another pass whenever it completes an action.  So in a pass that requests no
other nothing was completed: the synapses that were not fired stay as they are, those that were
fired execute or have failed, and the ledger only fills.  Whatever put a synapse off when the pass
came by puts it off still when the pass is over (`Graph.Surveyed`).

That leaves a second pass nothing to do (`Graph.stuck_of_quiet`), also where the batch limit has cut
the first one short: what was counted as pending executes, and the second pass counts it again.
-/

namespace ClusterTransition

/-! ## Quiet dispatches -/

namespace Engine

variable {ε : Type} {c : Cluster ε}

/-- Completing an action asks for another pass. -/
theorem passRequested_finishAction (e : Engine ε) (g : Graph) (id : ActionId) :
    (e.finishAction g id).2.passRequested = true := rfl

theorem startActionTimer_quiet (e : Engine ε) (g : Graph) (id : ActionId) :
    (e.startActionTimer g id).2.passRequested = e.passRequested ∧
      (e.startActionTimer g id).1.synapses = g.synapses := by
  simp only [startActionTimer]
  split
  · exact ⟨rfl, rfl⟩
  · exact ⟨rfl, Graph.synapses_modifyAction ..⟩

theorem recordStatus_quiet (e : Engine ε) (g : Graph) (id : ActionId) (status : OpStatus)
    (rc : Int) : (e.recordStatus c g id status rc).2.passRequested = e.passRequested ∧
      (e.recordStatus c g id status rc).1.synapses = g.synapses := by
  simp only [recordStatus]
  split
  · exact ⟨rfl, rfl⟩
  · refine ⟨rfl, ?_⟩
    dsimp only
    split
    · exact Graph.synapses_modifyAction ..
    · rfl

theorem resourceSent_quiet {e : Engine ε} {g : Graph} {a : Action}
    (hquiet : (e.resourceSent g a).2.passRequested = false) :
    e.passRequested = false ∧ (e.resourceSent g a).1.synapses = g.synapses := by
  unfold resourceSent at hquiet ⊢
  split at hquiet
  · cases hquiet
  · rename_i hwaits
    rw [if_neg hwaits]
    split at hquiet
    · rename_i hknown
      rw [if_pos hknown]
      exact ⟨hquiet, rfl⟩
    · rename_i hopen
      rw [if_neg hopen]
      obtain ⟨hsame, hsynapses⟩ := startActionTimer_quiet
        { e with ledger := e.ledger.recordAction a 1 }
        (g.modifyAction a.id fun a => { a with counted := true }) a.id
      exact ⟨hsame.symm.trans hquiet, hsynapses.trans (Graph.synapses_modifyAction ..)⟩

/-- **A dispatch that requests no pass completes nothing**: the synapses stay as they are. -/
theorem dispatch_quiet {channel : Channel} {id : ActionId} {g : Graph} {e : Engine ε}
    {out : Bool × Graph × Engine ε} (hgoes : (dispatcher c).dispatch channel id g e = out)
    (hquiet : out.2.2.passRequested = false) :
    e.passRequested = false ∧ out.2.1.synapses = g.synapses := by
  cases hfind : g.action? id with
  | none =>
    have hrefuses (h : out = (false, g, e)) :
        e.passRequested = false ∧ out.2.1.synapses = g.synapses := by
      subst h
      exact ⟨hquiet, rfl⟩
    cases channel with
    | pseudo =>
      cases hgoes
      cases hquiet
    | resource => exact hrefuses (by simp only [← hgoes, dispatcher, dispatchResource, hfind])
    | clusterEvent => exact hrefuses (by simp only [← hgoes, dispatcher, dispatchEvent, hfind])
    | fencing => exact hrefuses (by simp only [← hgoes, dispatcher, dispatchFencing, hfind])
  | some a =>
    obtain ⟨-, -, -, rfl⟩ := Graph.exists_slot_of_action? hfind
    have hout := dispatch_outcome c e hfind channel
    rw [hgoes] at hout
    cases hout with
    | refused | fenced => exact ⟨hquiet, rfl⟩
    | marker | shutdown | told => cases hquiet
    | sent env => exact resourceSent_quiet (e := { e with env }) hquiet
    | recorded env _ hsent =>
      obtain ⟨hsame, hsynapses⟩ := recordStatus_quiet (c := c) _ _ a.id .pending rcUnknown
      have hbefore := hsame.symm.trans hquiet
      have hfirst := resourceSent_quiet (e := { e with env }) (g := g) (a := a)
      rw [hsent] at hfirst
      obtain ⟨hunasked, hkept⟩ := hfirst hbefore
      exact ⟨hunasked, hsynapses.trans hkept⟩
    | asked env down =>
      obtain ⟨hsame, hsynapses⟩ := startActionTimer_quiet
        ({ e with env, expectedDown := down } : Engine ε) g a.id
      exact ⟨hsame.symm.trans hquiet, hsynapses⟩

end Engine

/-- A request is not taken back within a pass. -/
theorem PassStep.quiet {ε : Type} {c : Cluster ε} {x y : PassState (Engine ε)}
    (h : PassStep (Engine.dispatcher c) x y) (hquiet : y.state.passRequested = false) :
    x.state.passRequested = false := by
  cases h with
  | count | ready | skip | fire | unroutable | again | fired | conclude => exact hquiet
  | dispatch _ _ _ _ _ hgoes => exact (Engine.dispatch_quiet hgoes hquiet).1
  | refuse _ _ _ _ _ hstays => exact (Engine.dispatch_quiet hstays hquiet).1

theorem PassSteps.quiet {ε : Type} {c : Cluster ε} {x y : PassState (Engine ε)}
    (h : PassSteps (Engine.dispatcher c) x y) (hquiet : y.state.passRequested = false) :
    x.state.passRequested = false := by
  induction h with
  | refl => exact hquiet
  | tail _ step ih => exact ih (step.quiet hquiet)

namespace Graph

variable {ε : Type} {c : Cluster ε}

/-- **A synapse that is fired in a quiet pass** leaves the others alone. -/
theorem fireActions_quiet {pos : Nat} {slots : List Nat} {g g' : Graph} {e e' : Engine ε}
    {ok : Bool} (h : fireActions (Engine.dispatcher c) pos slots g e = (ok, g', e'))
    (hquiet : e'.passRequested = false) :
    g'.synapses = if ok then g.synapses else (g.setSynapseStatus pos .failed).synapses := by
  induction slots generalizing g e with
  | nil =>
    cases h
    rfl
  | cons slot slots ih =>
    have hstep {g₁ : Graph} {e₁ : Engine ε} {ok : Bool}
        (hgo : initiateAction (Engine.dispatcher c) slot g e = (ok, g₁, e₁))
        (hquiet : e₁.passRequested = false) : g₁.synapses = g.synapses := by
      unfold initiateAction at hgo
      split at hgo
      · cases hgo
        rfl
      · split at hgo
        · cases hgo
          rfl
        · split at hgo
          · cases hgo
            rfl
          · exact (Engine.dispatch_quiet hgo hquiet).2
    simp only [fireActions] at h
    split at h
    · rename_i g₁ e₁ hgo
      have hfirst : e₁.passRequested = false := (fireActions_steps h).quiet hquiet
      have hsame := hstep hgo hfirst
      rw [ih h]
      split
      · exact hsame
      · simp only [setSynapseStatus, hsame]
    · rename_i g₁ e₁ hgo
      cases h
      simp only [Bool.false_eq_true, if_false, setSynapseStatus, synapses_setStatusAt,
        hstep hgo hquiet]

/-! ## Quiet visits -/

/-- How many synapses execute. -/
def running (g : Graph) : Nat := g.synapses.countP (·.status = .executing)

/-- A synapse that does not execute gets a status. -/
theorem running_setSynapseStatus {g : Graph} {pos : Nat} {s : Synapse}
    (hs : g.synapses[pos]? = some s) (hidle : s.status ≠ .executing) (status : SynapseStatus) :
    (g.setSynapseStatus pos status).running =
      g.running + if status = .executing then 1 else 0 := by
  obtain ⟨hpos, rfl⟩ := List.getElem?_eq_some_iff.mp hs
  have hset : (g.setSynapseStatus pos status).synapses =
      g.synapses.set pos { g.synapses[pos] with status } := by
    simp [setSynapseStatus, List.modify_eq_set_getElem?, List.getElem?_eq_getElem hpos]
  simp only [running, hset, List.countP_set hpos, decide_eq_true_eq]
  rw [if_neg hidle, Nat.sub_zero]

/-- Something puts the synapse off: an input is open, or there is no room for one of its actions. -/
inductive PutOff (g : Graph) (e : Engine ε) (s : Synapse) : Prop where
  | closed (hinputs : s.inputsSatisfied g.actions = false)
  | crowded {slot : Nat} {a : Action} (hslot : slot ∈ s.actions) (ha : g.actions[slot]? = some a)
      (hpseudo : a.isPseudo = false) (hroom : e.ledger.mayFire e.jobLimit g a = false)

/-- **What puts a synapse off still does** when the synapse has stayed as it is, what had failed has
failed still, and the ledger has only filled. -/
theorem PutOff.of_le {g g' : Graph} {e e' : Engine ε} {s : Synapse} (h : g.PutOff e s)
    (hplan : g'.plan = g.plan) (hfailed : ∀ k, g.FailedAt k → g'.FailedAt k)
    (hledger : e.ledger.Le e'.ledger) (hlimit : e'.jobLimit = e.jobLimit) : g'.PutOff e' s := by
  cases h with
  | closed hinputs =>
    cases hnow : s.inputsSatisfied g'.actions with
    | false => exact .closed hnow
    | true =>
      have hmarks : s.MarkedFor [] s := .of_eq rfl
      obtain ⟨_, -, hnone⟩ := exists_marked_of_satisfied hplan rfl hfailed hmarks hinputs hnow
      cases hnone
  | crowded hslot ha hpseudo hroom =>
    obtain ⟨a', ha', hkept⟩ := action_of_plan hplan.symm ha
    exact .crowded hslot ha' (show a'.plan.isPseudo = false from hkept ▸ hpseudo)
      (Engine.crowded_of_le hplan hkept.symm hledger hlimit hroom)

/-- Where a quiet pass stands when it has visited the synapses before `k`. -/
structure Surveyed (k : Nat) (g : Graph) (e : Engine ε) : Prop where
  exact : PassState.Exact ⟨.visiting, g, e⟩
  fired : g.counters.fired ≤ g.counters.pending
  pending : g.counters.pending ≤ g.running
  behind : ∀ (p : Nat) (s : Synapse), p < k → g.synapses[p]? = some s → s.Waits → g.PutOff e s

section Visit

variable {g : Graph} {e : Engine ε} {k : Nat} {s : Synapse} {out : Graph × Engine ε}

/-- A synapse that waits gets a status. -/
theorem running_of_waits (hs : g.synapses[k]? = some s) (hwaits : s.Waits)
    (status : SynapseStatus) : (g.setSynapseStatus k status).running =
      g.running + if status = .executing then 1 else 0 := by
  refine running_setSynapseStatus hs ?_ status
  rcases hwaits with h | h <;> simp [h]

theorem Rests.running {σ : Type} {d : Dispatcher σ} {st : σ} {status : SynapseStatus}
    {f : PassCounters → PassCounters} (hs : g.synapses[k]? = some s)
    (h : Rests d k s g st status f) : (g.setSynapseStatus k status).running = g.running := by
  cases h with
  | settled | underway | closed => rw [setSynapseStatus_self hs]
  | held hwaits => exact running_of_waits hs hwaits .ready
  | vetoed hwaits => exact running_of_waits hs hwaits .skipped

/-- A synapse that waits after a visit that has left it alone is put off. -/
theorem Rests.putOff {status : SynapseStatus} {f : PassCounters → PassCounters}
    (hw : g.WellFormed) (h : Rests (Engine.dispatcher c) k s g e status f)
    (hwaits : Synapse.Waits { s with status }) :
    ((g.setSynapseStatus k status).count f).PutOff e { s with status } := by
  cases h with
  | settled hstatus | underway hstatus =>
    rcases hstatus with h | h <;> simp [Synapse.Waits, h] at hwaits
  | closed _ hinputs => exact .closed hinputs
  | held _ _ hslot ha hpseudo hlevel hask =>
    refine .crowded hslot ha hpseudo ?_
    rw [Engine.allowed_eq c (hw.of_plan (plan_setSynapseStatus ..)) e ha] at hask
    exact hask
  | vetoed => simp [Synapse.Waits] at hwaits

/-- A synapse that is fired in a quiet pass executes or has failed. -/
theorem fireSynapse_quiet {f : PassCounters → PassCounters} {slots : List Nat} {ok : Bool}
    {g' : Graph} {e' : Engine ε}
    (h : fireSynapse (Engine.dispatcher c) k slots ((g.setSynapseStatus k .ready).count f) e =
      (ok, g', e')) (hquiet : e'.passRequested = false) :
    g'.synapses = (g.setSynapseStatus k (if ok then .executing else .failed)).synapses := by
  have hkept := fireActions_quiet h hquiet
  have hexec := congrArg Graph.synapses (setSynapseStatus_twice g k .ready .executing)
  cases ok with
  | true => exact hkept.trans hexec
  | false =>
    have hfailed := congrArg Graph.synapses (setSynapseStatus_twice g k .executing .failed)
    simp only [Bool.false_eq_true, if_false] at hkept ⊢
    rw [hkept, ← hfailed]
    simp only [setSynapseStatus] at hexec ⊢
    exact congrArg (List.modify · k _) hexec

/-- What a quiet visit makes of the synapses, and counts. -/
theorem Visited.quiet (hs : g.synapses[k]? = some s) (hw : g.WellFormed)
    (h : Visited (Engine.dispatcher c) k s g e out) (hquiet : out.2.passRequested = false) :
    ∃ status, out.1.synapses = (g.setSynapseStatus k status).synapses ∧
      (Synapse.Waits { s with status } → out.1.PutOff out.2 { s with status }) ∧
      (g.counters.fired ≤ g.counters.pending → out.1.counters.fired ≤ out.1.counters.pending) ∧
      (g.counters.pending ≤ g.running → out.1.counters.pending ≤ out.1.running) := by
  have hd := Engine.dispatcher_handles c
  have hcount {g' : Graph} {status : SynapseStatus}
      (hsame : g'.synapses = (g.setSynapseStatus k status).synapses) :
      g'.running = (g.setSynapseStatus k status).running := by
    simp only [Graph.running, hsame]
  cases h with
  | @rests status f hrests =>
    refine ⟨status, rfl, hrests.putOff hw, ?_, ?_⟩
    · cases hrests <;> exact fun h => h
    · have hrunning : ((g.setSynapseStatus k status).count f).running = g.running :=
        (hcount rfl).trans (hrests.running hs)
      rw [hrunning]
      cases hrests <;> exact fun h => h
  | @fired g' e' hwaits hinputs hallowed hfire =>
    have hsynapses := fireSynapse_quiet hfire hquiet
    have hcounters := (fireSynapse_spreads hd hw hfire).counters
    have hopen : g'.isConfirmedAt k = false := by
      simp [isConfirmedAt, hsynapses, setSynapseStatus_getElem? hs, SynapseStatus.isConfirmed]
    have hrunning : (g'.count fun n => { n with pending := n.pending + 1 }).running =
        g.running + 1 := (hcount hsynapses).trans (running_of_waits hs hwaits .executing)
    simp only [hopen, Bool.false_eq_true, if_false]
    refine ⟨.executing, hsynapses, by simp [Synapse.Waits], fun hfired => ?_, fun hpending => ?_⟩
    · simp only [count, hcounters]
      omega
    · rw [hrunning]
      simp only [count, hcounters]
      omega
  | @failed g' e' hwaits hinputs hallowed hfire =>
    have hsynapses := fireSynapse_quiet hfire hquiet
    have hcounters := (fireSynapse_spreads hd hw hfire).counters
    have hrunning : g'.fireFailed.running = g.running :=
      (hcount hsynapses).trans (running_of_waits hs hwaits .failed)
    refine ⟨.failed, hsynapses, by simp [Synapse.Waits], fun hfired => ?_, fun hpending => ?_⟩
    · simp only [fireFailed, hcounters, count]
      omega
    · rw [hrunning]
      simp only [fireFailed, hcounters, count]
      omega

/-- An action that has failed before a visit has failed after it. -/
theorem Visited.keeps_failedAt {σ : Type} {d : Dispatcher σ} {st : σ} {out : Graph × σ}
    (hd : d.Handles) (hw : g.WellFormed) (h : Visited d k s g st out) {slot : Nat}
    (hfailed : g.FailedAt slot) : out.1.FailedAt slot := by
  cases h with
  | rests => exact hfailed
  | fired _ _ _ hfire =>
    have hkept := (fireSynapse_spreads hd hw hfire).failed slot hfailed
    dsimp only
    split <;> exact hkept
  | failed _ _ _ hfire => exact (fireSynapse_spreads hd hw hfire).failed slot hfailed

theorem Surveyed.visit (h : g.Surveyed k e) (hs : g.synapses[k]? = some s)
    (hquiet : (Graph.visit (Engine.dispatcher c) k s g e).2.passRequested = false) :
    (Graph.visit (Engine.dispatcher c) k s g e).1.Surveyed (k + 1)
      (Graph.visit (Engine.dispatcher c) k s g e).2 := by
  have hd := Engine.dispatcher_handles c
  have hw := h.exact.orderly.wellFormed
  obtain ⟨hvisited, hexact, hledger, hlimit⟩ := visit_exact (c := c) h.exact hs rfl
  generalize Graph.visit (Engine.dispatcher c) k s g e = out at *
  obtain ⟨status, hsynapses, hown, hfired, hpending⟩ := hvisited.quiet hs hw hquiet
  refine ⟨hexact, hfired h.fired, hpending h.pending, fun p t' hp ht' hwaits => ?_⟩
  rw [hsynapses] at ht'
  obtain ⟨t, ht, ⟨rfl, rfl⟩ | ⟨hne, rfl⟩⟩ := setSynapseStatus_cases ht'
  · obtain rfl : s = t := Option.some.inj (hs.symm.trans ht)
    exact hown hwaits
  · exact (h.behind p t' (by omega) ht hwaits).of_le (hvisited.plan hd hw)
      (fun _ => hvisited.keeps_failedAt hd hw) hledger hlimit

end Visit

/-! ## Quiet passes -/

theorem Surveyed.start {g : Graph} {e : Engine ε} (h : g.Settled e.ledger) :
    g.started.Surveyed 0 e where
  exact := h.started
  fired := Nat.zero_le _
  pending := Nat.le_refl _
  behind := fun _ _ hp => absurd hp (Nat.not_lt_zero _)

/-- No pass can fire a synapse: as many wait for confirmation as may, or each that is left is put
off. -/
def Stuck (g : Graph) (e : Engine ε) : Prop :=
  g.started.batchFull = true ∨ ∀ s ∈ g.synapses, s.Waits → g.PutOff e s

theorem PutOff.not_fires {g : Graph} {e : Engine ε} {s : Synapse} (h : g.PutOff e s)
    (hinputs : s.inputsSatisfied g.actions = true) : ¬ e.Admits g s := by
  intro hadmits
  cases h with
  | closed hclosed =>
    rw [hclosed] at hinputs
    cases hinputs
  | crowded hslot ha hpseudo hroom =>
    rw [(hadmits _ hslot _ ha hpseudo).2] at hroom
    cases hroom

/-- **A pass over a graph that is stuck calls no dispatcher.** -/
theorem Stuck.calls_eq_nil {g : Graph} {e : Engine ε} (h : g.Stuck e) (hw : g.WellFormed) :
    g.calls (Engine.dispatcher c) e = [] := by
  rcases h with hfull | hputOff
  · have hstops : Graph.visitAll (Engine.dispatcher c).recording (List.range g.synapses.length)
        g.started (e, []) = (g.started, e, []) := by
      cases List.range g.synapses.length with
      | nil => rfl
      | cons => simp only [Graph.visitAll, hfull, if_true]
    exact congrArg (·.2.2) hstops
  · have hidled := visitAll_idled (c := c) (g := g.started) (e := e) (hw.of_plan rfl)
      (fun s hs hwaits hinputs => (hputOff s hs hwaits).not_fires hinputs)
      (List.range g.synapses.length) []
    exact congrArg Prod.snd hidled.2

/-- **After a pass that requests no other a further pass calls no dispatcher.**  If the pass has not
ended the transition, some synapse executes. -/
theorem stuck_of_quiet {g g' : Graph} {e e' : Engine ε} {result : PassResult}
    (h : g.Settled e.ledger) (hpass : g.run (Engine.dispatcher c) e = (result, g', e'))
    (hquiet : e'.passRequested = false) :
    g'.Stuck e' ∧ (result.isTerminal = false → ∃ s ∈ g'.synapses, s.status = .executing) := by
  obtain ⟨⟨g₁, e₁⟩, hvisits⟩ : ∃ out, Graph.visitAll (Engine.dispatcher c)
    (List.range g.synapses.length) g.started e = out := ⟨_, rfl⟩
  obtain ⟨rfl, rfl, rfl⟩ : g₁.classify = result ∧
      { g₁ with complete := g₁.complete || g₁.classify.isTerminal } = g' ∧ e₁ = e' := by
    simpa only [Prod.mk.injEq] using (run_of_visits hvisits).symm.trans hpass
  rw [List.range_eq_range'] at hvisits
  -- a quiet pass may end at the batch limit
  obtain ⟨k, hsurveyed, hreach⟩ : ∃ k, g₁.Surveyed k e₁ ∧
      (g₁.synapses.length = k ∨ g₁.batchFull = true) := by
    have hsteady := Engine.dispatcher_steady c
    refine visitAll_sweep (P := fun k g e => g.Surveyed k e) hsteady (Engine.dispatcher_handles c)
      (fun h => h.exact.orderly.wellFormed) (fun {k g e s} later h hs hlater => ?_)
      (Surveyed.start h) (Nat.zero_add _).symm hvisits
    have hsteps := visitAll_steps hsteady later (visit (Engine.dispatcher c) k s g e).1
      (visit (Engine.dispatcher c) k s g e).2
    rw [hlater] at hsteps
    exact h.visit hs (hsteps.quiet hquiet)
  have hpending : g₁.counters.pending ≤ g₁.running := hsurveyed.pending
  have hfired : g₁.counters.fired ≤ g₁.counters.pending := hsurveyed.fired
  refine ⟨?_, fun hopen => ?_⟩
  · rcases hreach with rfl | hfull
    · refine .inr fun s hs hwaits => ?_
      obtain ⟨p, hp⟩ := List.getElem?_of_mem hs
      obtain ⟨hlt, -⟩ := List.getElem?_eq_some_iff.mp hp
      exact (hsurveyed.behind p s hlt hp hwaits).of_le rfl (fun _ h => h) (.refl _) rfl
    · -- what was counted as pending executes, and is counted again
      refine .inl ?_
      simp only [batchFull, Bool.and_eq_true, decide_eq_true_eq] at hfull ⊢
      exact ⟨hfull.1, Int.le_trans hfull.2 (Int.ofNat_le.mpr hpending)⟩
  · have hwork : ¬ (g₁.counters.pending = 0 ∧ g₁.counters.fired = 0) := fun hidle => by
      rw [classify_isTerminal_iff.mpr hidle] at hopen
      cases hopen
    have hrunning : 0 < g₁.running := by omega
    obtain ⟨s, hs, hexec⟩ := List.countP_pos_iff.mp hrunning
    exact ⟨s, hs, of_decide_eq_true hexec⟩

end Graph
end ClusterTransition
