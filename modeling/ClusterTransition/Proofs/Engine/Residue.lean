import ClusterTransition.Proofs.Engine.Supervision
import ClusterTransition.Proofs.Engine.Throttle
import ClusterTransition.Proofs.Pass.Counting

/-! # What a transition leaves behind

A pass ends the transition when no synapse executes.  That does not mean that no action runs: if a
synapse cannot hand over all of its actions it fails on the spot, and those that it has handed over
before run on, with their job slots and their timers.  Nothing else is ever left behind
(`at_rest_unless_stranded`).  Whatever still runs belongs to a synapse that has failed, and where
nothing runs, no job is charged and no timer is armed.

An action is stranded in this way only if it takes time and is followed by others in its synapse.  A
document without such actions ends at rest in every run (`GraphDocument.endsAtRest_of_not_strands`).
-/

namespace ClusterTransition

open ClusterTransition.Graph (Edits Reported)

/-! ## Nothing in flight -/

namespace Graph

/-- Nothing is in flight: no action runs, no job is charged, and no timer is armed. -/
structure AtRest {ε : Type} (g : Graph) (e : Engine ε) : Prop where
  idle : ∀ a ∈ g.actions, a.status ≠ .executed
  free : ∀ node, e.ledger.get node = {}
  unarmed : ∀ id, e.timers.isArmed id = false

/-- No synapse that has failed owns an action that runs. -/
def Clean (g : Graph) : Prop :=
  ∀ s ∈ g.synapses, s.status = .failed → ∀ k ∈ s.actions, g.statusAt k ≠ some .executed

instance (g : Graph) : Decidable g.Clean :=
  inferInstanceAs (Decidable (∀ s ∈ g.synapses, s.status = .failed →
    ∀ k ∈ s.actions, g.statusAt k ≠ some .executed))

variable {ε : Type} {c : Cluster ε} {g : Graph}

/-- **What runs while no synapse executes belongs to one that has failed.** -/
theorem Membership.exists_failed_of_executed (h : g.Membership)
    (hidle : ∀ s ∈ g.synapses, s.status ≠ .executing) {a : Action} (ha : a ∈ g.actions)
    (hexec : a.status = .executed) :
    ∃ s ∈ g.synapses, s.status = .failed ∧ ∃ k ∈ s.actions, g.statusAt k = some .executed := by
  obtain ⟨k, hk, s, hs, hks⟩ := h.wellFormed.exists_owner_of_mem ha
  have hstatus : g.statusAt k = some .executed := hexec ▸ statusAt_eq hk
  obtain ⟨p, hp⟩ := List.getElem?_of_mem hs
  refine ⟨s, hs, ?_, k, hks, hstatus⟩
  cases hs' : s.status with
  | failed => rfl
  | executing => exact absurd hs' (hidle s hs)
  | confirmed =>
    obtain ⟨status, hknown, hconfirmed⟩ := h.confirmed s hs hs' k hks
    rw [hstatus, Option.some.injEq] at hknown
    subst hknown
    cases hconfirmed
  | unfired | ready | skipped =>
    -- a synapse that has not fired has handed nothing over
    exact absurd hstatus (h.untouched p s hp (by rw [hs']; rfl) k hks)

/-- Where no action runs, nothing else is in flight. -/
theorem atRest_of_idle {used : ε → Nat → Prop} {e : Engine ε} {due : List ActionId}
    (hkept : Watch.Kept c used ⟨g, e, due⟩) (hsettled : g.Settled e.ledger)
    (hidle : ∀ a ∈ g.actions, a.status ≠ .executed) : g.AtRest e where
  idle := hidle
  free := hsettled.accounted.eq_zero_of_idle fun a ha _ => hidle a ha
  unarmed id := by
    refine Bool.eq_false_iff.mpr fun harmed => ?_
    obtain ⟨a, ha, hexec⟩ := exists_of_statusOf (hkept.watched.armed id harmed).2.1
    exact hidle a (List.mem_of_find?_eq_some ha) hexec

end Graph

/-! ## Runs -/

namespace Event

variable {ε : Type} (c : Cluster ε)

/-- What every event keeps, every run keeps. -/
theorem makeAll_induction {P : Watch ε → Prop} (hevent : ∀ ev w, P w → P (make c ev w))
    (events : List Event) {w : Watch ε} (h : P w) : P (makeAll c events w) := by
  induction events generalizing w with
  | nil => exact h
  | cons ev events ih => exact ih (hevent ev w h)

theorem settled (ev : Event) {w : Watch ε} (h : w.graph.Settled w.engine.ledger) :
    (ev.make c w).graph.Settled (ev.make c w).engine.ledger := by
  cases ev with
  | move m => exact m.settled c (s := (w.graph, w.engine)) h
  | advance | expireNext => exact h

/-- What a run on a graph of the loader keeps. -/
theorem kept_of_toGraph {c : Cluster ε} {d : GraphDocument} {g : Graph} (h : d.toGraph = .ok g)
    {e : Engine ε} (htimers : e.timers.deadlines = .empty) (hcalls : e.fenceCalls = .empty)
    {events : List Event} (hevents : AllPossible c events ⟨g, e.startTransition, []⟩) :
    (makeAll c events ⟨g, e.startTransition, []⟩).Kept c (fun _ _ => True) ∧
      (makeAll c events ⟨g, e.startTransition, []⟩).graph.Settled
        (makeAll c events ⟨g, e.startTransition, []⟩).engine.ledger := by
  have hstart : Watch.Kept c (fun _ _ => True) ⟨g, e.startTransition, []⟩ :=
    .of_toGraph h htimers hcalls
  refine ⟨hstart.events hevents, ?_⟩
  exact makeAll_induction (P := fun w => w.graph.Settled w.engine.ledger) c
    (fun ev w hw => ev.settled c hw) events (w := ⟨g, e.startTransition, []⟩)
    (Graph.settled_of_toGraph h e)

end Event

/-- After a pass that ends the transition nothing is in flight, unless an action was stranded. -/
theorem Graph.atRest_iff_of_terminal {ε : Type} {c : Cluster ε} {used : ε → Nat → Prop}
    {g₁ g₂ : Graph} {e₁ e₂ : Engine ε} {due : List ActionId} {result : PassResult}
    (hkept : Watch.Kept c used ⟨g₁, e₁, due⟩) (hsettled : g₁.Settled e₁.ledger)
    (hpass : g₁.run (Engine.dispatcher c) e₁ = (result, g₂, e₂)) (hterminal : result.isTerminal) :
    g₂.AtRest e₂ ↔ g₂.Clean := by
  have hpossible : (Event.move .pass).Possible (⟨g₁, e₁, due⟩ : Watch ε) := trivial
  have hkept' := hkept.event hpossible
  have hsettled' := Move.pass.settled c (s := (g₁, e₁)) hsettled
  have hends : (g₁.run (Engine.dispatcher c) e₁).1.isTerminal := by rwa [hpass]
  have hidle := Graph.idle_of_terminal (Engine.dispatcher_steady c) (Engine.dispatcher_handles c)
    hsettled.wellFormed hends
  simp only [Event.make, Move.make, hpass] at hkept' hsettled' hidle
  constructor
  · intro hrest s hs _ k _ hexec
    obtain ⟨a, ha, hstatus⟩ := Option.map_eq_some_iff.mp hexec
    exact hrest.idle a (List.mem_of_getElem? ha) hstatus
  · intro hclean
    refine Graph.atRest_of_idle hkept' hsettled' fun a ha hexec => ?_
    obtain ⟨s, hs, hfailed, k, hk, hstatus⟩ :=
      hkept'.membership.exists_failed_of_executed hidle ha hexec
    exact hclean s hs hfailed k hk hstatus

/-! ## What strands an action -/

/-- Once the action is dispatched, its result is awaited. -/
def Action.lingers (a : Action) : Bool :=
  match a.channel? with
  | some .resource | some .clusterEvent => !a.noWait
  | some .fencing => true
  | some .pseudo | none => false

/-- Of the actions, but for the last, one that lingers comes before the first that cannot be
dispatched. -/
def strands (as : List Action) : Bool :=
  (as.dropLast.takeWhile (·.dispatchable)).any (·.lingers)

/-- The synapse may leave an action behind. -/
def SynapseDocument.strands (s : SynapseDocument) : Bool :=
  ClusterTransition.strands (s.actions.map ActionDocument.toAction)

theorem strands_cons (a b : Action) (as : List Action) :
    strands (a :: b :: as) = (a.dispatchable && (a.lingers || strands (b :: as))) := by
  simp only [strands, List.dropLast_cons_cons, List.takeWhile_cons]
  cases a.dispatchable with
  | true => simp
  | false => simp

/-- Plans decide what is stranded. -/
theorem strands_plan (as : List Action) : strands (as.map Action.plan) = strands as := by
  simp only [strands, ← List.map_dropLast, List.takeWhile_map, List.any_map]
  rfl

/-- None of the synapses strands an action. -/
def Graph.StrandsNone (g : Graph) : Prop :=
  ∀ s ∈ g.synapses, strands (s.actions.filterMap (g.actions[·]?)) = false

theorem Graph.strands_of_plan {g g' : Graph} (hplan : g'.plan = g.plan) (slots : List Nat) :
    strands (slots.filterMap (g'.actions[·]?)) = strands (slots.filterMap (g.actions[·]?)) := by
  rw [← strands_plan, map_plan_filterMap hplan, strands_plan]

theorem Graph.StrandsNone.of_plan {g g' : Graph} (h : g.StrandsNone) (hplan : g'.plan = g.plan) :
    g'.StrandsNone := by
  intro s' hs'
  obtain ⟨p, hp⟩ := List.getElem?_of_mem hs'
  obtain ⟨s, hs, heq⟩ := synapse_of_plan hplan hp
  rw [strands_of_plan hplan, Synapse.actions_eq_of_plan heq]
  exact h s (List.mem_of_getElem? hs)

namespace Engine

variable {ε : Type} (c : Cluster ε) {g : Graph} {e : Engine ε}

theorem statusOf_recordStatus (id : ActionId) (status : OpStatus) (rc : Int) (x : ActionId) :
    (e.recordStatus c g id status rc).1.statusOf x = g.statusOf x := by
  simp only [recordStatus]
  split
  · rfl
  · dsimp only
    split
    · exact Graph.statusOf_modifyAction g id (f := fun a => { a with sentUpdate := true })
        (fun _ => rfl) (fun _ => rfl) x
    · rfl

/-- **An action that does not linger is over once it is dispatched.** -/
theorem dispatch_over {a : Action} {channel : Channel} (ha : g.action? a.id = some a)
    (hchannel : a.channel? = some channel) (hquiet : a.lingers = false)
    (hgo : ((dispatcher c).dispatch channel a.id g e).1 = true) :
    ((dispatcher c).dispatch channel a.id g e).2.1.statusOf a.id ≠ some .executed := by
  have hsent (hresource : channel = .resource) (e : Engine ε) :
      (e.resourceSent g a).1.statusOf a.id ≠ some .executed := by
    have hnoWait : a.noWait = true := by simpa [Action.lingers, hchannel, hresource] using hquiet
    simp only [resourceSent, hnoWait, if_true]
    exact Graph.statusOf_finish g a.id
  have hout := dispatch_outcome c e ha channel
  generalize (dispatcher c).dispatch channel a.id g e = out at hout hgo ⊢
  cases hout with
  | refused => cases hgo
  | marker | told | shutdown => exact Graph.statusOf_finish _ a.id
  | sent env => exact hsent rfl { e with env }
  | recorded env _ hrecorded =>
    have hover := hsent rfl { e with env }
    rw [hrecorded] at hover
    rwa [statusOf_recordStatus]
  | asked _ _ _ hwaits => simp [Action.lingers, hchannel, hwaits] at hquiet
  | fenced => simp [Action.lingers, hchannel] at hquiet

end Engine

/-! ## Synapses that fail leave nothing running -/

namespace Graph.Clean

variable {g g' : Graph}

theorem edits {id : ActionId} (h : g.Clean) (hedits : Edits id g g') : g'.Clean := by
  intro s' hs' hfailed k hk
  obtain ⟨p, hp⟩ := List.getElem?_of_mem hs'
  obtain ⟨s, hs, hplan, hstatus⟩ := hedits.absorbs hp
  rw [Synapse.actions_eq_of_plan hplan] at hk
  have hclean := h s (List.mem_of_getElem? hs) (hstatus.failed_iff.mp hfailed) k hk
  exact statusAt_ne_executed hedits hclean

theorem reported (h : g.Clean) (hreported : Reported g g') : g'.Clean := by
  induction hreported with
  | refl => exact h
  | tail _ step ih =>
    obtain ⟨id, hedits⟩ := step
    exact ih.edits hedits

/-- A synapse may fail when none of its actions runs. -/
theorem setSynapseStatus (h : g.Clean) {pos : Nat} {status : SynapseStatus}
    (hstatus : status = .failed → ∀ s, g.synapses[pos]? = some s →
      ∀ k ∈ s.actions, g.statusAt k ≠ some .executed) : (g.setSynapseStatus pos status).Clean := by
  intro s' hs' hfailed k hk
  obtain ⟨p, hp⟩ := List.getElem?_of_mem hs'
  obtain ⟨s, hs, ⟨rfl, rfl⟩ | ⟨-, rfl⟩⟩ := setSynapseStatus_cases hp
  · exact hstatus hfailed s hs k hk
  · exact h s' (List.mem_of_getElem? hs) hfailed k hk

/-- An action may start to run if its owner has not failed. -/
theorem setStatusAt (h : g.Clean) (hw : g.WellFormed) {slot : Nat} {status : ActionStatus}
    (hstatus : status = .executed → ∃ (p : Nat) (s : Synapse), g.synapses[p]? = some s ∧
      slot ∈ s.actions ∧ s.status ≠ .failed) : (g.setStatusAt slot status).Clean := by
  intro s hs hfailed k hk hexec
  rw [statusAt_setStatusAt] at hexec
  split at hexec
  · rename_i hslot
    subst hslot
    obtain ⟨_, -, rfl⟩ := Option.map_eq_some_iff.mp hexec
    obtain ⟨q, t, ht, hkt, hstands⟩ := hstatus rfl
    obtain ⟨p, hp⟩ := List.getElem?_of_mem hs
    have hsame : g.synapses[p]? = some s := hp
    obtain rfl : p = q := hw.owner_unique hsame ht hk hkt
    rw [hsame, Option.some.injEq] at ht
    exact hstands (ht ▸ hfailed)
  · exact h s hs hfailed k hk hexec

/-- A firing may fail at a slot when none of the other actions of the synapse runs. -/
theorem failFiring (h : g.Clean) (hw : g.WellFormed) {pos slot : Nat}
    (hothers : ∀ s, g.synapses[pos]? = some s → ∀ k ∈ s.actions, k ≠ slot →
      g.statusAt k ≠ some .executed) : (g.failFiring pos slot).Clean := by
  have hset : (g.setStatusAt slot (.failed .initiation)).Clean := h.setStatusAt hw (by simp)
  have hfails :
      ((g.setStatusAt slot (.failed .initiation)).setSynapseStatus pos .failed).Clean := by
    refine hset.setSynapseStatus fun _ s hs k hk hexec => ?_
    rw [statusAt_setStatusAt] at hexec
    split at hexec
    · obtain ⟨_, -, heq⟩ := Option.map_eq_some_iff.mp hexec
      cases heq
    · rename_i hne
      exact hothers s hs k hk (Ne.symm hne) hexec
  exact hfails

end Graph.Clean

/-- Where a pass stands with respect to stranded actions.  While the synapse that is being fired has
actions to hand over, none of its actions runs. -/
structure PassState.Clean {ε : Type} (x : PassState (Engine ε)) : Prop where
  orderly : x.Orderly
  strandsNone : x.graph.StrandsNone
  clean : x.graph.Clean
  firing : ∀ pos slots, x.stage = .firing pos slots →
    strands (slots.filterMap (x.graph.actions[·]?)) = false ∧
      ∃ s, x.graph.synapses[pos]? = some s ∧ s.status ≠ .failed ∧
        (slots ≠ [] → ∀ k ∈ s.actions, x.graph.statusAt k ≠ some .executed)

namespace PassState.Clean

variable {ε : Type} {c : Cluster ε}

/-- After an action is handed over, whether it goes or not, the other actions of its synapse do not
run. -/
theorem handed {g g' : Graph} {e : Engine ε} {pos slot : Nat} {slots : List Nat} {id : ActionId}
    (hx : PassState.Clean ⟨.firing pos (slot :: slots), g, e⟩)
    (hedits : Edits id (g.setStatusAt slot .executed) g') :
    g'.Clean ∧ ∃ s', g'.synapses[pos]? = some s' ∧ s'.status ≠ .failed ∧
      ∀ k ∈ s'.actions, k ≠ slot → g'.statusAt k ≠ some .executed := by
  obtain ⟨-, s, hs, hstands, hidle⟩ := hx.firing pos _ rfl
  obtain ⟨-, -, t, ht, -, hsub⟩ := hx.orderly.firing pos _ rfl
  obtain rfl : s = t := Option.some.inj (hs.symm.trans ht)
  have hmark : (g.setStatusAt slot .executed).Clean :=
    hx.clean.setStatusAt hx.orderly.wellFormed fun _ =>
      ⟨pos, s, hs, hsub (List.mem_cons_self ..), hstands⟩
  have hplan := hedits.plan.trans (Graph.plan_setStatusAt ..)
  obtain ⟨s', hs', -⟩ := Graph.synapse_of_plan hplan.symm hs
  obtain ⟨u, hu, hsame, habsorbs⟩ := hedits.absorbs hs'
  obtain rfl : s = u := Option.some.inj (hs.symm.trans hu)
  refine ⟨hmark.edits hedits, s', hs', fun hfailed => hstands (habsorbs.failed_iff.mp hfailed),
    fun k hk hne => Graph.statusAt_ne_executed hedits ?_⟩
  rw [Graph.statusAt_setStatusAt, if_neg (Ne.symm hne)]
  exact hidle (by simp) k (Synapse.actions_eq_of_plan hsame ▸ hk)

/-- After an action has gone, and as long as others of its synapse have their turn to come, it does
not run either. -/
theorem gone {g g' : Graph} {e e' : Engine ε} {pos slot next : Nat} {rest : List Nat} {a : Action}
    {channel : Channel} (hx : PassState.Clean ⟨.firing pos (slot :: next :: rest), g, e⟩)
    (ha : g.actions[slot]? = some a) (hchannel : a.channel? = some channel)
    (hgoes : (Engine.dispatcher c).dispatch channel a.id (g.setStatusAt slot .executed) e =
      (true, g', e')) :
    strands ((next :: rest).filterMap (g'.actions[·]?)) = false ∧
      g'.statusAt slot ≠ some .executed := by
  have hw := hx.orderly.wellFormed
  have hedits := (Engine.dispatcher_handles c).edits hgoes
  obtain ⟨hstrands, -⟩ := hx.firing pos _ rfl
  obtain ⟨-, -, t, ht, -, hsub⟩ := hx.orderly.firing pos _ rfl
  have hlt := hw.slot_lt (List.mem_of_getElem? ht) (hsub (by simp) : next ∈ t.actions)
  obtain ⟨hslot, hmark⟩ := hw.action?_setStatusAt ha .executed
  have hdispatchable : a.dispatchable = true :=
    Engine.dispatchable_of_goes c (a := { a with status := .executed }) hmark hchannel
      (by rw [hgoes])
  -- another action follows, so this one does not linger, and neither do those after it
  simp only [List.filterMap_cons, ha, List.getElem?_eq_getElem hlt, strands_cons, hdispatchable,
    Bool.true_and, Bool.or_eq_false_iff] at hstrands
  obtain ⟨hquiet, hrest⟩ := hstrands
  have hover := Engine.dispatch_over c (a := { a with status := .executed }) hmark hchannel hquiet
    (by rw [hgoes])
  rw [hgoes, Graph.statusOf, Graph.slotOf?_eq_of_plan hedits.plan, hslot] at hover
  refine ⟨?_, hover⟩
  rw [Graph.strands_of_plan (hedits.plan.trans (Graph.plan_setStatusAt ..)), List.filterMap_cons,
    List.getElem?_eq_getElem hlt]
  exact hrest

theorem step {x y : PassState (Engine ε)} (hx : x.Clean)
    (h : PassStep (Engine.dispatcher c) x y) : y.Clean := by
  have horderly := hx.orderly.step (Engine.dispatcher_handles c) h
  have hplan := h.plan (Engine.dispatcher_handles c)
  have hw := hx.orderly.wellFormed
  cases h with
  | count | conclude | fired =>
    exact ⟨horderly, hx.strandsNone.of_plan hplan, hx.clean, by simp⟩
  | ready | skip =>
    exact ⟨horderly, hx.strandsNone.of_plan hplan, hx.clean.setSynapseStatus (by simp), by simp⟩
  | @fire g e pos s hs hready hinputs hallowed =>
    refine ⟨horderly, hx.strandsNone.of_plan hplan, hx.clean.setSynapseStatus (by simp), ?_⟩
    rintro _ _ ⟨⟩
    refine ⟨hx.strandsNone s (List.mem_of_getElem? hs), _,
      Graph.setSynapseStatus_getElem? hs .executing, by simp, fun _ k hk => ?_⟩
    exact hx.orderly.untouched pos s hs (by rw [hready]; rfl) k hk
  | @dispatch g g' e e' pos slot slots a channel ha hpending hchannel hgoes =>
    obtain ⟨hclean, s', hs', hstands, hothers⟩ :=
      hx.handed ((Engine.dispatcher_handles c).edits hgoes)
    refine ⟨horderly, hx.strandsNone.of_plan hplan, hclean, ?_⟩
    rintro _ _ ⟨⟩
    cases slots with
    -- the last action of a synapse may run on, for its firing cannot fail any more
    | nil => exact ⟨rfl, s', hs', hstands, by simp⟩
    | cons next rest =>
      obtain ⟨hstrands, hover⟩ := hx.gone ha hchannel hgoes
      refine ⟨hstrands, s', hs', hstands, fun _ k hk => ?_⟩
      by_cases hne : k = slot
      · exact hne ▸ hover
      · exact hothers k hk hne
  | refuse pos slots ha hpending hchannel hstays =>
    have hedits := (Engine.dispatcher_handles c).edits hstays
    obtain ⟨hclean, s', hs', -, hothers⟩ := hx.handed hedits
    have hfails := hclean.failFiring (hw.of_plan (hedits.plan.trans (Graph.plan_setStatusAt ..)))
      fun t ht => Option.some.inj (hs'.symm.trans ht) ▸ hothers
    exact ⟨horderly, hx.strandsNone.of_plan hplan, hfails, by simp⟩
  | unroutable st pos slots ha hpending hchannel =>
    obtain ⟨hclean, s', hs', -, hothers⟩ := hx.handed (.refl : Edits 0 _ _)
    have hfails := hclean.failFiring (hw.of_plan (Graph.plan_setStatusAt ..))
      fun t ht => Option.some.inj (hs'.symm.trans ht) ▸ hothers
    exact ⟨horderly, hx.strandsNone.of_plan hplan, hfails, by simp⟩
  | again st pos slots hslot =>
    -- the slot is known already, by an early report
    obtain ⟨-, s, hs, -, hidle⟩ := hx.firing pos _ rfl
    refine ⟨horderly, hx.strandsNone.of_plan hplan, hx.clean.failFiring hw ?_, by simp⟩
    intro t ht k hk _
    obtain rfl : s = t := Option.some.inj (hs.symm.trans ht)
    exact hidle (by simp) k hk

end PassState.Clean

/-- **No move strands an action**, where no synapse may. -/
theorem Move.clean {ε : Type} (c : Cluster ε) (m : Move) {s : Graph × Engine ε}
    (hsettled : s.1.Settled s.2.ledger) (hnone : s.1.StrandsNone) (h : s.1.Clean) :
    (m.make c s).1.Clean := by
  by_cases hm : m = .pass
  · subst hm
    have hstart : PassState.Clean ⟨.visiting, s.1, s.2⟩ :=
      ⟨⟨hsettled.wellFormed, hsettled.untouched, by simp⟩, hnone, h, by simp⟩
    exact (Graph.run_induction (Engine.dispatcher_steady c)
      (fun _ _ hstep hx => PassState.Clean.step hx hstep) s.1 s.2 hstart).clean
  · exact h.reported (m.reported c hm s)

/-! ## Documents -/

/-- In every run, a pass that ends the transition leaves nothing in flight. -/
def GraphDocument.EndsAtRest (d : GraphDocument) : Prop :=
  ∀ g, d.toGraph = .ok g → ∀ (ε : Type) (c : Cluster ε) (e : Engine ε),
    e.timers.deadlines = .empty → e.fenceCalls = .empty → ∀ events : List Event,
    Event.AllPossible c events ⟨g, e.startTransition, []⟩ →
    ∀ (g₁ g₂ : Graph) (e₁ e₂ : Engine ε) (due : List ActionId) (result : PassResult),
    Event.makeAll c events ⟨g, e.startTransition, []⟩ = ⟨g₁, e₁, due⟩ →
    g₁.run (Engine.dispatcher c) e₁ = (result, g₂, e₂) → result.isTerminal → g₂.AtRest e₂

/-- **Where no synapse strands an action, every transition ends at rest.** -/
theorem GraphDocument.endsAtRest_of_not_strands {d : GraphDocument}
    (h : ∀ s ∈ d.synapses, s.strands = false) : d.EndsAtRest := by
  intro g hg ε c e htimers hcalls events hevents g₁ g₂ e₁ e₂ due result hrun hpass hterminal
  obtain ⟨hkept, hsettled⟩ := Event.kept_of_toGraph hg htimers hcalls hevents
  rw [hrun] at hkept hsettled
  refine (Graph.atRest_iff_of_terminal hkept hsettled hpass hterminal).mpr ?_
  have hloaded := loadedAs_of_toGraph hg
  have hnone : g.StrandsNone := by
    intro t ht
    obtain ⟨s, hs, hst⟩ := hloaded.exists_document ht
    rw [hst.filterMap_actions]
    exact h s hs
  have hfresh : g.Clean := by
    intro t ht hfailed
    rw [hloaded.fresh.synapses t ht] at hfailed
    cases hfailed
  obtain ⟨-, hnone₁, hclean⟩ : g₁.Settled e₁.ledger ∧ g₁.StrandsNone ∧ g₁.Clean := by
    have hend := Event.makeAll_induction
      (P := fun w => w.graph.Settled w.engine.ledger ∧ w.graph.StrandsNone ∧ w.graph.Clean) c
      (fun ev w ⟨hsettled, hnone, hclean⟩ => ?_) events (w := ⟨g, e.startTransition, []⟩)
      ⟨Graph.settled_of_toGraph hg e, hnone, hfresh⟩
    · rw [hrun] at hend
      exact hend
    · refine ⟨ev.settled c hsettled, ?_⟩
      cases ev with
      | move m => exact ⟨hnone.of_plan (m.plan c _), m.clean c hsettled hnone hclean⟩
      | advance | expireNext => exact ⟨hnone, hclean⟩
  have hlast := Move.pass.clean c (s := (g₁, e₁)) hsettled hnone₁ hclean
  simpa only [Move.make, hpass] using hlast

/-- In these documents each synapse has one action only. -/
example : GraphDocument.fenceAndStarts.EndsAtRest :=
  GraphDocument.endsAtRest_of_not_strands (by decide)

/-- **A transition ends at rest unless an action was stranded.**  Take any run of an engine without
timers and fencing requests on a graph of the loader, with timeouts reported only for timers that
have expired.  When a pass then ends the transition, no action runs, no job is charged and no timer
is armed, if and only if no synapse that has failed owns an action that still runs.  None does if no
synapse of the document strands an action. -/
theorem at_rest_unless_stranded {d : GraphDocument} {g : Graph} (h : d.toGraph = .ok g) {ε : Type}
    (c : Cluster ε) {e : Engine ε} (htimers : e.timers.deadlines = .empty)
    (hcalls : e.fenceCalls = .empty) {events : List Event}
    (hevents : Event.AllPossible c events ⟨g, e.startTransition, []⟩) {g₁ g₂ : Graph}
    {e₁ e₂ : Engine ε} {due : List ActionId} {result : PassResult}
    (hrun : Event.makeAll c events ⟨g, e.startTransition, []⟩ = ⟨g₁, e₁, due⟩)
    (hpass : g₁.run (Engine.dispatcher c) e₁ = (result, g₂, e₂)) (hterminal : result.isTerminal) :
    (g₂.AtRest e₂ ↔ g₂.Clean) ∧ ((∀ s ∈ d.synapses, s.strands = false) → g₂.AtRest e₂) := by
  obtain ⟨hkept, hsettled⟩ := Event.kept_of_toGraph h htimers hcalls hevents
  rw [hrun] at hkept hsettled
  refine ⟨Graph.atRest_iff_of_terminal hkept hsettled hpass hterminal, fun hnone => ?_⟩
  have hrests := GraphDocument.endsAtRest_of_not_strands hnone g h ε c e htimers hcalls events
  exact hrests hevents g₁ g₂ e₁ e₂ due result hrun hpass hterminal

/-- A cluster in which one node cannot be reached. -/
def Cluster.cutOff (node : String) : Cluster Nat :=
  { Cluster.willing with send := fun target _ n => (target ≠ node, n) }

/-- Two starts on different nodes, in one synapse. -/
def GraphDocument.twoStarts : GraphDocument where
  transitionId := 1
  synapses :=
    [{ id := 0
       actions :=
         [{ id := 1, kind := .resource, task := some "start", target := some "node1" },
          { id := 2, kind := .resource, task := some "start", target := some "node2" }] }]

/-- The same starts, each in a synapse of its own. -/
def GraphDocument.startsApart : GraphDocument where
  transitionId := 1
  synapses :=
    [{ id := 0
       actions := [{ id := 1, kind := .resource, task := some "start", target := some "node1" }] },
     { id := 1
       actions := [{ id := 2, kind := .resource, task := some "start", target := some "node2" }] }]

/-- A pass, the expiry of the timer of the first start, and the report of that. -/
def Event.passThenExpired : List Event := [.move .pass, .expireNext, .move (.timeout 1)]

/-- The second start cannot be sent.  Once the first one has timed out, the next pass ends the
transition at rest, whether the starts are in one synapse or apart. -/
theorem twoStarts_at_rest :
    (∃ g, GraphDocument.twoStarts.toGraph = .ok g ∧
      let w := Event.makeAll (.cutOff "node2") Event.passThenExpired
        ⟨g, (Engine.new { node := "node1" } 0).startTransition, []⟩
      let out := w.graph.run (Engine.dispatcher (.cutOff "node2")) w.engine
      out.1 = .stopped ∧ out.2.1.AtRest out.2.2) ∧
    ∃ g, GraphDocument.startsApart.toGraph = .ok g ∧
      let w := Event.makeAll (.cutOff "node2") Event.passThenExpired
        ⟨g, (Engine.new { node := "node1" } 0).startTransition, []⟩
      let out := w.graph.run (Engine.dispatcher (.cutOff "node2")) w.engine
      out.1 = .stopped ∧ out.2.1.AtRest out.2.2 := by
  have hend : ∀ d ∈ [GraphDocument.twoStarts, .startsApart], ∀ g, d.toGraph = .ok g →
      let w := Event.makeAll (.cutOff "node2") Event.passThenExpired
        ⟨g, (Engine.new { node := "node1" } 0).startTransition, []⟩
      let out := w.graph.run (Engine.dispatcher (.cutOff "node2")) w.engine
      out.1 = .stopped ∧ out.2.1.Clean ∧
        (1 : ActionId) ∈ (Event.makeAll (.cutOff "node2") [.move .pass, .expireNext]
          ⟨g, (Engine.new { node := "node1" } 0).startTransition, []⟩).due := by
    intro d hd
    simp only [List.mem_cons, List.not_mem_nil, or_false] at hd
    obtain rfl | rfl := hd <;> rintro _ ⟨⟩ <;> decide +kernel
  have hparts (w : Watch Nat) : w = ⟨w.graph, w.engine, w.due⟩ := rfl
  have hpass (p : PassResult × Graph × Engine Nat) : p = (p.1, p.2.1, p.2.2) := rfl
  constructor
  · obtain ⟨g, hg⟩ : ∃ g, GraphDocument.twoStarts.toGraph = .ok g := ⟨_, rfl⟩
    obtain ⟨hstopped, hclean, hexpired⟩ := hend _ (by simp) g hg
    have hpossible : Event.AllPossible (.cutOff "node2") Event.passThenExpired
        ⟨g, (Engine.new { node := "node1" } 0).startTransition, []⟩ :=
      ⟨trivial, trivial, hexpired, trivial⟩
    have hrest := at_rest_unless_stranded hg (.cutOff "node2") rfl rfl hpossible (hparts _)
      (hpass _) (by rw [hstopped]; rfl)
    exact ⟨g, hg, hstopped, hrest.1.mpr hclean⟩
  · obtain ⟨g, hg⟩ : ∃ g, GraphDocument.startsApart.toGraph = .ok g := ⟨_, rfl⟩
    obtain ⟨hstopped, -, hexpired⟩ := hend _ (by simp) g hg
    have hpossible : Event.AllPossible (.cutOff "node2") Event.passThenExpired
        ⟨g, (Engine.new { node := "node1" } 0).startTransition, []⟩ :=
      ⟨trivial, trivial, hexpired, trivial⟩
    have hrest := at_rest_unless_stranded hg (.cutOff "node2") rfl rfl hpossible (hparts _)
      (hpass _) (by rw [hstopped]; rfl)
    exact ⟨g, hg, hstopped, hrest.2 (by decide)⟩

/-- The first start goes, the second cannot be sent.  The transition has stopped, while the first
start runs, is charged to its node, and has its timer. -/
theorem twoStarts_strands_first : (∃ g, GraphDocument.twoStarts.toGraph = .ok g ∧
      let out := g.run (Engine.dispatcher (.cutOff "node2"))
        (Engine.new { node := "node1" } 0).startTransition
      out.1 = .stopped ∧ out.2.1.complete = true ∧
        out.2.1.actions.map (fun a => (a.id, a.status)) =
          [(1, .executed), (2, .failed .initiation)] ∧
        out.2.2.ledger.get "node1" = { jobs := 1 } ∧ out.2.2.timers.isArmed 1 = true) ∧
    ¬ GraphDocument.twoStarts.EndsAtRest := by
  have hfacts : ∀ g, GraphDocument.twoStarts.toGraph = .ok g →
      let out := g.run (Engine.dispatcher (.cutOff "node2"))
        (Engine.new { node := "node1" } 0).startTransition
      out.1 = .stopped ∧ out.2.1.complete = true ∧
        out.2.1.actions.map (fun a => (a.id, a.status)) =
          [(1, .executed), (2, .failed .initiation)] ∧
        out.2.2.ledger.get "node1" = { jobs := 1 } ∧ out.2.2.timers.isArmed 1 = true := by
    rintro _ ⟨⟩
    decide +kernel
  obtain ⟨g, hg⟩ : ∃ g, GraphDocument.twoStarts.toGraph = .ok g := ⟨_, rfl⟩
  obtain ⟨hstopped, hcomplete, hactions, hjobs, harmed⟩ := hfacts g hg
  refine ⟨⟨g, hg, hstopped, hcomplete, hactions, hjobs, harmed⟩, fun hrests => ?_⟩
  have hpass (p : PassResult × Graph × Engine Nat) : p = (p.1, p.2.1, p.2.2) := rfl
  have hrest := hrests g hg Nat (.cutOff "node2") (Engine.new { node := "node1" } 0) rfl rfl []
    trivial _ _ _ _ _ _ rfl (hpass _) (by rw [hstopped]; rfl)
  rw [hrest.unarmed 1] at harmed
  cases harmed

end ClusterTransition
