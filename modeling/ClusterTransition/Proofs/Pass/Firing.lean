import ClusterTransition.Proofs.Graph.Course
import ClusterTransition.Proofs.Graph.Onward
import ClusterTransition.Proofs.Pass.Ownership

/-! # A synapse fires once

The ids of the dispatch calls are kept in a log, one list for each pass.  A synapse that has not
fired has no call in it.  One that has fired has its calls in one place: they come one right after
the other in a single pass, and are the first of its actions in their order, all of them unless one
could not be set going (`Synapse.Logged`).

A pass keeps this up because it hands over pending actions only, so that no call is for an action
that was handed over before, and because the synapse that it fires is the only one whose actions it
hands over meanwhile (`PassState.Logged.step`).  Along the way every synapse goes forward
(`Graph.calls_trail`).
-/

namespace ClusterTransition

open ClusterTransition.Graph (Begun Edits Onward Reported)

/-! ## Logs -/

/-- In the log, the calls for the actions `ids` are the `block`: it stands in one pass, and there is
no other call for one of them. -/
def OneBlock (ids block : List ActionId) (log : List (List ActionId)) : Prop :=
  ∃ earlier before after later, log = earlier ++ (before ++ block ++ after) :: later ∧
    ∀ id ∈ ids, id ∉ earlier.flatten ∧ id ∉ before ∧ id ∉ after ∧ id ∉ later.flatten

/-- The calls for the actions `ids` are the `block`, with which the pass under way has come to its
present point: `past` are the calls of the passes before, and `now` those of this one. -/
def BlockAtEnd (ids block : List ActionId) (past : List (List ActionId)) (now : List ActionId) :
    Prop :=
  ∃ before, now = before ++ block ∧ ∀ id ∈ ids, id ∉ past.flatten ∧ id ∉ before

section Logs

variable {ids block now : List ActionId} {log past : List (List ActionId)} {id : ActionId}

theorem OneBlock.next (h : OneBlock ids block log) : OneBlock ids block (log ++ [[]]) := by
  obtain ⟨earlier, before, after, later, rfl, hids⟩ := h
  refine ⟨earlier, before, after, later ++ [[]], by simp, fun id hid => ?_⟩
  simpa using hids id hid

/-- A call for another action comes after the block. -/
theorem OneBlock.call (h : OneBlock ids block (past ++ [now])) (hid : id ∉ ids) :
    OneBlock ids block (past ++ [now ++ [id]]) := by
  obtain ⟨earlier, before, after, later, heq, hids⟩ := h
  have hother : ∀ x ∈ ids, x ≠ id := by
    rintro x hx rfl
    exact hid hx
  rcases append_singleton_eq_append_cons_iff.mp heq with ⟨rfl, rfl, hnow⟩ | ⟨later, rfl, rfl⟩
  · -- the block stands in the present pass
    subst hnow
    refine ⟨past, before, after ++ [id], [], by simp, fun x hx => ?_⟩
    obtain ⟨hearlier, hbefore, hafter, -⟩ := hids x hx
    simp [hearlier, hbefore, hafter, hother x hx]
  · refine ⟨earlier, before, after, later ++ [now ++ [id]], by simp, fun x hx => ?_⟩
    have := hids x hx
    simp only [List.flatten_append, List.flatten_cons, List.flatten_nil, List.append_nil,
      List.mem_append, not_or] at this ⊢
    simp [this, hother x hx]

theorem BlockAtEnd.oneBlock (h : BlockAtEnd ids block past now) :
    OneBlock ids block (past ++ [now]) := by
  obtain ⟨before, rfl, hids⟩ := h
  exact ⟨past, before, [], [], by simp, fun id hid => by simp [hids id hid]⟩

/-- Before the first call for one of the actions the block is empty. -/
theorem BlockAtEnd.of_uncalled (h : ∀ id ∈ ids, id ∉ (past ++ [now]).flatten) :
    BlockAtEnd ids [] past now :=
  ⟨now, by simp, fun id hid => by simpa using h id hid⟩

theorem BlockAtEnd.call (h : BlockAtEnd ids block past now) (id : ActionId) :
    BlockAtEnd ids (block ++ [id]) past (now ++ [id]) := by
  obtain ⟨before, rfl, hids⟩ := h
  exact ⟨before, by simp, hids⟩

end Logs

/-! ## The ids of a synapse -/

namespace Graph

/-- The ids of the actions at the given slots. -/
def idsAt (g : Graph) (slots : List Nat) : List ActionId :=
  slots.filterMap fun k => g.actions[k]?.map (·.id)

variable {g g' : Graph}

theorem idsAt_plan (g : Graph) (slots : List Nat) : g.plan.idsAt slots = g.idsAt slots := by
  simp [idsAt, plan, Function.comp_def, Action.plan]

theorem idsAt_of_plan (h : g'.plan = g.plan) (slots : List Nat) :
    g'.idsAt slots = g.idsAt slots := by
  rw [← idsAt_plan, h, idsAt_plan]

theorem idsAt_append (g : Graph) (before after : List Nat) :
    g.idsAt (before ++ after) = g.idsAt before ++ g.idsAt after :=
  List.filterMap_append

theorem idsAt_singleton {slot : Nat} {a : Action} (ha : g.actions[slot]? = some a) :
    g.idsAt [slot] = [a.id] := by
  simp [idsAt, ha]

/-- The action of one synapse is not among those of another. -/
theorem WellFormed.notMem_idsAt (hw : g.WellFormed) {p q k : Nat} {s t : Synapse} {a : Action}
    (hs : g.synapses[p]? = some s) (ht : g.synapses[q]? = some t) (hne : p ≠ q)
    (hk : k ∈ s.actions) (ha : g.actions[k]? = some a) : a.id ∉ g.idsAt t.actions := by
  intro hmem
  obtain ⟨j, hj, hid⟩ := List.mem_filterMap.mp hmem
  obtain ⟨b, hb, heq⟩ := Option.map_eq_some_iff.mp hid
  have hslot := hw.slotOf?_id hb
  rw [heq, hw.slotOf?_id ha, Option.some.injEq] at hslot
  exact hne (hw.owner_unique hs ht hk (hslot ▸ hj))

end Graph

/-! ## What the log says of a synapse -/

/-- The synapse handed over the first of its actions in one block, and all of them unless one could
not be set going. -/
def Synapse.HandedOver (g : Graph) (log : List (List ActionId)) (s : Synapse) : Prop :=
  ∃ block, block <+: g.idsAt s.actions ∧ OneBlock (g.idsAt s.actions) block log ∧
    (block = g.idsAt s.actions ∨ ∃ k ∈ s.actions, g.statusAt k = some (.failed .initiation))

/-- The log has the calls of the synapse in one block if it has fired, and none if it has not. -/
def Synapse.Logged (g : Graph) (log : List (List ActionId)) (s : Synapse) : Prop :=
  if s.status.isExecuted then s.HandedOver g log
  else ∀ id ∈ g.idsAt s.actions, id ∉ log.flatten

namespace Synapse

variable {g g' : Graph} {s s' : Synapse} {log past : List (List ActionId)}

theorem Logged.of_plan (h : s.Logged g log) (hplan : g'.plan = g.plan)
    (hactions : s'.actions = s.actions)
    (hexec : s'.status.isExecuted = s.status.isExecuted)
    (hfailed : ∀ k, g.statusAt k = some (.failed .initiation) →
      g'.statusAt k = some (.failed .initiation)) : s'.Logged g' log := by
  simp only [Logged, HandedOver, hactions, hexec, Graph.idsAt_of_plan hplan] at h ⊢
  split at h
  · rename_i hfired
    rw [if_pos hfired]
    obtain ⟨block, hinit, hblock, hall | ⟨k, hk, hstatus⟩⟩ := h
    · exact ⟨block, hinit, hblock, .inl hall⟩
    · exact ⟨block, hinit, hblock, .inr ⟨k, hk, hfailed k hstatus⟩⟩
  · rename_i hidle
    rwa [if_neg hidle]

theorem Logged.next (h : s.Logged g log) : s.Logged g (log ++ [[]]) := by
  simp only [Logged, HandedOver] at h ⊢
  split at h
  · rename_i hfired
    rw [if_pos hfired]
    obtain ⟨block, hinit, hblock, hall⟩ := h
    exact ⟨block, hinit, hblock.next, hall⟩
  · rename_i hidle
    rw [if_neg hidle]
    simpa using h

/-- A call for an action of another synapse. -/
theorem Logged.call {now : List ActionId} (h : s.Logged g (past ++ [now])) {id : ActionId}
    (hid : id ∉ g.idsAt s.actions) : s.Logged g (past ++ [now ++ [id]]) := by
  simp only [Logged, HandedOver] at h ⊢
  split at h
  · rename_i hfired
    rw [if_pos hfired]
    obtain ⟨block, hinit, hblock, hall⟩ := h
    exact ⟨block, hinit, hblock.call hid, hall⟩
  · rename_i hidle
    rw [if_neg hidle]
    intro x hx
    have hne : x ≠ id := by
      rintro rfl
      exact hid hx
    have hold := h x hx
    simp only [List.flatten_append, List.flatten_cons, List.flatten_nil, List.append_nil,
      List.mem_append, not_or] at hold ⊢
    simp [hold, hne]

end Synapse

/-! ## What the log says of a graph -/

/-- The log has each call once, and says of every synapse but the one that is being fired how it
was handed over. -/
structure Graph.Logged (g : Graph) (log : List (List ActionId)) (firing : Option Nat) : Prop where
  begun : ∀ id ∈ log.flatten, g.Begun id
  nodup : log.flatten.Nodup
  synapses : ∀ (p : Nat) (s : Synapse), g.synapses[p]? = some s → firing ≠ some p → s.Logged g log

namespace Graph

variable {g g' : Graph} {log past : List (List ActionId)} {firing : Option Nat}

theorem Fresh.logged (h : g.Fresh) : g.Logged [] none where
  begun := by simp
  nodup := by simp
  synapses := by
    intro p s hs _
    have hidle : s.status.isExecuted = false := by
      rw [h.synapses s (List.mem_of_getElem? hs)]
      rfl
    simp [Synapse.Logged, hidle]

theorem Logged.of_plan (h : g.Logged log firing) (hplan : g'.plan = g.plan)
    (hbegun : ∀ id, g.Begun id → g'.Begun id)
    (hfailed : ∀ k, g.statusAt k = some (.failed .initiation) →
      g'.statusAt k = some (.failed .initiation))
    (hexec : ∀ (p : Nat) (s' : Synapse), g'.synapses[p]? = some s' → firing ≠ some p →
      ∃ s, g.synapses[p]? = some s ∧ s'.plan = s.plan ∧
        s'.status.isExecuted = s.status.isExecuted) : g'.Logged log firing := by
  refine ⟨fun id hid => hbegun id (h.begun id hid), h.nodup, fun p s' hs' hp => ?_⟩
  obtain ⟨s, hs, hsplan, hsexec⟩ := hexec p s' hs' hp
  exact (h.synapses p s hs hp).of_plan hplan (Synapse.actions_eq_of_plan hsplan) hsexec hfailed

theorem Logged.edits {id : ActionId} (h : g.Logged log firing) (hedits : Edits id g g') :
    g'.Logged log firing :=
  h.of_plan hedits.plan (fun _ hbegun => hbegun.edits hedits)
    (fun _ hk => hedits.keeps_confirmed hk rfl) fun _ _ hs' _ => hedits.isExecuted hs'

theorem Logged.reported (h : g.Logged log firing) (hreported : Reported g g') :
    g'.Logged log firing := by
  induction hreported with
  | refl => exact h
  | tail _ step ih =>
    obtain ⟨id, hedits⟩ := step
    exact ih.edits hedits

/-- A move without a call. -/
theorem Logged.next (h : g.Logged log firing) : g.Logged (log ++ [[]]) firing :=
  ⟨by simpa using h.begun, by simpa using h.nodup, fun p s hs hp => (h.synapses p s hs hp).next⟩

/-- Marking a pending action as handed over. -/
theorem Logged.mark (h : g.Logged log firing) {slot : Nat}
    (hpending : g.statusAt slot = some .pending) :
    (g.setStatusAt slot .executed).Logged log firing := by
  refine h.of_plan (plan_setStatusAt ..) (fun _ hid => hid.setStatusAt (by simp)) (fun k hk => ?_)
    fun p s hs _ => ⟨s, hs, rfl, rfl⟩
  rw [statusAt_setStatusAt, if_neg, hk]
  rintro rfl
  rw [hpending] at hk
  cases hk

/-- A synapse may change its status as long as it has not fired. -/
theorem Logged.setSynapseStatus (h : g.Logged log firing) {pos : Nat} {s : Synapse}
    {status : SynapseStatus} (hs : g.synapses[pos]? = some s)
    (hexec : firing ≠ some pos → status.isExecuted = s.status.isExecuted) :
    (g.setSynapseStatus pos status).Logged log firing := by
  refine h.of_plan (plan_setSynapseStatus ..) (fun _ hid => hid) (fun _ hk => hk) ?_
  intro p t' ht' hp
  obtain ⟨t, ht, ⟨rfl, rfl⟩ | ⟨-, rfl⟩⟩ := setSynapseStatus_cases ht'
  · obtain rfl : s = t := Option.some.inj (hs.symm.trans ht)
    exact ⟨s, hs, rfl, hexec hp⟩
  · exact ⟨t', ht, rfl, rfl⟩

/-- The call for a pending action of the synapse that is being fired. -/
theorem Logged.call {now : List ActionId} {pos slot : Nat} {s : Synapse} {a : Action}
    (h : g.Logged (past ++ [now]) (some pos)) (hw : g.WellFormed)
    (hs : g.synapses[pos]? = some s) (hslot : slot ∈ s.actions) (ha : g.actions[slot]? = some a)
    (hpending : a.status = .pending) :
    (g.setStatusAt slot .executed).Logged (past ++ [now ++ [a.id]]) (some pos) := by
  have hstatus : g.statusAt slot = some .pending := hpending ▸ statusAt_eq ha
  have hmark := h.mark hstatus
  have hlog : (past ++ [now ++ [a.id]]).flatten = (past ++ [now]).flatten ++ [a.id] := by simp
  have hplan := plan_setStatusAt g slot .executed
  refine ⟨fun id hid => ?_, ?_, fun p t ht hp => ?_⟩
  · rw [hlog] at hid
    rcases List.mem_append.mp hid with hid | hid
    · exact hmark.begun id hid
    · obtain rfl := List.mem_singleton.mp hid
      refine .of_slot ((slotOf?_eq_of_plan hplan a.id).trans (hw.slotOf?_id ha)) ?_
      simp [statusAt_setStatusAt, hstatus]
  · -- an action with a call is no longer pending
    have hnew : a.id ∉ (past ++ [now]).flatten := fun hid =>
      h.begun a.id hid slot (hw.slotOf?_id ha) hstatus
    rw [hlog]
    exact List.nodup_append.mpr ⟨h.nodup, by simp, fun x hx y hy => by
      rw [List.mem_singleton.mp hy]
      rintro rfl
      exact hnew hx⟩
  · have hne : pos ≠ p := fun heq => hp (heq ▸ rfl)
    refine (hmark.synapses p t ht hp).call ?_
    rw [idsAt_of_plan hplan]
    exact hw.notMem_idsAt hs ht hne hslot ha

/-- The synapse that is being fired has handed over what it will. -/
theorem Logged.fired {pos : Nat} {s : Synapse} (h : g.Logged log (some pos))
    (hs : g.synapses[pos]? = some s) (hfired : s.status.isExecuted) (hlogged : s.HandedOver g log) :
    g.Logged log none := by
  refine ⟨h.begun, h.nodup, fun p t ht _ => ?_⟩
  by_cases hp : p = pos
  · subst hp
    obtain rfl : s = t := Option.some.inj (hs.symm.trans ht)
    rw [Synapse.Logged, if_pos hfired]
    exact hlogged
  · exact h.synapses p t ht fun heq => hp (Option.some.inj heq).symm

/-- The firing of a synapse fails at one of its actions. -/
theorem Logged.failFiring {pos slot : Nat} {s : Synapse} {block : List ActionId}
    (h : g.Logged log (some pos)) (hw : g.WellFormed) (hs : g.synapses[pos]? = some s)
    (hslot : slot ∈ s.actions) (hinit : block <+: g.idsAt s.actions)
    (hblock : OneBlock (g.idsAt s.actions) block log) :
    (g.failFiring pos slot).Logged log none := by
  have hplan := plan_failFiring g pos slot
  have hfail : (g.failFiring pos slot).synapses[pos]? = some { s with status := .failed } :=
    setSynapseStatus_getElem? (g := g.setStatusAt slot (.failed .initiation)) hs .failed
  have hat (k : Nat) : (g.failFiring pos slot).statusAt k =
      (g.setStatusAt slot (.failed .initiation)).statusAt k := rfl
  have hgraph : (g.failFiring pos slot).Logged log (some pos) := by
    refine h.of_plan hplan (fun id hid => ?_) (fun k hk => ?_) fun p t ht hp => ?_
    · have hset : (g.setStatusAt slot (.failed .initiation)).Begun id :=
        hid.setStatusAt (by simp)
      exact hset
    · rw [hat, statusAt_setStatusAt]
      split
      · rw [hk]
        rfl
      · exact hk
    · obtain ⟨t₀, ht₀, ⟨rfl, -⟩ | ⟨-, rfl⟩⟩ := setSynapseStatus_cases ht
      · exact absurd rfl hp
      · exact ⟨t, ht₀, rfl, rfl⟩
  refine hgraph.fired hfail rfl ⟨block, ?_, ?_, .inr ⟨slot, hslot, ?_⟩⟩
  · rwa [idsAt_of_plan hplan]
  · rwa [idsAt_of_plan hplan]
  · have hlt := hw.slot_lt (List.mem_of_getElem? hs) hslot
    rw [hat, statusAt_setStatusAt, if_pos rfl, statusAt_eq (List.getElem?_eq_getElem hlt)]
    rfl

end Graph

/-! ## A pass -/

/-- The synapse that the pass is firing. -/
def PassStage.firing? : PassStage → Option Nat
  | .visiting => none
  | .firing pos _ => some pos

/-- The ids of the calls that a pass has made so far. -/
def PassState.called {σ : Type} (x : PassState (σ × List DispatchCall)) : List ActionId :=
  x.state.2.map (·.id)

/-- Where a pass stands with respect to the log: the synapse that it fires has handed over its
actions up to the present one, and there was no other call since it began to fire. -/
structure PassState.Logged {σ : Type} (past : List (List ActionId))
    (x : PassState (σ × List DispatchCall)) : Prop where
  orderly : x.Orderly
  logged : x.graph.Logged (past ++ [x.called]) x.stage.firing?
  firing : ∀ pos slots, x.stage = .firing pos slots → ∃ s done, x.graph.synapses[pos]? = some s ∧
    s.actions = done ++ slots ∧
      BlockAtEnd (x.graph.idsAt s.actions) (x.graph.idsAt done) past x.called

section Pass

variable {σ : Type} {d : Dispatcher σ} {past : List (List ActionId)}

/-- What a call leaves: the action is in the log, and its synapse comes to the next one. -/
theorem PassState.Logged.handed (hd : d.Handles) {g g' : Graph}
    {st st' : σ × List DispatchCall} {pos slot : Nat} {slots : List Nat} {a : Action}
    {channel : Channel} {ok : Bool}
    (hx : PassState.Logged past ⟨.firing pos (slot :: slots), g, st⟩)
    (ha : g.actions[slot]? = some a) (hpending : a.status = .pending)
    (hgoes : d.recording.dispatch channel a.id (g.setStatusAt slot .executed) st = (ok, g', st')) :
    g'.Logged (past ++ [st'.2.map (·.id)]) (some pos) ∧
      ∃ s done, g'.synapses[pos]? = some s ∧ s.actions = done ++ slots ∧ slot ∈ s.actions ∧
        BlockAtEnd (g'.idsAt s.actions) (g'.idsAt done) past (st'.2.map (·.id)) := by
  obtain ⟨s, done, hs, hactions, hblock⟩ := hx.firing pos _ rfl
  have hslot : slot ∈ s.actions := by simp [hactions]
  have hedits := hd.recording.edits hgoes
  have hplan := hedits.plan.trans (Graph.plan_setStatusAt ..)
  have hcalls : st'.2.map (·.id) = st.2.map (·.id) ++ [a.id] := by
    simp only [Dispatcher.recording, Prod.mk.injEq] at hgoes
    obtain ⟨-, -, rfl⟩ := hgoes
    simp
  have hcall := hx.logged.call hx.orderly.wellFormed hs hslot ha hpending
  rw [hcalls]
  refine ⟨hcall.edits hedits, ?_⟩
  obtain ⟨s', hs', hsplan⟩ := Graph.synapse_of_plan hplan.symm hs
  have hacts := (Synapse.actions_eq_of_plan hsplan).symm
  refine ⟨s', done ++ [slot], hs', by simp [hacts, hactions], hacts ▸ hslot, ?_⟩
  rw [hacts, Graph.idsAt_of_plan hplan, Graph.idsAt_of_plan hplan, Graph.idsAt_append,
    Graph.idsAt_singleton ha]
  exact hblock.call a.id

theorem PassState.Logged.step (hd : d.Handles) {x y : PassState (σ × List DispatchCall)}
    (hx : x.Logged past) (h : PassStep d.recording x y) : y.Logged past := by
  have horderly := hx.orderly.step hd.recording h
  have hw := hx.orderly.wellFormed
  have hidle {stage : PassStage} (hstage : stage = .visiting) {P : Nat → List Nat → Prop} :
      ∀ pos slots, stage = .firing pos slots → P pos slots := by
    rintro pos slots rfl
    cases hstage
  cases h with
  | count g st f =>
    have hlogged : (g.count f).Logged (past ++ [st.2.map (·.id)]) none :=
      hx.logged.of_plan rfl (fun _ hid => hid) (fun _ hk => hk) fun _ s hs _ => ⟨s, hs, rfl, rfl⟩
    exact ⟨horderly, hlogged, hidle rfl⟩
  | conclude g st complete =>
    have hlogged : ({ g with complete } : Graph).Logged (past ++ [st.2.map (·.id)]) none :=
      hx.logged.of_plan rfl (fun _ hid => hid) (fun _ hk => hk) fun _ s hs _ => ⟨s, hs, rfl, rfl⟩
    exact ⟨horderly, hlogged, hidle rfl⟩
  | ready st hs hwaits hinputs =>
    refine ⟨horderly, hx.logged.setSynapseStatus hs fun _ => ?_, hidle rfl⟩
    rcases hwaits with h | h
    · rw [h]
      rfl
    · rw [h]
  | skip st hs hready hslot ha hpseudo hlevel =>
    refine ⟨horderly, hx.logged.setSynapseStatus hs fun _ => ?_, hidle rfl⟩
    rw [hready]
    rfl
  | @fire g st pos s hs hready hinputs hallowed =>
    have hbefore := hx.logged.synapses pos s hs (by simp [PassStage.firing?])
    simp only [Synapse.Logged, hready, SynapseStatus.isExecuted, Bool.false_eq_true,
      if_false] at hbefore
    have hothers : g.Logged (past ++ [st.2.map (·.id)]) (some pos) :=
      ⟨hx.logged.begun, hx.logged.nodup, fun p t ht _ =>
        hx.logged.synapses p t ht (by simp [PassStage.firing?])⟩
    have hfires : (g.setSynapseStatus pos .executing).Logged (past ++ [st.2.map (·.id)])
        (some pos) := hothers.setSynapseStatus hs fun h => absurd rfl h
    refine ⟨horderly, hfires.of_plan rfl (fun _ hid => hid) (fun _ hk => hk)
      fun _ t ht _ => ⟨t, ht, rfl, rfl⟩, ?_⟩
    rintro _ _ ⟨⟩
    exact ⟨_, [], Graph.setSynapseStatus_getElem? hs .executing, rfl, .of_uncalled hbefore⟩
  | dispatch pos slots ha hpending hchannel hgoes =>
    obtain ⟨hlogged, s, done, hs, hactions, -, hblock⟩ := hx.handed hd ha hpending hgoes
    refine ⟨horderly, hlogged, ?_⟩
    rintro _ _ ⟨⟩
    exact ⟨s, done, hs, hactions, hblock⟩
  | @refuse g g' st st' pos slot slots a channel ha hpending hchannel hstays =>
    obtain ⟨hlogged, s, done, hs, hactions, hslot, hblock⟩ := hx.handed hd ha hpending hstays
    have hplan := (hd.recording.edits hstays).plan.trans (Graph.plan_setStatusAt ..)
    refine ⟨horderly, hlogged.failFiring (hw.of_plan hplan) hs hslot ?_ hblock.oneBlock, hidle rfl⟩
    rw [hactions, Graph.idsAt_append]
    exact List.prefix_append ..
  | @unroutable g st pos slot slots a ha hpending hchannel =>
    obtain ⟨s, done, hs, hactions, hblock⟩ := hx.firing pos _ rfl
    have hplan := Graph.plan_setStatusAt g slot .executed
    have hmark := hx.logged.mark (hpending ▸ Graph.statusAt_eq ha)
    refine ⟨horderly, hmark.failFiring (hw.of_plan hplan) hs (by simp [hactions]) ?_
      (Graph.idsAt_of_plan hplan _ ▸ hblock.oneBlock), hidle rfl⟩
    rw [Graph.idsAt_of_plan hplan, hactions, Graph.idsAt_append]
    exact List.prefix_append ..
  | @again g st pos slot slots hexec =>
    obtain ⟨s, done, hs, hactions, hblock⟩ := hx.firing pos _ rfl
    refine ⟨horderly, hx.logged.failFiring hw hs (by simp [hactions]) ?_ hblock.oneBlock,
      hidle rfl⟩
    rw [hactions, Graph.idsAt_append]
    exact List.prefix_append ..
  | fired g st pos =>
    obtain ⟨s, done, hs, hactions, hblock⟩ := hx.firing pos _ rfl
    obtain ⟨-, -, t, ht, hfired, -⟩ := hx.orderly.firing pos _ rfl
    obtain rfl : s = t := Option.some.inj (hs.symm.trans ht)
    obtain rfl : s.actions = done := by simpa using hactions
    exact ⟨horderly, hx.logged.fired hs hfired
      ⟨_, List.prefix_refl _, hblock.oneBlock, .inl rfl⟩, hidle rfl⟩

/-- **A pass adds its calls to the log.** -/
theorem Graph.Logged.run (hsteady : d.Steady) (hd : d.Handles) {g : Graph}
    {log : List (List ActionId)} (h : g.Logged log none) (hw : g.WellFormed) (hu : g.Untouched)
    (st : σ) :
    (g.run d st).2.1.Untouched ∧
      (g.run d st).2.1.Logged (log ++ [(g.calls d st).map (·.id)]) none := by
  have hstart : PassState.Logged log ⟨.visiting, g, (st, ([] : List DispatchCall))⟩ :=
    ⟨⟨hw, hu, by simp⟩, h.next, by simp⟩
  have hend := Graph.run_induction hsteady.recording (fun _ _ hstep hx => hx.step hd hstep)
    g (st, []) hstart
  rw [Graph.run_recording d g (st, [])]
  exact ⟨hend.orderly.untouched, hend.logged⟩

end Pass

/-! ## The way of the synapses -/

/-- The graphs at the given moments lead to one another in order, and to the present one. -/
def Graph.Trail (moments : List Graph) (g : Graph) : Prop := (moments ++ [g]).Pairwise Onward

namespace Graph

variable {g g' : Graph} {moments : List Graph}

theorem Trail.onward (h : Trail moments g) (hon : g.Onward g') : Trail moments g' := by
  obtain ⟨hmoments, -, hlead⟩ := List.pairwise_append.mp h
  refine List.pairwise_append.mpr ⟨hmoments, List.pairwise_singleton .., fun m hm x hx => ?_⟩
  rw [List.mem_singleton.mp hx]
  exact (hlead m hm g (List.mem_singleton_self g)).trans hon

/-- The present is a moment. -/
theorem Trail.mark (h : Trail moments g) : Trail (moments ++ [g]) g := by
  refine List.pairwise_append.mpr ⟨h, List.pairwise_singleton .., fun m hm x hx => ?_⟩
  rw [List.mem_singleton.mp hx]
  rcases List.mem_append.mp hm with hm | hm
  · exact (List.pairwise_append.mp h).2.2 m hm g (List.mem_singleton_self g)
  · rw [List.mem_singleton.mp hm]
    exact .refl g

end Graph

section Pass

variable {σ : Type} {d : Dispatcher σ}

theorem onward_failFiring {g : Graph} {pos : Nat} (slot : Nat) {s : Synapse}
    (hs : g.synapses[pos]? = some s) (hfired : s.status.isExecuted) :
    g.Onward (g.failFiring pos slot) := by
  refine Graph.onward_setSynapseStatus (g := g.setStatusAt slot (.failed .initiation))
    fun t ht => ?_
  obtain rfl : s = t := Option.some.inj (hs.symm.trans ht)
  exact .failed hfired

/-- **In every step of a pass the synapses go forward.** -/
theorem PassStep.onward (hd : d.Handles) {x y : PassState σ} (hx : x.Orderly)
    (h : PassStep d x y) : x.graph.Onward y.graph := by
  have hset {g : Graph} {pos : Nat} {s : Synapse} {status : SynapseStatus}
      (hs : g.synapses[pos]? = some s) (hleads : s.status.Leads status) :
      g.Onward (g.setSynapseStatus pos status) := by
    refine Graph.onward_setSynapseStatus fun t ht => ?_
    obtain rfl : s = t := Option.some.inj (hs.symm.trans ht)
    exact hleads
  cases h with
  | count | fired | conclude => exact .of_eq rfl
  | ready st hs hwaits hinputs =>
    refine hset hs ?_
    rcases hwaits with h | h <;> (rw [h]; decide)
  | skip st hs hready hslot ha hpseudo hlevel => exact hset hs (by rw [hready]; decide)
  | fire st hs hready hinputs hallowed => exact hset hs (by rw [hready]; decide)
  | dispatch pos slots ha hpending hchannel hgoes => exact (hd.edits hgoes).onward
  | @refuse _ _ st _ pos slot slots _ _ ha hpending hchannel hstays =>
    obtain ⟨-, -, s, hs, hfired, -⟩ := (hx.handed (hd.edits hstays) st).firing pos _ rfl
    have hedits := (hd.edits hstays).onward
    exact hedits.trans (onward_failFiring slot hs hfired)
  | @unroutable _ st pos slot slots _ ha hpending hchannel =>
    obtain ⟨-, -, s, hs, hfired, -⟩ := hx.firing pos _ rfl
    have hfails := onward_failFiring slot hs hfired
    exact hfails
  | again st pos slots hslot =>
    obtain ⟨-, -, s, hs, hfired, -⟩ := hx.firing pos _ rfl
    exact onward_failFiring _ hs hfired

/-- **From call to call of a pass the synapses go forward.** -/
theorem Graph.calls_trail (hsteady : d.Steady) (hd : d.Handles) {g : Graph} {moments : List Graph}
    (h : Trail moments g) (hw : g.WellFormed) (hu : g.Untouched) (st : σ) :
    Trail (moments ++ (g.calls d st).map (·.graph)) (g.run d st).2.1 := by
  let P (x : PassState (σ × List DispatchCall)) : Prop :=
    x.Orderly ∧ Trail (moments ++ x.state.2.map (·.graph)) x.graph
  have hcall {g g' : Graph} {st st' : σ × List DispatchCall} {id : ActionId} {slot : Nat}
      {channel : Channel} {ok : Bool} (h : Trail (moments ++ st.2.map (·.graph)) g)
      (hgoes : d.recording.dispatch channel id (g.setStatusAt slot .executed) st = (ok, g', st')) :
      Trail (moments ++ st'.2.map (·.graph)) (g.setStatusAt slot .executed) := by
    have hset : Trail (moments ++ st.2.map (·.graph)) (g.setStatusAt slot .executed) :=
      h.onward (.of_eq rfl)
    simp only [Dispatcher.recording, Prod.mk.injEq] at hgoes
    obtain ⟨-, -, rfl⟩ := hgoes
    simpa using hset.mark
  have hstep : ∀ x y, PassStep d.recording x y → P x → P y := by
    rintro x y hxy ⟨hx, htrail⟩
    refine ⟨hx.step hd.recording hxy, ?_⟩
    have honward := hxy.onward hd.recording hx
    cases hxy with
    | count | ready | skip | fire | unroutable | again | fired | conclude =>
      exact htrail.onward honward
    | dispatch pos slots ha hpending hchannel hgoes => exact (hcall htrail hgoes).onward honward
    | refuse pos slots ha hpending hchannel hstays => exact (hcall htrail hstays).onward honward
  have hend := Graph.run_induction hsteady.recording hstep g (st, [])
    ⟨⟨hw, hu, by simp⟩, by simpa using h⟩
  rw [Graph.run_recording d g (st, [])]
  exact hend.2

end Pass
end ClusterTransition
