import ClusterTransition.Proofs.Document.ReadyOrders
import ClusterTransition.Proofs.Engine.Completion
import ClusterTransition.Proofs.Simulation.Firing

/-! # Walks

A dry run in which nothing fails walks a graph along an order of its synapses
(`Simulator.Walked`): those in the order are confirmed, the others wait, and the notes are those of
the actions in the order.  A visit adds the synapse to the order if all that it waits for is owned
by synapses of the order, and leaves it alone otherwise (`Simulator.Walked.visit`).  So the order is
ready at all times, and a pass that adds nothing to it finds it closed (`Simulator.Walked.run`).

Since a fired synapse is confirmed at once nothing is ever pending, and the batch limit puts nothing
off.
-/

namespace ClusterTransition

/-! ## Documents for dry runs -/

/-- Nothing in the document stands in the way of a dry run: every synapse has something to carry
out, none is vetoed at the start, and every event of the cluster has a task. -/
structure GraphDocument.Rehearsable (d : GraphDocument) : Prop where
  actions : ∀ s ∈ d.synapses, s.actions ≠ []
  priority : ∀ s ∈ d.synapses, 0 ≤ s.priority
  task : ∀ a ∈ d.arena, a.kind = .clusterEvent → (nonempty a.task).isSome

namespace GraphDocument

variable {d : GraphDocument} {g₀ g : Graph}

theorem Rehearsable.graph (hd : d.Rehearsable) (h : d.LoadedAs g₀) : g₀.Rehearsable := by
  refine ⟨fun a ha => ?_, fun t ht => ?_, fun t ht hnone => ?_⟩
  · rw [h.actions] at ha
    obtain ⟨ad, had, rfl⟩ := List.mem_map.mp ha
    have hkind : ad.toAction.kind = ad.kind := rfl
    cases hk : ad.kind with
    | pseudo | resource => simp [Action.channel?, hkind, hk]
    | clusterEvent =>
      obtain ⟨task, htask⟩ := Option.isSome_iff_exists.mp (hd.task ad had hk)
      have htask' : ad.toAction.task = some task := htask
      simp only [Action.channel?, hkind, hk, htask']
      split <;> first | rfl | contradiction
  · obtain ⟨s, hs, hst⟩ := h.exists_document ht
    rw [hst.priority]
    exact hd.priority s hs
  · obtain ⟨s, hs, hst⟩ := h.exists_document ht
    have hmap := hst.actions
    rw [hnone] at hmap
    exact hd.actions s hs (List.map_eq_nil_iff.mp hmap.symm)

/-- The synapse at a position owns the slot of an id exactly if the document says so. -/
theorem LoadedAs.mem_idsAt_iff (h : d.LoadedAs g₀) {id : Int} {k q : Nat} {u : Synapse}
    (hslot : g₀.slotOf? id = some k) (hu : g₀.synapses[q]? = some u) :
    id ∈ d.idsAt q ↔ k ∈ u.actions := by
  obtain ⟨s, hs, hsu⟩ := h.exists_document_at hu
  rw [idsAt_eq hs]
  constructor
  · intro hid
    obtain ⟨a, ha, rfl⟩ := List.mem_map.mp hid
    have hmem := List.mem_map_of_mem (f := fun a : ActionDocument => some a.toAction) ha
    rw [← hsu.actions] at hmem
    obtain ⟨k', hk', hget⟩ := List.mem_map.mp hmem
    have hfind := h.wellFormed.slotOf?_id hget
    obtain rfl : k' = k := Option.some.inj (hfind.symm.trans hslot)
    exact hk'
  · intro hk
    obtain ⟨a, ha, -, rfl⟩ := Graph.exists_action_of_slotOf? hslot
    have hmem := List.mem_map_of_mem (f := fun k => g₀.actions[k]?) hk
    rw [hsu.actions, ha] at hmem
    obtain ⟨ad, had, heq⟩ := List.mem_map.mp hmem
    exact List.mem_map.mpr ⟨ad, had, congrArg Action.id (Option.some.inj heq)⟩

/-- Some synapses own all that a synapse waits for exactly if they own the slots of its inputs. -/
theorem LoadedAs.supports_iff (h : d.LoadedAs g₀) (hplan : g.plan = g₀.plan) {p : Nat}
    {s : SynapseDocument} {t : Synapse} (hs : d.synapses[p]? = some s)
    (ht : g.synapses[p]? = some t) {S : Set Nat} :
    d.Supports S s ↔
      ∀ i ∈ t.inputs, ∃ q ∈ S, ∃ u, g.synapses[q]? = some u ∧ i.slot ∈ u.actions := by
  obtain ⟨t₀, ht₀, hst⟩ := h.exists_synapse_at hs
  obtain ⟨t', ht', htplan⟩ := Graph.synapse_of_plan hplan ht
  obtain rfl : t₀ = t' := Option.some.inj (ht₀.symm.trans ht')
  -- the owner of a slot, in the document and in both graphs
  have howner {id : Int} {k : Nat} (hslot : g₀.slotOf? id = some k) (q : Nat) :
      id ∈ d.idsAt q ↔ ∃ u, g.synapses[q]? = some u ∧ k ∈ u.actions := by
    constructor
    · intro hid
      obtain ⟨sq, hsq, -⟩ := exists_synapse_of_mem_idsAt hid
      obtain ⟨u₀, hu₀, -⟩ := h.exists_synapse_at hsq
      obtain ⟨u, hu, huplan⟩ := Graph.synapse_of_plan hplan.symm hu₀
      exact ⟨u, hu, Synapse.actions_eq_of_plan huplan ▸ (h.mem_idsAt_iff hslot hu₀).mp hid⟩
    · rintro ⟨u, hu, hk⟩
      obtain ⟨u₀, hu₀, huplan⟩ := Graph.synapse_of_plan hplan hu
      exact (h.mem_idsAt_iff hslot hu₀).mpr (Synapse.actions_eq_of_plan huplan ▸ hk)
  have hslots := Synapse.inputs_eq_of_plan htplan
  constructor
  · intro hsupports i hi
    have hmem : i.slot ∈ t.inputs.map Input.slot := List.mem_map_of_mem hi
    rw [hslots] at hmem
    obtain ⟨i₀, hi₀, heq⟩ := List.mem_map.mp hmem
    have hnamed := List.mem_map_of_mem (f := fun i : Input => (some i.slot, i.satisfied)) hi₀
    rw [hst.inputs] at hnamed
    obtain ⟨id, hid, hpair⟩ := List.mem_map.mp hnamed
    have hslot : g₀.slotOf? id = some i.slot := heq ▸ (Prod.ext_iff.mp hpair).1
    obtain ⟨q, hq, howns⟩ := hsupports id hid
    exact ⟨q, hq, (howner hslot q).mp howns⟩
  · intro hall id hid
    have hnamed := List.mem_map_of_mem (f := fun id => (g₀.slotOf? id, false)) hid
    rw [← hst.inputs] at hnamed
    obtain ⟨i₀, hi₀, hpair⟩ := List.mem_map.mp hnamed
    have hslot : g₀.slotOf? id = some i₀.slot := (Prod.ext_iff.mp hpair).1.symm
    have hmem : i₀.slot ∈ t₀.inputs.map Input.slot := List.mem_map_of_mem hi₀
    rw [← hslots] at hmem
    obtain ⟨i, hi, heq⟩ := List.mem_map.mp hmem
    obtain ⟨q, hq, howns⟩ := hall i hi
    exact ⟨q, hq, (howner hslot q).mpr (heq ▸ howns)⟩

end GraphDocument

/-! ## Walks -/

namespace Simulator

variable {d : GraphDocument} {g₀ g : Graph} {order : List Nat} {st : Simulator} {pos : Nat}

/-- A dry run of the graph `g₀` of the document has walked along the order. -/
structure Walked (d : GraphDocument) (g₀ : Graph) (order : List Nat) (g : Graph)
    (st : Simulator) : Prop where
  plan : g.plan = g₀.plan
  rehearsed : g.Rehearsed
  undisturbed : st.options.Undisturbed
  inOrder : d.ReadyOrder order
  /-- What is in the order is done, -/
  confirmed : ∀ p ∈ order, ∀ s, g.synapses[p]? = some s → s.status = .confirmed
  /-- and nothing else was begun. -/
  waits : ∀ p ∉ order, ∀ s, g.synapses[p]? = some s → s.Waits
  ids : st.executed.map (·.id) = order.flatMap d.idsAt
  notes : ∀ e ∈ st.executed, ∃ a ∈ d.arena, e = a.toAction.confirmedIn e.pass

theorem Walked.start (hd : d.Rehearsable) (h : d.LoadedAs g₀) {options : SimulationOptions}
    (ho : options.Undisturbed) : Walked d g₀ [] g₀ { options } where
  plan := rfl
  rehearsed :=
    have hfresh := h.fresh
    ⟨h.wellFormed, hd.graph h, hfresh.onCourse h.wellFormed, hfresh.marksKnown, by
      intro s hs hready
      rw [hfresh.synapses s hs] at hready
      cases hready⟩
  undisturbed := ho
  inOrder := .nil
  confirmed := by simp
  waits p _ s hs := .inl (h.fresh.synapses s (List.mem_of_getElem? hs))
  ids := rfl
  notes := by simp

/-- Counters and the mark of completion do not matter. -/
theorem Walked.of_eq {g' : Graph} (h : Walked d g₀ order g st) (hplan : g'.plan = g.plan)
    (hlevel : g'.abortPriority = g.abortPriority) (hsynapses : g'.synapses = g.synapses)
    (hactions : g'.actions = g.actions) : Walked d g₀ order g' st :=
  ⟨hplan.trans h.plan, h.rehearsed.of_eq hplan hlevel hsynapses hactions, h.undisturbed, h.inOrder,
    fun p hp s hs => h.confirmed p hp s (hsynapses ▸ hs),
    fun p hp s hs => h.waits p hp s (hsynapses ▸ hs), h.ids, h.notes⟩

theorem Walked.count (h : Walked d g₀ order g st) (f : PassCounters → PassCounters) :
    Walked d g₀ order (g.count f) st :=
  h.of_eq rfl rfl rfl rfl

/-- The number of the pass does not matter. -/
theorem Walked.atPass (h : Walked d g₀ order g st) (pass : Nat) :
    Walked d g₀ order g { st with pass } :=
  ⟨h.plan, h.rehearsed, h.undisturbed, h.inOrder, h.confirmed, h.waits, h.ids, h.notes⟩

theorem Walked.length_eq (hloaded : d.LoadedAs g₀) (h : Walked d g₀ order g st) :
    g.synapses.length = d.synapses.length :=
  (Graph.synapses_length_of_plan h.plan).trans hloaded.synapses.length_eq.symm

/-- **A synapse that waits has its inputs satisfied exactly if the order supports it.** -/
theorem Walked.inputsSatisfied_iff (hloaded : d.LoadedAs g₀) (h : Walked d g₀ order g st)
    {s : SynapseDocument} {t : Synapse} (hs : d.synapses[pos]? = some s)
    (ht : g.synapses[pos]? = some t) (hnew : pos ∉ order) :
    t.inputsSatisfied g.actions = true ↔ d.Supports { q | q ∈ order } s := by
  have hw := h.rehearsed.wellFormed
  have hmem := List.mem_of_getElem? ht
  rw [hloaded.supports_iff h.plan hs ht]
  constructor
  · intro hinputs i hi
    obtain ⟨a, ha, hknown, -⟩ :=
      Synapse.cleared_of_inputsSatisfied hw h.rehearsed.marks hmem hinputs i hi
    obtain ⟨q, u, hu, hslot⟩ := hw.exists_owner (hw.inputs t hmem i hi)
    refine ⟨q, ?_, u, hu, hslot⟩
    -- the owner would have its actions pending
    by_contra hq
    have hcourse := h.rehearsed.course.synapses u (List.mem_of_getElem? hu)
    have hpending := (hcourse.of_waits (h.waits q hq u hu)).1 i.slot hslot
    rw [Graph.statusAt_eq ha, Option.some.injEq] at hpending
    rw [hpending] at hknown
    cases hknown
  · intro hall
    refine List.all_eq_true.mpr fun i hi => ?_
    obtain ⟨q, hq, u, hu, hslot⟩ := hall i hi
    have hcourse := h.rehearsed.course.synapses u (List.mem_of_getElem? hu)
    have hconfirmed := hcourse.of_confirmed (h.confirmed q hq u hu) i.slot hslot
    rw [h.rehearsed.course.isOpen_eq]
    exact ((h.rehearsed.course.synapses t hmem).of_waits (h.waits pos hnew t ht)).2 i hi hconfirmed

/-! ## Visits -/

/-- What the visit of a position does to a walk. -/
inductive Visit (d : GraphDocument) (g₀ : Graph) (order : List Nat) (g : Graph) (st : Simulator)
    (pos : Nat) : Graph × Simulator → Prop where
  /-- The synapse is done. -/
  | past (hold : pos ∈ order) : Visit d g₀ order g st pos (g, st)
  /-- The synapse waits for something that is not done. -/
  | blocked (hnew : pos ∉ order)
      (hopen : ∀ s, d.synapses[pos]? = some s → ¬ d.Supports { q | q ∈ order } s) :
      Visit d g₀ order g st pos (g.count fun c => { c with incomplete := c.incomplete + 1 }, st)
  /-- The synapse is fired and done. -/
  | fired {g' : Graph} {st' : Simulator} (hwalked : Walked d g₀ (order ++ [pos]) g' st')
      (hpass : st'.pass = st.pass)
      (hcounters : g'.counters = { g.counters with fired := g.counters.fired + 1 }) :
      Visit d g₀ order g st pos (g', st')

/-- What a synapse notes when it fires are the actions of the document. -/
theorem Walked.confirming_eq (h : Walked d g₀ order g st) {s : SynapseDocument} {t t₀ : Synapse}
    (hst : SynapseDocument.LoadedAs g₀ s t₀) (hplan : t.plan = t₀.plan) :
    st.confirming (t.actions.filterMap (g.actions[·]?)) =
      st.confirming (s.actions.map ActionDocument.toAction) := by
  refine st.confirming_of_plan ?_
  rw [Graph.map_plan_filterMap h.plan, Synapse.actions_eq_of_plan hplan, hst.filterMap_actions]

/-- A synapse that the order supports is fired. -/
theorem Walked.fires (hloaded : d.LoadedAs g₀) (h : Walked d g₀ order g st) {t : Synapse}
    (ht : g.synapses[pos]? = some t) (hnew : pos ∉ order)
    (hinputs : t.inputsSatisfied g.actions = true) :
    Visit d g₀ order g st pos (Graph.visit dispatcher pos t g st) := by
  obtain ⟨g', hvisit, hrehearsed, hspreads, t', ht', hconfirmed⟩ :=
    h.rehearsed.visit_eq h.undisturbed ht (h.waits pos hnew t ht) hinputs
  have hplan : g'.plan = g.plan := hspreads.plan
  obtain ⟨t₀, ht₀, htplan⟩ := Graph.synapse_of_plan h.plan ht
  obtain ⟨s, hs, hst⟩ := hloaded.exists_document_at ht₀
  rw [hvisit, h.confirming_eq hst htplan]
  refine .fired ⟨hplan.trans h.plan, hrehearsed, h.undisturbed, ?_, ?_, ?_, ?_, ?_⟩ rfl
    hspreads.counters
  · exact .snoc h.inOrder hnew hs ((h.inputsSatisfied_iff hloaded hs ht hnew).mp hinputs)
  · intro p hp u' hu'
    by_cases heq : p = pos
    · subst heq
      exact Option.some.inj (hu'.symm.trans ht') ▸ hconfirmed
    · have hold : p ∈ order := by simpa [heq] using hp
      obtain ⟨u, hu, habsorbs, -⟩ := hspreads.others p u' hu' heq
      exact habsorbs.confirmed (h.confirmed p hold u hu)
  · intro p hp u' hu'
    have hp : p ∉ order ∧ p ≠ pos := by simpa using hp
    obtain ⟨u, hu, habsorbs, -⟩ := hspreads.others p u' hu' hp.2
    exact habsorbs.waits_iff.mpr (h.waits p hp.1 u hu)
  · have hids : (s.actions.map ActionDocument.toAction).map (·.id) = d.idsAt pos := by
      rw [GraphDocument.idsAt_eq hs, List.map_map]
      rfl
    rw [List.flatMap_append, ← h.ids, List.flatMap_singleton, ← hids]
    simp [confirming, Function.comp_def, Action.confirmedIn]
  · intro e he
    rcases List.mem_append.mp he with he | he
    · exact h.notes e he
    · obtain ⟨a, ha, rfl⟩ := List.mem_map.mp he
      obtain ⟨ad, had, rfl⟩ := List.mem_map.mp ha
      exact ⟨ad, List.mem_flatMap.mpr ⟨s, List.mem_of_getElem? hs, had⟩, rfl⟩

/-- **A visit goes on with the walk, or leaves it as it is.** -/
theorem Walked.visit (hloaded : d.LoadedAs g₀) (h : Walked d g₀ order g st) {t : Synapse}
    (ht : g.synapses[pos]? = some t) :
    Visit d g₀ order g st pos (Graph.visit dispatcher pos t g st) := by
  by_cases hold : pos ∈ order
  · have hpast : Graph.visit dispatcher pos t g st = (g, st) := by
      simp only [Graph.visit, h.confirmed pos hold t ht]
    rw [hpast]
    exact .past hold
  · cases hinputs : t.inputsSatisfied g.actions with
    | true => exact h.fires hloaded ht hold hinputs
    | false =>
      rw [Graph.visit_of_waiting (h.waits pos hold t ht)]
      simp only [Graph.shouldFire, hinputs, Bool.false_eq_true, if_false]
      refine .blocked hold fun s hs hsupports => ?_
      rw [(h.inputsSatisfied_iff hloaded hs ht hold).mpr hsupports] at hinputs
      cases hinputs

/-- What the visits of some positions do to a walk, which goes on along the positions `added`. -/
structure Visits (d : GraphDocument) (g₀ : Graph) (order : List Nat) (g : Graph) (st : Simulator)
    (positions added : List Nat) (out : Graph × Simulator) : Prop where
  walked : Walked d g₀ (order ++ added) out.1 out.2
  pass : out.2.pass = st.pass
  pending : out.1.counters.pending = g.counters.pending
  skipped : out.1.counters.skipped = g.counters.skipped
  fired : out.1.counters.fired = g.counters.fired + added.length
  /-- If the walk does not go on, it cannot, -/
  closed : added = [] → ∀ p ∈ positions, p ∉ order → ∀ s, d.synapses[p]? = some s →
    ¬ d.Supports { q | q ∈ order } s
  /-- and what is left is counted. -/
  incomplete : added = [] → (out.1.counters.incomplete = 0 ↔
    g.counters.incomplete = 0 ∧ ∀ p ∈ positions, p < d.synapses.length → p ∈ order)

/-- Nothing is pending, so that the batch limit is not reached. -/
theorem batchFull_eq_false (hpending : g.counters.pending = 0) : g.batchFull = false := by
  simp only [Graph.batchFull, hpending, Bool.and_eq_false_imp, decide_eq_true_eq,
    decide_eq_false_iff_not]
  omega

/-- A position comes before the others and does not go into the order. -/
theorem Visits.cons {g' : Graph} {rest added : List Nat} {out : Graph × Simulator}
    (h : Visits d g₀ order g' st rest added out)
    (hpending : g'.counters.pending = g.counters.pending)
    (hskipped : g'.counters.skipped = g.counters.skipped)
    (hfired : g'.counters.fired = g.counters.fired)
    (hopen : pos ∉ order → ∀ s, d.synapses[pos]? = some s → ¬ d.Supports { q | q ∈ order } s)
    (hincomplete : g'.counters.incomplete = 0 ↔
      g.counters.incomplete = 0 ∧ (pos < d.synapses.length → pos ∈ order)) :
    Visits d g₀ order g st (pos :: rest) added out := by
  refine ⟨h.walked, h.pass, h.pending.trans hpending, h.skipped.trans hskipped,
    hfired ▸ h.fired, fun hadded => ?_, fun hadded => ?_⟩
  · exact List.forall_mem_cons.mpr ⟨hopen, h.closed hadded⟩
  · rw [h.incomplete hadded, hincomplete, List.forall_mem_cons, and_assoc]

/-- **The visits of a pass go on with the walk.** -/
theorem Walked.visitAll (hloaded : d.LoadedAs g₀) (h : Walked d g₀ order g st)
    (hpending : g.counters.pending = 0) (positions : List Nat) :
    ∃ added, Visits d g₀ order g st positions added
      (Graph.visitAll dispatcher positions g st) := by
  induction positions generalizing order g st with
  | nil =>
    exact ⟨[], by simpa [Graph.visitAll] using h, rfl, rfl, rfl, rfl, by simp,
      by simp [Graph.visitAll]⟩
  | cons pos rest ih =>
    simp only [Graph.visitAll, batchFull_eq_false hpending, Bool.false_eq_true, if_false]
    cases ht : g.synapses[pos]? with
    | none =>
      have hbeyond := h.length_eq hloaded ▸ List.getElem?_eq_none_iff.mp ht
      obtain ⟨added, hvisits⟩ := ih h hpending
      refine ⟨added, hvisits.cons rfl rfl rfl (fun _ s hs => ?_) ?_⟩
      · rw [List.getElem?_eq_none hbeyond] at hs
        cases hs
      · simp [Nat.not_lt.mpr hbeyond]
    | some t =>
      have hvisit := h.visit hloaded ht
      dsimp only
      generalize Graph.visit dispatcher pos t g st = out at hvisit ⊢
      cases hvisit with
      | past hold =>
        obtain ⟨added, hvisits⟩ := ih h hpending
        exact ⟨added, hvisits.cons rfl rfl rfl (fun hnew => absurd hold hnew) (by simp [hold])⟩
      | blocked hnew hopen =>
        have hlt := h.length_eq hloaded ▸ (List.getElem?_eq_some_iff.mp ht).1
        obtain ⟨added, hvisits⟩ := ih (h.count fun c => { c with incomplete := c.incomplete + 1 })
          hpending
        exact ⟨added, hvisits.cons rfl rfl rfl (fun _ => hopen) (by simp [hnew, hlt])⟩
      | @fired g' st' hwalked hpass hcounters =>
        obtain ⟨added, hvisits⟩ := ih hwalked (by rw [hcounters]; exact hpending)
        refine ⟨pos :: added, ?_, hvisits.pass.trans hpass, ?_, ?_, ?_, by simp, by simp⟩
        · simpa using hvisits.walked
        · rw [hvisits.pending, hcounters]
        · rw [hvisits.skipped, hcounters]
        · rw [hvisits.fired, hcounters, List.length_cons]
          dsimp only
          omega

/-! ## Passes -/

/-- A walk has nothing outstanding between two passes. -/
theorem Walked.pending_started (h : Walked d g₀ order g st) : g.started.counters.pending = 0 := by
  refine List.countP_eq_zero.mpr fun t ht => ?_
  obtain ⟨p, hp⟩ := List.getElem?_of_mem ht
  by_cases hold : p ∈ order
  · simp [h.confirmed p hold t hp]
  · rcases h.waits p hold t hp with hstatus | hstatus <;> simp [hstatus]

/-- **A pass goes on with the walk, or ends it.**  When it ends, nothing can be added to the order,
and the transition is complete if the order has all synapses. -/
theorem Walked.run (hloaded : d.LoadedAs g₀) (h : Walked d g₀ order g st) :
    ∃ added, Walked d g₀ (order ++ added) (g.run dispatcher st).2.1 (g.run dispatcher st).2.2 ∧
      (g.run dispatcher st).2.2.pass = st.pass ∧
      ((g.run dispatcher st).1.isTerminal = true ↔ added = []) ∧
      (added = [] → d.Closed { p | p ∈ order } ∧ (g.run dispatcher st).1 =
        if ∀ p < d.synapses.length, p ∈ order then .complete else .terminated) := by
  have hstart : Walked d g₀ order g.started st := h.of_eq rfl rfl rfl rfl
  obtain ⟨added, hvisits⟩ :=
    hstart.visitAll hloaded h.pending_started (List.range g.synapses.length)
  generalize hout : Graph.visitAll dispatcher (List.range g.synapses.length) g.started st = out
    at hvisits
  obtain ⟨g', st'⟩ := out
  have hpending : g'.counters.pending = 0 := hvisits.pending.trans h.pending_started
  have hfired : g'.counters.fired = added.length := hvisits.fired.trans (Nat.zero_add _)
  have hskipped : g'.counters.skipped = 0 := hvisits.skipped
  rw [Graph.run_of_visits hout]
  refine ⟨added, hvisits.walked.of_eq rfl rfl rfl rfl, hvisits.pass, ?_, fun hadded => ⟨?_, ?_⟩⟩
  · rw [Graph.classify_isTerminal_iff, hfired, List.length_eq_zero_iff]
    exact and_iff_right hpending
  · intro p s hs hsupports
    by_contra hnew
    have hlt : p < g.synapses.length :=
      h.length_eq hloaded ▸ (List.getElem?_eq_some_iff.mp hs).1
    exact hvisits.closed hadded p (List.mem_range.mpr hlt) hnew s hs hsupports
  · have hlevel : g'.abortPriority = 0 := hvisits.walked.rehearsed.course.level
    have hleft : g'.counters.incomplete = 0 ↔ ∀ p < d.synapses.length, p ∈ order := by
      have hincomplete := hvisits.incomplete hadded
      rw [h.length_eq hloaded] at hincomplete
      rw [hincomplete]
      constructor
      · exact fun ⟨_, hall⟩ p hp => hall p (List.mem_range.mpr hp) hp
      · exact fun hall => ⟨rfl, fun p _ hp => hall p hp⟩
    dsimp only
    rw [Graph.classify_of_idle hpending (by rw [hfired, hadded]; rfl)]
    simp only [hlevel, hskipped, ne_eq, hleft, not_true_eq_false, if_false, Int.le_refl, and_true,
      ite_not]

/-- **A dry run with enough passes ends its walk**, with at most one pass more than it fires
synapses. -/
theorem Walked.passes (hloaded : d.LoadedAs g₀) {n : Nat} (result : PassResult)
    (h : Walked d g₀ order g st) (hn : d.synapses.length < n + order.length) :
    ∃ order', Walked d g₀ order' (Simulator.passes n result g st).2.1
        (Simulator.passes n result g st).2.2 ∧
      (Simulator.passes n result g st).2.2.pass + order.length ≤ st.pass + order'.length + 1 ∧
      d.Closed { p | p ∈ order' } ∧ (Simulator.passes n result g st).1 =
        if ∀ p < d.synapses.length, p ∈ order' then .complete else .terminated := by
  induction n generalizing order g st result with
  | zero =>
    have := h.inOrder.length_le
    omega
  | succ n ih =>
    obtain ⟨added, hwalked, hpass, hterminal, hend⟩ := (h.atPass (st.pass + 1)).run hloaded
    simp only [Simulator.passes]
    generalize g.run dispatcher { st with pass := st.pass + 1 } = out at *
    obtain ⟨result', g', st'⟩ := out
    dsimp only at hwalked hpass hterminal hend ⊢
    split
    · rename_i hstop
      obtain rfl := hterminal.mp hstop
      obtain ⟨hclosed, hresult⟩ := hend rfl
      exact ⟨order, by simpa using hwalked, by dsimp only; omega, hclosed, hresult⟩
    · rename_i hgo
      have hadded : 0 < added.length :=
        List.length_pos_iff.mpr fun hnil => hgo (hterminal.mpr hnil)
      obtain ⟨order', hwalked', hpasses, hclosed, hresult⟩ := ih result' hwalked
        (by rw [List.length_append]; omega)
      rw [List.length_append] at hpasses
      exact ⟨order', hwalked', by omega, hclosed, hresult⟩

end Simulator
end ClusterTransition
