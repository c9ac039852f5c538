import ClusterTransition.Proofs.Simulation.Walks
import Mathlib.Data.Finset.Card

/-! # What a dry run carries out

A dry run in which nothing is made to fail carries out the synapses that can be carried out at all:
those at the least positions that include each synapse all of whose inputs they own
(`simulate_carries_out_closure`).  The order of the document decides how many passes this takes, but
not what is carried out; and cycles of dependencies are no trouble, they only block what waits for
them.
-/

namespace ClusterTransition

/-- The report is that the synapses at the positions `R` were carried out, and no others. -/
structure SimulationReport.CarriesOut (d : GraphDocument) (R : Finset Nat)
    (r : SimulationReport) : Prop where
  /-- The actions of those synapses were executed, -/
  executed : (r.executed.map (·.id)).Perm
    (((List.range d.synapses.length).filter (· ∈ R)).flatMap d.idsAt)
  /-- each once, -/
  once : (r.executed.map (·.id)).Nodup
  /-- and they were confirmed. -/
  confirmed : ∀ e ∈ r.executed, ∃ a ∈ d.arena, e = a.toAction.confirmedIn e.pass
  /-- Each came after all that its synapse waits for. -/
  ordered : ∀ before e after, r.executed = before ++ e :: after →
    ∀ s ∈ d.synapses, e.id ∈ s.actions.map (·.id) → ∀ id ∈ s.inputs, id ∈ before.map (·.id)
  skipped : r.skipped = []
  /-- The others are blocked, in the order of the document. -/
  blocked : r.blocked = ((List.range d.synapses.length).filter (· ∉ R)).filterMap
    fun p => d.synapses[p]?.map (·.id)
  result : r.result = if R = Finset.range d.synapses.length then .complete else .terminated
  passes : r.passes ≤ R.card + 1

theorem filterMap_getElem?_range {α : Type} (l : List α) :
    (List.range l.length).filterMap (l[·]?) = l := by
  have hall : (List.range l.length).map (l[·]?) = l.map some := by
    refine List.ext_getElem (by simp) fun p hp hp' => ?_
    have hlt : p < l.length := by simpa using hp
    simp [List.getElem?_eq_getElem hlt]
  have hjoin := congrArg (List.filterMap id) hall
  rw [List.filterMap_map, List.filterMap_map] at hjoin
  exact hjoin.trans List.filterMap_some

namespace Simulator

variable {d : GraphDocument} {g₀ g : Graph} {order : List Nat} {st : Simulator}

/-- At the end of a walk the synapses in the order are confirmed.  The others have an open input, so
that they were never ready. -/
theorem Walked.status_eq (hloaded : d.LoadedAs g₀) (h : Walked d g₀ order g st)
    (hclosed : d.Closed { p | p ∈ order }) {p : Nat} {t : Synapse}
    (ht : g.synapses[p]? = some t) :
    t.status = if p ∈ order then .confirmed else .unfired := by
  split
  · exact h.confirmed p ‹_› t ht
  · rename_i hp
    rcases h.waits p hp t ht with hstatus | hready
    · exact hstatus
    · exfalso
      have hlt := h.length_eq hloaded ▸ (List.getElem?_eq_some_iff.mp ht).1
      obtain ⟨s, hs⟩ : ∃ s, d.synapses[p]? = some s := ⟨_, List.getElem?_eq_getElem hlt⟩
      refine hp (hclosed p s hs ((h.inputsSatisfied_iff hloaded hs ht hp).mp ?_))
      refine List.all_eq_true.mpr fun i hi => ?_
      rw [h.rehearsed.course.isOpen_eq]
      exact h.rehearsed.ready t (List.mem_of_getElem? ht) hready i hi

/-- The synapses with a status at the end of a walk. -/
theorem Walked.synapsesWith (hloaded : d.LoadedAs g₀) (h : Walked d g₀ order g st)
    (hclosed : d.Closed { p | p ∈ order }) (status : SynapseStatus) :
    synapsesWith g status = ((List.range d.synapses.length).filter fun p =>
        (if p ∈ order then SynapseStatus.confirmed else .unfired) = status).filterMap
      fun p => d.synapses[p]?.map (·.id) := by
  rw [Simulator.synapsesWith, ← filterMap_getElem?_range g.synapses, List.filter_filterMap,
    List.map_filterMap, List.filterMap_filter, h.length_eq hloaded]
  refine List.filterMap_congr fun p hp => ?_
  obtain ⟨s, hs⟩ : ∃ s, d.synapses[p]? = some s :=
    ⟨_, List.getElem?_eq_getElem (List.mem_range.mp hp)⟩
  obtain ⟨t₀, ht₀, hst⟩ := hloaded.exists_synapse_at hs
  obtain ⟨t, ht, hplan⟩ := Graph.synapse_of_plan h.plan.symm ht₀
  have hid : t.id = s.id :=
    Eq.trans (show t.plan.id = t₀.plan.id from congrArg Synapse.id hplan.symm) hst.id
  rw [← h.status_eq hloaded hclosed ht]
  by_cases hstatus : t.status = status
  · simp [ht, hs, hid, hstatus]
  · simp [ht, hstatus]

end Simulator

/-- **A dry run carries out the dependency closure.**  Take a document that loads, in which every
synapse owns an action, no priority is negative and every event of the cluster has a task.  Simulate
it with nothing made to fail, with whatever batch limit, and with more passes allowed than there are
synapses.  There are least positions that include every synapse all of whose inputs are actions of
synapses among them, and the report is that those synapses were carried out, and no others. -/
theorem simulate_carries_out_closure {d : GraphDocument} {g : Graph} (h : d.toGraph = .ok g)
    (hd : d.Rehearsable) {options : SimulationOptions} (ho : options.Undisturbed)
    (hpasses : d.synapses.length < options.maxPasses) :
    ∃ R : Finset Nat, IsLeast { S : Set Nat | d.Closed S } ↑R ∧
      (simulate options g).1.CarriesOut d R := by
  have hloaded := GraphDocument.loadedAs_of_toGraph h
  obtain ⟨order, hwalked, hcount, hclosed, hresult⟩ :=
    (Simulator.Walked.start hd hloaded ho).passes hloaded (n := options.maxPasses) .pending
      (by simpa using hpasses)
  have hids : (d.arena.map (·.id)).Nodup := (GraphDocument.exists_toGraph_iff.mp ⟨g, h⟩).1
  refine ⟨order.toFinset, by simpa using hwalked.inOrder.isLeast hclosed, ?_⟩
  simp only [simulate]
  generalize Simulator.passes options.maxPasses .pending g { options } = out at *
  obtain ⟨result, g', st⟩ := out
  dsimp only at hwalked hcount hresult ⊢
  have hwith := hwalked.synapsesWith hloaded hclosed
  have hnone (status : SynapseStatus) (hne : status ≠ .confirmed ∧ status ≠ .unfired) :
      Simulator.synapsesWith g' status = [] := by
    rw [hwith, List.filter_eq_nil_iff.mpr, List.filterMap_nil]
    intro p _
    split <;> simp [Ne.symm hne.1, Ne.symm hne.2]
  refine ⟨?_, ?_, hwalked.notes, ?_, hnone .skipped (by simp), ?_, ?_, ?_⟩
  · rw [hwalked.ids]
    simpa using hwalked.inOrder.perm_range.flatMap_right d.idsAt
  · rw [hwalked.ids]
    exact hwalked.inOrder.nodup_ids hids
  · intro before e after hsplit s hs howns
    obtain ⟨p, hp⟩ := List.getElem?_of_mem hs
    have hmap := congrArg (List.map (·.id)) hsplit
    rw [hwalked.ids, List.map_append, List.map_cons] at hmap
    exact hwalked.inOrder.inputs_before hids hmap hp howns
  · rw [hnone .ready (by simp), List.append_nil, hwith .unfired]
    dsimp only
    congr 1
    refine List.filter_congr fun p _ => ?_
    by_cases hp : p ∈ order <;> simp [hp]
  · have hall : (∀ p < d.synapses.length, p ∈ order) ↔
        order.toFinset = Finset.range d.synapses.length := by
      constructor
      · intro hall
        ext p
        simpa using ⟨fun hp => hwalked.inOrder.lt_length hp, hall p⟩
      · intro heq p hp
        have hmem : p ∈ order.toFinset := heq ▸ Finset.mem_range.mpr hp
        simpa using hmem
    simp only [hresult, hall]
  · rw [List.toFinset_card_of_nodup hwalked.inOrder.nodup]
    simpa using hcount

/-- A start that waits for a marker after it, and next to the marker an event; and two starts that
wait for each other. -/
def GraphDocument.besideCycle : GraphDocument where
  transitionId := 1
  batchLimit := some 1
  synapses :=
    [{ id := 10
       actions := [{ id := 1, kind := .resource, task := some "start", target := some "node1" }]
       inputs := [2] },
     { id := 11
       actions :=
         [{ id := 2, kind := .pseudo },
          { id := 3, kind := .clusterEvent, task := some "clear_failcount"
            target := some "node1" }] },
     { id := 12
       actions := [{ id := 4, kind := .resource, task := some "start", target := some "node1" }]
       inputs := [5] },
     { id := 13
       actions := [{ id := 5, kind := .resource, task := some "start", target := some "node2" }]
       inputs := [3, 4] }]

theorem GraphDocument.besideCycle_rehearsable : besideCycle.Rehearsable where
  actions := by decide
  priority := by decide
  task := by decide

/-- The first two synapses can be carried out, and not the cycle. -/
theorem GraphDocument.besideCycle_isLeast :
    IsLeast { S : Set Nat | besideCycle.Closed S } { p | p ∈ [1, 0] } := by
  have hmarker : besideCycle.ReadyOrder [1] :=
    .snoc .nil (by simp) rfl (by simp [Supports])
  have horder : besideCycle.ReadyOrder [1, 0] := by
    refine .snoc hmarker (by simp) rfl fun id hid => ?_
    obtain rfl : id = 2 := by simpa using hid
    exact ⟨1, by simp, by decide⟩
  refine horder.isLeast fun p s hs hsupports => ?_
  -- the input that the order leaves open
  have hopen {id : Int} (hid : id ∈ s.inputs) (hnone : ∀ q ∈ [1, 0], id ∉ besideCycle.idsAt q) :
      p ∈ { p | p ∈ [1, 0] } := by
    obtain ⟨q, hq, howns⟩ := hsupports id hid
    exact absurd howns (hnone q hq)
  match p, hs with
  | 0, _ | 1, _ => simp
  | 2, hs =>
    obtain rfl := Option.some.inj hs
    exact hopen (List.mem_singleton_self 5) (by decide)
  | 3, hs =>
    obtain rfl := Option.some.inj hs
    exact hopen (List.mem_cons_of_mem 3 (List.mem_singleton_self 4)) (by decide)

/-- The start waits for the second pass, since it stands before the marker.  The third pass finds
that the cycle can never begin. -/
theorem besideCycle_carried_out : ∃ g, GraphDocument.besideCycle.toGraph = .ok g ∧
    ((simulate { maxPasses := 5 } g).1.executed.map (·.id) = [2, 3, 1] ∧
      (simulate { maxPasses := 5 } g).1.blocked = [12, 13] ∧
      (simulate { maxPasses := 5 } g).1.result = .terminated ∧
      (simulate { maxPasses := 5 } g).1.passes = 3) ∧
    (simulate { maxPasses := 5 } g).1.CarriesOut .besideCycle {0, 1} := by
  have hrun : ∀ g, GraphDocument.besideCycle.toGraph = .ok g →
      (simulate { maxPasses := 5 } g).1.executed.map (·.id) = [2, 3, 1] ∧
      (simulate { maxPasses := 5 } g).1.blocked = [12, 13] ∧
      (simulate { maxPasses := 5 } g).1.result = .terminated ∧
      (simulate { maxPasses := 5 } g).1.passes = 3 := by
    rintro _ ⟨⟩
    decide +kernel
  obtain ⟨g, hg⟩ : ∃ g, GraphDocument.besideCycle.toGraph = .ok g := ⟨_, rfl⟩
  obtain ⟨R, hR, hreport⟩ := simulate_carries_out_closure hg
    GraphDocument.besideCycle_rehearsable
    (⟨rfl, rfl⟩ : SimulationOptions.Undisturbed { maxPasses := 5 }) (by decide)
  have hpositions : R = {0, 1} := by
    have hsame := hR.unique GraphDocument.besideCycle_isLeast
    ext p
    have hp : p ∈ (R : Set Nat) ↔ p ∈ { p | p ∈ [1, 0] } := by rw [hsame]
    simpa [or_comm] using hp
  exact ⟨g, hg, hrun g hg, hpositions ▸ hreport⟩

end ClusterTransition
