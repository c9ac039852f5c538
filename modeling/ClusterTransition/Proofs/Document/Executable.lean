import ClusterTransition.Proofs.Document.Loading
import ClusterTransition.Proofs.Engine.Dispatching
import Mathlib.Data.Set.Finite.Basic
import Mathlib.Order.WellFounded

/-! # Documents that can be executed to the end

A document can be executed to the end if its actions say all that it takes to carry them out, no
priority is below the level at which a transition begins, and no synapse depends on itself.  Then no
action of the loaded graph is refused by a cluster that accepts requests, and among any synapses
that are left there is one that depends on none of the others
(`GraphDocument.Executable.exists_first`).
-/

namespace ClusterTransition

/-- The action says all that it takes to carry it out. -/
structure ActionDocument.Specified (a : ActionDocument) : Prop where
  target : a.kind ≠ .pseudo → (nonempty a.target).isSome
  task : a.kind = .clusterEvent → (nonempty a.task).isSome
  /-- Fencing needs the uuid of the node, and the way to fence it. -/
  fencing : a.kind = .clusterEvent → a.task = some "stonith" →
    (nonempty a.targetUuid).isSome ∧
      (nonempty (a.params.get? ("CRM_meta_" ++ "stonith_action"))).isSome

/-- The synapse `s` waits for an action of the synapse `t`. -/
def GraphDocument.DependsOn (d : GraphDocument) (s t : SynapseDocument) : Prop :=
  s ∈ d.synapses ∧ t ∈ d.synapses ∧ ∃ a ∈ t.actions, a.id ∈ s.inputs

/-- Nothing in the document stands in the way of executing all of it. -/
structure GraphDocument.Executable (d : GraphDocument) : Prop where
  priority : ∀ s ∈ d.synapses, 0 ≤ s.priority
  specified : ∀ a ∈ d.arena, a.Specified
  /-- No synapse depends on itself, directly or through others. -/
  acyclic : ∀ s, ¬ Relation.TransGen d.DependsOn s s

/-- Every action may be dispatched, and no synapse is vetoed at the start. -/
structure Graph.Capable (g : Graph) : Prop where
  dispatchable : ∀ a ∈ g.actions, a.dispatchable = true
  priority : ∀ s ∈ g.synapses, 0 ≤ s.priority

theorem ActionDocument.Specified.dispatchable {a : ActionDocument} (h : a.Specified) :
    a.toAction.dispatchable = true := by
  have htarget : a.toAction.target = nonempty a.target := rfl
  cases hkind : a.kind with
  | pseudo =>
    have hchannel : a.toAction.channel? = some .pseudo := by
      simp [Action.channel?, toAction, hkind]
    simp [Action.dispatchable, hchannel]
  | resource =>
    have hchannel : a.toAction.channel? = some .resource := by
      simp [Action.channel?, toAction, hkind]
    have := h.target (by simp [hkind])
    simpa [Action.dispatchable, hchannel, htarget] using this
  | clusterEvent =>
    have hnode := h.target (by simp [hkind])
    obtain ⟨task, htask⟩ := Option.isSome_iff_exists.mp (h.task hkind)
    by_cases hfencing : task = "stonith"
    · subst hfencing
      have hchannel : a.toAction.channel? = some .fencing := by
        have : a.toAction.task = some "stonith" := htask
        have hkind' : a.toAction.kind = .clusterEvent := hkind
        simp [Action.channel?, hkind', this]
      obtain ⟨huuid, hmode⟩ := h.fencing hkind (Option.filter_eq_some_iff.mp htask).1
      simp only [Action.dispatchable, hchannel, htarget, hnode, Bool.true_and, Bool.and_eq_true]
      exact ⟨huuid, hmode⟩
    · have hchannel : a.toAction.channel? = some .clusterEvent := by
        have : a.toAction.task = some task := htask
        have hkind' : a.toAction.kind = .clusterEvent := hkind
        simp [Action.channel?, hkind', this]
      simpa [Action.dispatchable, hchannel, htarget] using hnode

namespace Graph

variable {g g' : Graph}

theorem Capable.of_plan (h : g.Capable) (hplan : g'.plan = g.plan) : g'.Capable := by
  constructor
  · intro a' ha'
    obtain ⟨k, hk⟩ := List.getElem?_of_mem ha'
    obtain ⟨a, ha, heq⟩ := action_of_plan hplan hk
    have := h.dispatchable a (List.mem_of_getElem? ha)
    exact show a'.plan.dispatchable = true from heq ▸ this
  · intro s' hs'
    obtain ⟨p, hp⟩ := List.getElem?_of_mem hs'
    obtain ⟨s, hs, heq⟩ := synapse_of_plan hplan hp
    rw [Synapse.priority_eq_of_plan heq]
    exact h.priority s (List.mem_of_getElem? hs)

end Graph

namespace GraphDocument

variable {d : GraphDocument}

theorem Executable.capable (h : d.Executable) {g : Graph} (hloaded : d.LoadedAs g) :
    g.Capable := by
  constructor
  · intro a ha
    rw [hloaded.actions] at ha
    obtain ⟨ad, had, rfl⟩ := List.mem_map.mp ha
    exact (h.specified ad had).dispatchable
  · intro t ht
    obtain ⟨s, hs, hst⟩ := hloaded.exists_document ht
    rw [hst.priority]
    exact h.priority s hs

/-- A synapse that waits for an action of another one depends on it, in the document too. -/
theorem LoadedAs.dependsOn {g₀ g : Graph} (h : d.LoadedAs g₀) (hplan : g.plan = g₀.plan)
    {p q : Nat} {t u : Synapse} (ht : g.synapses[p]? = some t) (hu : g.synapses[q]? = some u)
    {i : Input} (hi : i ∈ t.inputs) (hslot : i.slot ∈ u.actions) :
    ∃ s s', d.synapses[p]? = some s ∧ d.synapses[q]? = some s' ∧ d.DependsOn s s' := by
  obtain ⟨t₀, ht₀, htplan⟩ := Graph.synapse_of_plan hplan ht
  obtain ⟨u₀, hu₀, huplan⟩ := Graph.synapse_of_plan hplan hu
  obtain ⟨s, hs, hst⟩ := h.exists_document_at ht₀
  obtain ⟨s', hs', hsu⟩ := h.exists_document_at hu₀
  refine ⟨s, s', hs, hs', List.mem_of_getElem? hs, List.mem_of_getElem? hs', ?_⟩
  -- the id by which the input names the action
  have hmem : i.slot ∈ t.inputs.map Input.slot := List.mem_map_of_mem hi
  rw [Synapse.inputs_eq_of_plan htplan] at hmem
  obtain ⟨i₀, hi₀, heq⟩ := List.mem_map.mp hmem
  have hnamed := List.mem_map_of_mem (f := fun i : Input => (some i.slot, i.satisfied)) hi₀
  rw [hst.inputs] at hnamed
  obtain ⟨id, hid, hpair⟩ := List.mem_map.mp hnamed
  have hfind : g₀.slotOf? id = some i.slot := heq ▸ (Prod.ext_iff.mp hpair).1
  obtain ⟨a, ha, -, haid⟩ := Graph.exists_action_of_slotOf? hfind
  -- is the id of an action that the other synapse owns
  rw [Synapse.actions_eq_of_plan huplan] at hslot
  have howned := List.mem_map_of_mem (f := fun k => g₀.actions[k]?) hslot
  rw [hsu.actions, ha] at howned
  obtain ⟨ad, had, hact⟩ := List.mem_map.mp howned
  refine ⟨ad, had, ?_⟩
  rw [Option.some.injEq] at hact
  have : ad.id = id := by
    rw [← haid, ← hact]
    rfl
  rwa [this]

/-- A numbering that falls along every dependency leaves no cycles. -/
theorem acyclic_of_rank (rank : SynapseDocument → Int)
    (h : ∀ s ∈ d.synapses, ∀ t ∈ d.synapses, (∃ a ∈ t.actions, a.id ∈ s.inputs) → rank t < rank s)
    (s : SynapseDocument) : ¬ Relation.TransGen d.DependsOn s s := by
  have hfalls {s t : SynapseDocument} (hst : Relation.TransGen d.DependsOn s t) :
      rank t < rank s := by
    induction hst with
    | single hdep => exact h _ hdep.1 _ hdep.2.1 hdep.2.2
    | tail _ hdep ih => exact Int.lt_trans (h _ hdep.1 _ hdep.2.1 hdep.2.2) ih
  intro hcycle
  exact Int.lt_irrefl _ (hfalls hcycle)

/-- **Among any synapses of the document there is one that depends on none of them.** -/
theorem Executable.exists_first (h : d.Executable) {P : SynapseDocument → Prop}
    (hP : ∃ s ∈ d.synapses, P s) :
    ∃ s ∈ d.synapses, P s ∧ ∀ t, d.DependsOn s t → ¬ P t := by
  -- the synapses are finitely many, so that the dependencies are well founded
  have hfinite : Finite { s // s ∈ d.synapses } := (List.finite_toSet d.synapses).to_subtype
  let below (s t : { s // s ∈ d.synapses }) : Prop := Relation.TransGen d.DependsOn t.1 s.1
  have htrans : IsTrans _ below := ⟨fun _ _ _ hst htu => htu.trans hst⟩
  have hirrefl : Std.Irrefl below := ⟨fun s hs => h.acyclic s.1 hs⟩
  have hwf : WellFounded below := Finite.wellFounded_of_trans_of_irrefl below
  obtain ⟨s, hs, hPs⟩ := hP
  obtain ⟨first, hfirst, hmin⟩ := hwf.has_min { s | P s.1 } ⟨⟨s, hs⟩, hPs⟩
  refine ⟨first.1, first.2, hfirst, fun t hdep ht => ?_⟩
  exact hmin ⟨t, hdep.2.1⟩ ht (.single hdep)

end GraphDocument
end ClusterTransition
