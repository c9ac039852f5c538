import ClusterTransition.Graph.Pass

/-! # The plan of a graph

A run moves statuses, marks inputs and adjusts timeouts, and it raises what is known about the end
of the transition.  Everything else about a graph is fixed when it is loaded: which actions there
are and where they run, which synapse owns them, and what each synapse waits for.  `Graph.plan` is
the graph without all that moves, so "the run leaves it alone" is an equation between plans.

`Graph.WellFormed` says what a loaded graph owes to the loader: the ids are distinct, each slot is
owned exactly once, and inputs name slots that exist.  It speaks of the plan only, so no run can
lose it (`Graph.WellFormed.of_plan`).
-/

namespace ClusterTransition

/-- The action without what happens to it in a run. -/
def Action.plan (a : Action) : Action :=
  { a with
    status := .pending
    sentUpdate := false
    counted := false
    op := { a.op with timeoutMs := 0 } }

/-- The synapse without what happens to it in a run. -/
def Synapse.plan (s : Synapse) : Synapse :=
  { s with status := .unfired, inputs := s.inputs.map fun i => { i with satisfied := false } }

/-- The graph without what happens to it in a run. -/
def Graph.plan (g : Graph) : Graph :=
  { g with
    abortPriority := 0
    abortReason := none
    completionAction := .done
    complete := false
    counters := {}
    synapses := g.synapses.map Synapse.plan
    actions := g.actions.map Action.plan }

/-! ## What a plan decides about an action -/

namespace Action

variable {a b : Action}

theorem canFail_eq_of_plan (h : a.plan = b.plan) : a.canFail = b.canFail :=
  show a.plan.canFail = b.plan.canFail by rw [h]

end Action

/-! ## What a plan decides about a synapse -/

namespace Synapse

variable {s t : Synapse}

theorem priority_eq_of_plan (h : s.plan = t.plan) : s.priority = t.priority :=
  show s.plan.priority = t.plan.priority by rw [h]

theorem actions_eq_of_plan (h : s.plan = t.plan) : s.actions = t.actions :=
  show s.plan.actions = t.plan.actions by rw [h]

theorem inputs_eq_of_plan (h : s.plan = t.plan) :
    s.inputs.map Input.slot = t.inputs.map Input.slot := by
  have := congrArg (fun u : Synapse => u.inputs.map Input.slot) h
  simpa [Synapse.plan, Function.comp_def] using this

end Synapse

namespace Graph

variable {g g' : Graph}

/-! ## Places in a graph and in its plan -/

theorem actions_length_of_plan (h : g'.plan = g.plan) : g'.actions.length = g.actions.length := by
  have := congrArg (fun u : Graph => u.actions.length) h
  simpa [plan] using this

theorem synapses_length_of_plan (h : g'.plan = g.plan) :
    g'.synapses.length = g.synapses.length := by
  have := congrArg (fun u : Graph => u.synapses.length) h
  simpa [plan] using this

/-- The action at a slot was at that slot all along. -/
theorem action_of_plan (h : g'.plan = g.plan) {k : Nat} {a' : Action}
    (ha : g'.actions[k]? = some a') : ∃ a, g.actions[k]? = some a ∧ a'.plan = a.plan := by
  have := congrArg (fun u : Graph => u.actions[k]?) h
  simp only [plan, List.getElem?_map, ha, Option.map_some] at this
  obtain ⟨a, ha, he⟩ := Option.map_eq_some_iff.mp this.symm
  exact ⟨a, ha, he.symm⟩

/-- The synapse at a position was at that position all along. -/
theorem synapse_of_plan (h : g'.plan = g.plan) {p : Nat} {s' : Synapse}
    (hs : g'.synapses[p]? = some s') : ∃ s, g.synapses[p]? = some s ∧ s'.plan = s.plan := by
  have := congrArg (fun u : Graph => u.synapses[p]?) h
  simp only [plan, List.getElem?_map, hs, Option.map_some] at this
  obtain ⟨s, hs, he⟩ := Option.map_eq_some_iff.mp this.symm
  exact ⟨s, hs, he.symm⟩

/-- The actions at some slots are the same all along, but for what happens to them. -/
theorem map_plan_filterMap (h : g'.plan = g.plan) (slots : List Nat) :
    (slots.filterMap (g'.actions[·]?)).map Action.plan =
      (slots.filterMap (g.actions[·]?)).map Action.plan := by
  have hplan (u : Graph) : (slots.filterMap (u.actions[·]?)).map Action.plan =
      slots.filterMap (u.plan.actions[·]?) := by
    simp only [plan, List.getElem?_map, List.map_filterMap]
  rw [hplan g', h, ← hplan]

theorem slotOf?_plan (g : Graph) (id : ActionId) : g.plan.slotOf? id = g.slotOf? id := by
  simp only [slotOf?, plan, List.findIdx?_map]
  rfl

/-- An id stands at the same slot all along. -/
theorem slotOf?_eq_of_plan (h : g'.plan = g.plan) (id : ActionId) :
    g'.slotOf? id = g.slotOf? id := by
  rw [← slotOf?_plan, h, slotOf?_plan]

/-! ## Ids and slots -/

/-- Looking an id up gives the action at its slot. -/
theorem action?_eq_getElem? {id : ActionId} {k : Nat} (h : g.slotOf? id = some k) :
    g.action? id = g.actions[k]? := by
  obtain ⟨hk, hp, hfirst⟩ := List.findIdx?_eq_some_iff_getElem.mp h
  rw [List.getElem?_eq_getElem hk]
  refine List.find?_eq_some_iff_getElem.mpr ⟨hp, k, hk, rfl, fun j hj => ?_⟩
  simpa using hfirst j hj

theorem exists_slot_of_action? {id : ActionId} {a : Action} (h : g.action? id = some a) :
    ∃ k, g.slotOf? id = some k ∧ g.actions[k]? = some a ∧ a.id = id := by
  obtain ⟨hid, k, hk, rfl, hfirst⟩ := List.find?_eq_some_iff_getElem.mp h
  refine ⟨k, ?_, List.getElem?_eq_getElem hk, by simpa using hid⟩
  refine List.findIdx?_eq_some_iff_getElem.mpr ⟨hk, hid, fun j hj => ?_⟩
  simpa using hfirst j hj

theorem action?_eq_none_iff {id : ActionId} : g.action? id = none ↔ g.slotOf? id = none := by
  simp [action?, slotOf?]

theorem exists_action_of_slotOf? {id : ActionId} {k : Nat} (h : g.slotOf? id = some k) :
    ∃ a, g.actions[k]? = some a ∧ g.action? id = some a ∧ a.id = id := by
  obtain ⟨hk, hp, -⟩ := List.findIdx?_eq_some_iff_getElem.mp h
  have hget : g.actions[k]? = some g.actions[k] := List.getElem?_eq_getElem hk
  exact ⟨_, hget, (action?_eq_getElem? h).trans hget, by simpa using hp⟩

/-! ## Loaded graphs -/

/-- What the loader guarantees about the plan of a graph. -/
structure WellFormed (g : Graph) : Prop where
  /-- No two actions share an id. -/
  ids : (g.actions.map (·.id)).Nodup
  /-- The synapses own the slots in order, each slot once. -/
  owned : g.synapses.flatMap (·.actions) = List.range g.actions.length
  /-- Inputs refer to actions of the graph. -/
  inputs : ∀ s ∈ g.synapses, ∀ i ∈ s.inputs, i.slot < g.actions.length

theorem wellFormed_plan_iff : g.plan.WellFormed ↔ g.WellFormed := by
  constructor
  · intro h
    refine ⟨?_, ?_, fun s hs i hi => ?_⟩
    · simpa [plan, Function.comp_def, Action.plan] using h.ids
    · simpa [plan, List.flatMap_map, Synapse.plan] using h.owned
    · have := h.inputs s.plan (List.mem_map_of_mem hs) { i with satisfied := false }
        (List.mem_map_of_mem hi)
      simpa [plan] using this
  · intro h
    refine ⟨?_, ?_, ?_⟩
    · simpa [plan, Function.comp_def, Action.plan] using h.ids
    · simpa [plan, List.flatMap_map, Synapse.plan] using h.owned
    · intro s' hs' i' hi'
      obtain ⟨s, hs, rfl⟩ := List.mem_map.mp hs'
      obtain ⟨i, hi, rfl⟩ := List.mem_map.mp hi'
      simpa [plan] using h.inputs s hs i hi

/-- A graph stays well formed as long as its plan stays. -/
theorem WellFormed.of_plan (hw : g.WellFormed) (h : g'.plan = g.plan) : g'.WellFormed :=
  wellFormed_plan_iff.mp (h ▸ wellFormed_plan_iff.mpr hw)

/-- The id of the action at a slot leads back to the slot. -/
theorem WellFormed.slotOf?_id (hw : g.WellFormed) {k : Nat} {a : Action}
    (ha : g.actions[k]? = some a) : g.slotOf? a.id = some k := by
  obtain ⟨hk, rfl⟩ := List.getElem?_eq_some_iff.mp ha
  refine List.findIdx?_eq_some_iff_getElem.mpr ⟨hk, by simp, fun j hj => ?_⟩
  have := List.pairwise_iff_getElem.mp hw.ids j k (by simp; omega) (by simpa using hk) hj
  simpa using this

theorem WellFormed.action?_id (hw : g.WellFormed) {k : Nat} {a : Action}
    (ha : g.actions[k]? = some a) : g.action? a.id = some a :=
  (action?_eq_getElem? (hw.slotOf?_id ha)).trans ha

/-- The slots of all synapses are distinct. -/
theorem WellFormed.nodup_owned (hw : g.WellFormed) :
    (g.synapses.flatMap (·.actions)).Nodup := hw.owned ▸ List.nodup_range

theorem WellFormed.nodup_actions (hw : g.WellFormed) {s : Synapse} (hs : s ∈ g.synapses) :
    s.actions.Nodup :=
  (List.pairwise_flatMap.mp hw.nodup_owned).1 s hs

/-- No slot has two owners. -/
theorem WellFormed.owner_unique (hw : g.WellFormed) {p q k : Nat} {s t : Synapse}
    (hs : g.synapses[p]? = some s) (ht : g.synapses[q]? = some t)
    (hks : k ∈ s.actions) (hkt : k ∈ t.actions) : p = q := by
  have hne := (List.pairwise_flatMap.mp hw.nodup_owned).2
  obtain ⟨hp, rfl⟩ := List.getElem?_eq_some_iff.mp hs
  obtain ⟨hq, rfl⟩ := List.getElem?_eq_some_iff.mp ht
  rcases Nat.lt_trichotomy p q with h | h | h
  · exact absurd rfl (List.pairwise_iff_getElem.mp hne p q hp hq h k hks k hkt)
  · exact h
  · exact absurd rfl (List.pairwise_iff_getElem.mp hne q p hq hp h k hkt k hks)

/-- Slots that synapses own are slots of actions. -/
theorem WellFormed.slot_lt (hw : g.WellFormed) {s : Synapse} (hs : s ∈ g.synapses) {k : Nat}
    (hk : k ∈ s.actions) : k < g.actions.length := by
  have : k ∈ g.synapses.flatMap (·.actions) := List.mem_flatMap.mpr ⟨s, hs, hk⟩
  rw [hw.owned] at this
  exact List.mem_range.mp this

/-- Each slot has an owner. -/
theorem WellFormed.exists_owner (hw : g.WellFormed) {k : Nat} (hk : k < g.actions.length) :
    ∃ (p : Nat) (s : Synapse), g.synapses[p]? = some s ∧ k ∈ s.actions := by
  have : k ∈ g.synapses.flatMap (·.actions) := hw.owned ▸ List.mem_range.mpr hk
  obtain ⟨s, hs, hks⟩ := List.mem_flatMap.mp this
  obtain ⟨p, hp⟩ := List.getElem?_of_mem hs
  exact ⟨p, s, hp, hks⟩

/-- Each action has an owner. -/
theorem WellFormed.exists_owner_of_mem (hw : g.WellFormed) {a : Action} (ha : a ∈ g.actions) :
    ∃ k, g.actions[k]? = some a ∧ ∃ s ∈ g.synapses, k ∈ s.actions := by
  obtain ⟨k, hk⟩ := List.getElem?_of_mem ha
  obtain ⟨hlt, -⟩ := List.getElem?_eq_some_iff.mp hk
  obtain ⟨p, s, hs, hks⟩ := hw.exists_owner hlt
  exact ⟨k, hk, s, List.mem_of_getElem? hs, hks⟩

/-- The owner of an action is the one synapse that lists its slot. -/
theorem WellFormed.synapseOf?_id (hw : g.WellFormed) {p k : Nat} {a : Action} {s : Synapse}
    (ha : g.actions[k]? = some a) (hs : g.synapses[p]? = some s) (hk : k ∈ s.actions) :
    g.synapseOf? a.id = some s := by
  obtain ⟨hp, rfl⟩ := List.getElem?_eq_some_iff.mp hs
  simp only [synapseOf?, hw.slotOf?_id ha, Option.bind_some]
  refine List.find?_eq_some_iff_getElem.mpr ⟨by simpa using hk, p, hp, rfl, fun j hj => ?_⟩
  simp only [List.contains_eq_mem, Bool.not_eq_eq_eq_not, Bool.not_true, decide_eq_false_iff_not]
  intro hkj
  have := hw.owner_unique (List.getElem?_eq_getElem (by omega)) hs hkj hk
  omega

end Graph
end ClusterTransition
