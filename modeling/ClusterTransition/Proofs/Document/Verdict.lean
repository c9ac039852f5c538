import ClusterTransition.Proofs.Document.Loading

/-! # What the loader answers

A document is loaded in two passes: all the actions are entered, then all the inputs are resolved.
It is rejected for the first action that repeats an id, or else for the first input that names no
action, each in the order of the document (`GraphDocument.Rejected`).  Otherwise the graph is the
one that the document describes (`GraphDocument.Built`).

A list is cut at its first failure in one way only, for actions and for inputs alike
(`eq_of_first_failure`).  So the error determines what is wrong with the document, and what is wrong
with it determines the error.
-/

namespace ClusterTransition

/-- A list that has a property up to an element, and not with it, is cut there in one way only. -/
theorem eq_of_first_failure {α : Type} {P : List α → Prop}
    (hfront : ∀ u v, P (u ++ v) → P u) {u v u' v' : List α} {a a' : α}
    (h : u ++ a :: v = u' ++ a' :: v') (hu : P u) (ha : ¬ P (u ++ [a])) (hu' : P u')
    (ha' : ¬ P (u' ++ [a'])) : a = a' := by
  have hlonger {u w : List α} {b : α} (hb : ¬ P (u ++ [b])) (hw : P (u ++ b :: w)) : False := by
    rw [List.append_cons] at hw
    exact hb (hfront _ _ hw)
  rcases List.append_eq_append_iff.mp h with ⟨w, rfl, hw⟩ | ⟨w, rfl, hw⟩
  -- the cut that comes later has the element of the earlier one in its front
  · cases w with
    | nil => exact (List.cons.inj hw).1
    | cons b w =>
      obtain ⟨rfl, -⟩ := List.cons.inj hw
      exact (hlonger ha hu').elim
  · cases w with
    | nil => exact (List.cons.inj hw).1.symm
    | cons b w =>
      obtain ⟨rfl, -⟩ := List.cons.inj hw
      exact (hlonger ha' hu).elim

/-! ## Lookups -/

namespace Graph.WellFormed

variable {g : Graph} {id : ActionId}

/-- Looking up an id finds the action that has it. -/
theorem action?_iff (hw : g.WellFormed) {a : Action} :
    g.action? id = some a ↔ a ∈ g.actions ∧ a.id = id := by
  constructor
  · intro h
    obtain ⟨k, -, ha, hid⟩ := exists_slot_of_action? h
    exact ⟨List.mem_of_getElem? ha, hid⟩
  · rintro ⟨ha, rfl⟩
    obtain ⟨k, hk⟩ := List.getElem?_of_mem ha
    exact hw.action?_id hk

/-- Looking up the owner of an id finds the synapse that owns the slot of its action. -/
theorem synapseOf?_iff (hw : g.WellFormed) {t : Synapse} :
    g.synapseOf? id = some t ↔
      t ∈ g.synapses ∧ ∃ k ∈ t.actions, g.actions[k]?.map (·.id) = some id := by
  constructor
  · intro h
    obtain ⟨k, hk, hfind⟩ := Option.bind_eq_some_iff.mp h
    obtain ⟨a, ha, -, hid⟩ := exists_action_of_slotOf? hk
    refine ⟨List.mem_of_find?_eq_some hfind, k, by simpa using List.find?_some hfind, ?_⟩
    rw [ha, Option.map_some, hid]
  · rintro ⟨ht, k, hkt, hid⟩
    obtain ⟨a, ha, rfl⟩ := Option.map_eq_some_iff.mp hid
    obtain ⟨p, hp⟩ := List.getElem?_of_mem ht
    exact hw.synapseOf?_id ha hp hkt

end Graph.WellFormed

namespace GraphDocument

/-- All inputs of a document, in order, each with the id of the synapse that waits for it. -/
def waits (d : GraphDocument) : List (Int × Int) :=
  d.synapses.flatMap fun s => s.inputs.map fun id => (s.id, id)

/-- Why a document is rejected.  Repeated ids come before inputs that name no action. -/
inductive Rejected (d : GraphDocument) : Error → Prop
  /-- The action is the first in the order of the document whose id an earlier one has. -/
  | duplicate {before after : List ActionDocument} {a : ActionDocument}
      (h : d.arena = before ++ a :: after) (hnew : (before.map (·.id)).Nodup)
      (hold : a.id ∈ before.map (·.id)) : Rejected d (.duplicateAction a.id)
  /-- No id is repeated, and the input is the first that names no action. -/
  | unknown {before after : List (Int × Int)} {synapse id : Int}
      (hids : (d.arena.map (·.id)).Nodup) (h : d.waits = before ++ (synapse, id) :: after)
      (hnamed : ∀ w ∈ before, w.2 ∈ d.arena.map (·.id)) (hunknown : id ∉ d.arena.map (·.id)) :
      Rejected d (.unknownInput synapse id)

/-- The graph `g` holds what the document `d` says, and its lookups find it. -/
structure Built (d : GraphDocument) (g : Graph) : Prop where
  /-- Nothing but the synapses and the actions differs from the empty graph of the document. -/
  settings : g = { d.emptyGraph with synapses := g.synapses, actions := g.actions }
  synapses : g.synapses.map (fun t => (t.id, t.priority)) =
    d.synapses.map fun s => (s.id, s.priority)
  /-- Each slot has one owner. -/
  owner : ∀ k < g.actions.length, ∃! p : Nat, ∃ t, g.synapses[p]? = some t ∧ k ∈ t.actions
  /-- A synapse lists what it owns once. -/
  once : ∀ t ∈ g.synapses, t.actions.Nodup
  /-- A synapse owns the actions that the document gives it, in order. -/
  actions : ∀ (p : Nat) s t, d.synapses[p]? = some s → g.synapses[p]? = some t →
    t.actions.map (g.actions[·]?) = s.actions.map fun a => some a.toAction
  /-- A synapse waits for the actions that the document names, in order. -/
  inputs : ∀ (p : Nat) s t, d.synapses[p]? = some s → g.synapses[p]? = some t →
    t.inputs.map (fun i => g.actions[i.slot]?.map (·.id)) = s.inputs.map some
  ids : (g.actions.map (·.id)).Nodup
  action?_iff : ∀ id a, g.action? id = some a ↔ a ∈ g.actions ∧ a.id = id
  synapseOf?_iff : ∀ id t, g.synapseOf? id = some t ↔
    t ∈ g.synapses ∧ ∃ k ∈ t.actions, g.actions[k]?.map (·.id) = some id
  pending : ∀ a ∈ g.actions, a.status = .pending
  unsatisfied : ∀ t ∈ g.synapses, ∀ i ∈ t.inputs, i.satisfied = false

/-! ## The first failure -/

/-- Among the actions `as` one repeats an id, those in `known` included, and the first that does is
to blame. -/
def FirstRepeat (known : List Int) (as : List ActionDocument) (err : Error) : Prop :=
  ∃ before a after, as = before ++ a :: after ∧ (known ++ before.map (·.id)).Nodup ∧
    a.id ∈ known ++ before.map (·.id) ∧ err = .duplicateAction a.id

/-- Actions after the first repetition do not matter. -/
theorem FirstRepeat.append {known : List Int} {as : List ActionDocument} {err : Error}
    (h : FirstRepeat known as err) (rest : List ActionDocument) :
    FirstRepeat known (as ++ rest) err := by
  obtain ⟨before, a, after, rfl, hnew, hold, rfl⟩ := h
  exact ⟨before, a, after ++ rest, by simp, hnew, hold, rfl⟩

/-- Actions before the first repetition are known. -/
theorem FirstRepeat.prepend {known : List Int} {as rest : List ActionDocument} {err : Error}
    (h : FirstRepeat (known ++ as.map (·.id)) rest err) : FirstRepeat known (as ++ rest) err := by
  obtain ⟨before, a, after, rfl, hnew, hold, rfl⟩ := h
  refine ⟨as ++ before, a, after, by simp, ?_, ?_, rfl⟩
  · simpa using hnew
  · simpa using hold

/-- An id that stands at a slot is the id of an action. -/
theorem mem_ids_of_slotOf? {g : Graph} {id : ActionId} {slot : Nat} (h : g.slotOf? id = some slot) :
    id ∈ g.actions.map (·.id) := by
  obtain ⟨a, ha, -, rfl⟩ := Graph.exists_action_of_slotOf? h
  exact List.mem_map_of_mem (List.mem_of_getElem? ha)

theorem ids_toAction (as : List ActionDocument) :
    (as.map ActionDocument.toAction).map (·.id) = as.map (·.id) := by
  simp [Function.comp_def]

theorem addActions_eq_error {pos : Nat} {as : List ActionDocument} {g : Graph} {err : Error}
    (hids : (g.actions.map (·.id)).Nodup) (h : addActions pos as g = .error err) :
    FirstRepeat (g.actions.map (·.id)) as err := by
  induction as generalizing g with
  | nil => cases h
  | cons a rest ih =>
    simp only [addActions, addAction_eq] at h
    cases hslot : g.slotOf? a.id with
    | some slot =>
      have hmem : a.id ∈ g.actions.map (·.id) := mem_ids_of_slotOf? hslot
      simp only [toAction_id, hslot, Option.isSome_some, if_true, Except.error.injEq] at h
      exact ⟨[], a, rest, rfl, by simpa using hids, by simpa using hmem, h.symm⟩
    | none =>
      have hnew := slotOf?_eq_none_iff.mp hslot
      simp only [toAction_id, hslot, Option.isSome_none, Bool.false_eq_true, if_false] at h
      have hids' : ((g.actions ++ [a.toAction]).map (·.id)).Nodup := by
        rw [List.map_append, List.map_singleton]
        exact List.nodup_append.mpr ⟨hids, by simp, by simpa using hnew⟩
      have hrest := ih hids' h
      rw [List.map_append, ← List.map_singleton, ids_toAction] at hrest
      exact hrest.prepend

theorem addSynapses_eq_error {ss : List SynapseDocument} {g : Graph} {err : Error}
    (hids : (g.actions.map (·.id)).Nodup) (h : addSynapses ss g = .error err) :
    FirstRepeat (g.actions.map (·.id)) (ss.flatMap (·.actions)) err := by
  induction ss generalizing g with
  | nil => cases h
  | cons s rest ih =>
    -- the repetition is in the actions of `s`, or these are known to all that come after
    simp only [addSynapses] at h
    rw [List.flatMap_cons]
    split at h
    · rename_i err' hadd
      obtain rfl := Except.error.inj h
      exact (addActions_eq_error (g := g.addSynapse s.id s.priority) hids hadd).append _
    · rename_i g₁ hadd
      obtain ⟨hg₁, hids₁⟩ := addActions_eq_ok hadd
      have hrest := ih (hids₁ hids) h
      rw [hg₁, List.map_append, ids_toAction] at hrest
      exact hrest.prepend

/-- Among the inputs `ws` one names none of the `known` actions, and the first that does so is to
blame. -/
def FirstUnknown (known : List Int) (ws : List (Int × Int)) (err : Error) : Prop :=
  ∃ before synapse id after, ws = before ++ (synapse, id) :: after ∧
    (∀ w ∈ before, w.2 ∈ known) ∧ id ∉ known ∧ err = .unknownInput synapse id

theorem FirstUnknown.append {known : List Int} {ws : List (Int × Int)} {err : Error}
    (h : FirstUnknown known ws err) (rest : List (Int × Int)) :
    FirstUnknown known (ws ++ rest) err := by
  obtain ⟨before, synapse, id, after, rfl, hnamed, hunknown, rfl⟩ := h
  exact ⟨before, synapse, id, after ++ rest, by simp, hnamed, hunknown, rfl⟩

theorem FirstUnknown.prepend {known : List Int} {ws rest : List (Int × Int)} {err : Error}
    (h : FirstUnknown known rest err) (hws : ∀ w ∈ ws, w.2 ∈ known) :
    FirstUnknown known (ws ++ rest) err := by
  obtain ⟨before, synapse, id, after, rfl, hnamed, hunknown, rfl⟩ := h
  refine ⟨ws ++ before, synapse, id, after, by simp, fun w hw => ?_, hunknown, rfl⟩
  exact (List.mem_append.mp hw).elim (hws w) (hnamed w)

theorem addInputs_eq_error {pos : Nat} {t : Synapse} {ids : List Int} {g : Graph} {err : Error}
    (ht : g.synapses[pos]? = some t) (h : addInputs pos ids g = .error err) :
    FirstUnknown (g.actions.map (·.id)) (ids.map fun id => (t.id, id)) err := by
  induction ids generalizing g t with
  | nil => cases h
  | cons id rest ih =>
    simp only [addInputs, addInput_eq] at h
    cases hslot : g.slotOf? id with
    | none =>
      simp only [hslot, ht, Option.map_some, Option.getD_some, Except.error.injEq] at h
      exact ⟨[], t.id, id, _, rfl, by simp, slotOf?_eq_none_iff.mp hslot, h.symm⟩
    | some slot =>
      simp only [hslot] at h
      have hrest := ih (t := { t with inputs := t.inputs ++ [⟨slot, false⟩] })
        (by simp [List.getElem?_modify_eq, ht]) h
      have hnamed : ∀ w ∈ [(t.id, id)], w.2 ∈ g.actions.map (·.id) := by
        intro w hw
        obtain rfl := List.mem_singleton.mp hw
        exact mem_ids_of_slotOf? hslot
      exact hrest.prepend hnamed

theorem connect_eq_error {ss : List SynapseDocument} {before todo : List Synapse} {g : Graph}
    {err : Error} (hsyn : todo.map (·.id) = ss.map (·.id)) (hg : g.synapses = before ++ todo)
    (h : connect before.length ss g = .error err) :
    FirstUnknown (g.actions.map (·.id))
      (ss.flatMap fun s => s.inputs.map fun id => (s.id, id)) err := by
  -- the synapses in `before` are connected: the one at the position `before.length` is next
  induction ss generalizing before todo g with
  | nil => cases h
  | cons s rest ih =>
    obtain ⟨t, todo, rfl, hid, hrest⟩ := List.map_eq_cons_iff.mp hsyn
    have ht : g.synapses[before.length]? = some t := by simp [hg]
    simp only [connect] at h
    have hid : t.id = s.id := hid
    rw [List.flatMap_cons, ← hid]
    split at h
    · rename_i err' hadd
      obtain rfl := Except.error.inj h
      exact (addInputs_eq_error ht hadd).append _
    · rename_i g₁ hadd
      obtain ⟨slots, hslots, hg₁⟩ := addInputs_eq_ok hadd
      have hactions : g₁.actions = g.actions := by rw [hg₁]
      have hsyn₁ : g₁.synapses = (before ++ [awaiting slots t]) ++ todo := by
        simp [hg₁, hg, modify_append_length]
      rw [show before.length + 1 = (before ++ [awaiting slots t]).length by simp] at h
      have hlater := ih hrest hsyn₁ h
      rw [hactions] at hlater
      refine hlater.prepend fun w hw => ?_
      obtain ⟨id, hmem, rfl⟩ := List.mem_map.mp hw
      have hfound : g.slotOf? id ∈ slots.map some := hslots ▸ List.mem_map_of_mem hmem
      obtain ⟨slot, -, hslot⟩ := List.mem_map.mp hfound
      exact mem_ids_of_slotOf? hslot.symm

/-! ## Rejected documents -/

variable {d : GraphDocument}

theorem map_id_place (first : Nat) (ss : List SynapseDocument) :
    (place first ss).map (·.id) = ss.map (·.id) := by
  induction ss generalizing first with
  | nil => rfl
  | cons s rest ih => simp only [place, List.map_cons, ih]

theorem rejected_of_toGraph {err : Error} (h : d.toGraph = .error err) : d.Rejected err := by
  simp only [toGraph] at h
  split at h
  · rename_i err' hadd
    obtain rfl := Except.error.inj h
    obtain ⟨before, a, after, harena, hnew, hold, rfl⟩ :=
      addSynapses_eq_error (g := d.emptyGraph) (by simp [emptyGraph]) hadd
    exact .duplicate harena (by simpa [emptyGraph] using hnew) (by simpa [emptyGraph] using hold)
  · rename_i g₁ hadd
    obtain ⟨hg₁, hids⟩ := addSynapses_eq_ok hadd
    have hknown : g₁.actions.map (·.id) = d.arena.map (·.id) := by
      rw [hg₁]
      exact ids_toAction _
    have hsyn : g₁.synapses = [] ++ place 0 d.synapses := by simp [hg₁, emptyGraph]
    obtain ⟨before, synapse, id, after, hwaits, hnamed, hunknown, rfl⟩ :=
      connect_eq_error (map_id_place 0 d.synapses) hsyn h
    rw [hknown] at hnamed hunknown
    exact .unknown (hknown ▸ hids (by simp [emptyGraph])) hwaits hnamed hunknown

/-- Ids are not distinct if an action has the id of an earlier one. -/
theorem not_nodup_of_repeat {before : List ActionDocument} {a : ActionDocument}
    (hold : a.id ∈ before.map (·.id)) (after : List ActionDocument) :
    ¬ ((before ++ a :: after).map (·.id)).Nodup := by
  rw [List.map_append, List.map_cons]
  intro hnodup
  exact (List.nodup_append.mp hnodup).2.2 _ hold _ (List.mem_cons_self ..) rfl

/-- A document is rejected for one reason only. -/
theorem Rejected.unique {err err' : Error} (h : d.Rejected err) (h' : d.Rejected err') :
    err = err' := by
  have hrepeat {before after : List ActionDocument} {a : ActionDocument}
      (harena : d.arena = before ++ a :: after) (hold : a.id ∈ before.map (·.id)) :
      ¬ (d.arena.map (·.id)).Nodup :=
    harena ▸ not_nodup_of_repeat hold after
  cases h with
  | duplicate harena hnew hold =>
    cases h' with
    | duplicate harena' hnew' hold' =>
      have hfront (u v : List ActionDocument) (huv : ((u ++ v).map (·.id)).Nodup) :
          (u.map (·.id)).Nodup := by
        rw [List.map_append] at huv
        exact (List.nodup_append.mp huv).1
      rw [eq_of_first_failure (P := fun as => (as.map (·.id)).Nodup) hfront
        (harena.symm.trans harena') hnew (not_nodup_of_repeat hold [])
        hnew' (not_nodup_of_repeat hold' [])]
    | unknown hids => exact absurd hids (hrepeat harena hold)
  | unknown hids hwaits hnamed hunknown =>
    cases h' with
    | duplicate harena' _ hold' => exact absurd hids (hrepeat harena' hold')
    | unknown _ hwaits' hnamed' hunknown' =>
      have hfront (u v : List (Int × Int)) (huv : ∀ w ∈ u ++ v, w.2 ∈ d.arena.map (·.id)) :
          ∀ w ∈ u, w.2 ∈ d.arena.map (·.id) :=
        fun w hw => huv w (List.mem_append_left _ hw)
      have hlast {u : List (Int × Int)} {w : Int × Int} (hw : w.2 ∉ d.arena.map (·.id)) :
          ¬ ∀ w' ∈ u ++ [w], w'.2 ∈ d.arena.map (·.id) :=
        fun hall => hw (hall w (by simp))
      have hsame := eq_of_first_failure (P := fun ws => ∀ w ∈ ws, w.2 ∈ d.arena.map (·.id))
        hfront (hwaits.symm.trans hwaits') hnamed (hlast hunknown) hnamed' (hlast hunknown')
      obtain ⟨rfl, rfl⟩ := Prod.mk.inj hsame
      rfl

/-- What is wrong with a rejected document keeps it from being loaded. -/
theorem Rejected.not_loads {err : Error} (h : d.Rejected err) (g : Graph) : d.toGraph ≠ .ok g := by
  intro hg
  obtain ⟨hids, hinputs⟩ := exists_toGraph_iff.mp ⟨g, hg⟩
  cases h with
  | duplicate harena _ hold => exact not_nodup_of_repeat hold _ (harena ▸ hids)
  | @unknown before after synapse id _ hwaits _ hunknown =>
    have hmem : (synapse, id) ∈ d.waits := by simp [hwaits]
    obtain ⟨s, hs, hid⟩ := List.mem_flatMap.mp hmem
    obtain ⟨id', hid', heq⟩ := List.mem_map.mp hid
    obtain ⟨-, rfl⟩ := Prod.mk.inj heq
    exact hunknown (hinputs s hs _ hid')

theorem toGraph_eq_error_iff {err : Error} : d.toGraph = .error err ↔ d.Rejected err := by
  constructor
  · exact rejected_of_toGraph
  · intro h
    cases hg : d.toGraph with
    | ok g => exact absurd hg (h.not_loads g)
    | error err' => rw [(rejected_of_toGraph hg).unique h]

/-! ## Loaded documents -/

/-- An input stands for the action that the document names. -/
theorem map_id_inputs {s : SynapseDocument} {g : Graph} {t : Synapse} (h : s.LoadedAs g t) :
    t.inputs.map (fun i => g.actions[i.slot]?.map (·.id)) = s.inputs.map some := by
  have hnamed := congrArg (List.map fun p => (p.1.bind (g.actions[·]?)).map (·.id)) h.inputs
  rw [List.map_map, List.map_map] at hnamed
  refine hnamed.trans (List.map_congr_left fun id hid => ?_)
  have hmem := List.mem_map_of_mem (f := fun id => (g.slotOf? id, false)) hid
  rw [← h.inputs] at hmem
  obtain ⟨i, -, heq⟩ := List.mem_map.mp hmem
  obtain ⟨hslot, -⟩ := Prod.mk.inj heq
  obtain ⟨a, ha, -, rfl⟩ := Graph.exists_action_of_slotOf? hslot.symm
  simp [← hslot, ha]

theorem map_id_priority {g : Graph} {ss : List SynapseDocument} {ts : List Synapse}
    (h : List.Forall₂ (SynapseDocument.LoadedAs g) ss ts) :
    ts.map (fun t => (t.id, t.priority)) = ss.map fun s => (s.id, s.priority) := by
  induction h with
  | nil => rfl
  | cons hst _ ih => rw [List.map_cons, List.map_cons, hst.id, hst.priority, ih]

/-- **A loaded graph holds what the document says.** -/
theorem built_of_toGraph {g : Graph} (h : d.toGraph = .ok g) : d.Built g := by
  have hloaded := loadedAs_of_toGraph h
  have hw := hloaded.wellFormed
  have hsynapse {p : Nat} {s : SynapseDocument} {t : Synapse} (hs : d.synapses[p]? = some s)
      (ht : g.synapses[p]? = some t) : s.LoadedAs g t := by
    obtain ⟨t', ht', hst⟩ := hloaded.exists_synapse_at hs
    obtain rfl : t = t' := Option.some.inj (ht.symm.trans ht')
    exact hst
  refine ⟨hloaded.settings, ?_, fun k hk => ?_, fun t ht => hw.nodup_actions ht,
    fun p s t hs ht => (hsynapse hs ht).actions, fun p s t hs ht => map_id_inputs (hsynapse hs ht),
    hloaded.ids, fun id a => hw.action?_iff, fun id t => hw.synapseOf?_iff,
    fun a ha => (hloaded.fresh.actions a ha).1, hloaded.fresh.inputs⟩
  · exact map_id_priority hloaded.synapses
  · obtain ⟨p, t, ht, hkt⟩ := hw.exists_owner hk
    refine ⟨p, ⟨t, ht, hkt⟩, ?_⟩
    rintro q ⟨u, hu, hku⟩
    exact hw.owner_unique hu ht hku hkt

/-! ## The answers together -/

/-- **What the loader answers.**  A document loads exactly if its ids are distinct and its inputs
name actions; the graph is then the one that it describes.  Otherwise the error is that of the first
action that repeats an id, or else that of the first input that names no action.  And an action or
an input that a graph does not take leaves it as it was. -/
theorem toGraph_answers (d : GraphDocument) :
    ((∃ g, d.toGraph = .ok g) ↔ (d.arena.map (·.id)).Nodup ∧
      ∀ s ∈ d.synapses, ∀ id ∈ s.inputs, id ∈ d.arena.map (·.id)) ∧
    (∀ err, d.toGraph = .error err ↔ d.Rejected err) ∧
    (∀ g, d.toGraph = .ok g → d.Built g) ∧
    (∀ (g : Graph) pos a err, (g.addActionInPlace pos a).1 = .error err →
      (g.addActionInPlace pos a).2 = g) ∧
    ∀ (g : Graph) pos id err, (g.addInputInPlace pos id).1 = .error err →
      (g.addInputInPlace pos id).2 = g := by
  refine ⟨exists_toGraph_iff, fun err => toGraph_eq_error_iff, fun g => built_of_toGraph,
    fun g pos a err h => ?_, fun g pos id err h => ?_⟩
  · simp only [Graph.addActionInPlace] at h ⊢
    split
    · rfl
    · rename_i hnew
      rw [if_neg hnew] at h
      cases h
  · simp only [Graph.addInputInPlace] at h ⊢
    split
    · rfl
    · rename_i slot hslot
      rw [hslot] at h
      cases h

/-- Two synapses of one id, of which the first waits for the marker of the second. -/
def crossed : GraphDocument where
  transitionId := 1
  synapses :=
    [{ id := 0, actions := [{ id := 1, kind := .pseudo }], inputs := [2] },
     { id := 0, actions := [{ id := 2, kind := .pseudo }] }]

/-- The first synapse waits for an action that does not exist, and the second repeats an id. -/
def tangled : GraphDocument where
  transitionId := 1
  synapses :=
    [{ id := 0, actions := [{ id := 1, kind := .pseudo }], inputs := [9] },
     { id := 1, actions := [{ id := 1, kind := .pseudo }] }]

/-- A second marker of an id that is taken. -/
def again : Action where
  id := 2
  kind := .pseudo
  op := {}

/-- Crossed synapses are loaded and take no action twice; tangled ones are rejected for the repeated
id. -/
theorem crossed_answers :
    (∃ g, crossed.toGraph = .ok g ∧ crossed.Built g ∧
      g.synapses.map (·.inputs) = [[⟨1, false⟩], []] ∧
      (g.addActionInPlace 0 again).1 = .error (.duplicateAction 2) ∧
      (g.addActionInPlace 0 again).2 = g ∧
      (g.addInputInPlace 1 9).1 = .error (.unknownInput 0 9) ∧ (g.addInputInPlace 1 9).2 = g) ∧
    tangled.Rejected (.duplicateAction 1) := by
  have hfacts : ∀ g, crossed.toGraph = .ok g → g.synapses.map (·.inputs) = [[⟨1, false⟩], []] ∧
      (g.addActionInPlace 0 again).1 = .error (.duplicateAction 2) ∧
      (g.addInputInPlace 1 9).1 = .error (.unknownInput 0 9) := by
    rintro _ ⟨⟩
    exact ⟨rfl, rfl, rfl⟩
  obtain ⟨g, hg⟩ : ∃ g, crossed.toGraph = .ok g := ⟨_, rfl⟩
  obtain ⟨hinputs, haction, hinput⟩ := hfacts g hg
  obtain ⟨-, -, hbuilt, hkeptAction, hkeptInput⟩ := toGraph_answers crossed
  obtain ⟨-, hrejected, -⟩ := toGraph_answers tangled
  exact ⟨⟨g, hg, hbuilt g hg, hinputs, haction, hkeptAction g 0 _ _ haction, hinput,
    hkeptInput g 1 9 _ hinput⟩, (hrejected _).mp rfl⟩

end GraphDocument
end ClusterTransition
