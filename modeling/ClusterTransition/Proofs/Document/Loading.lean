import ClusterTransition.Document
import ClusterTransition.Proofs.Graph.Plan
import Mathlib.Data.List.Forall2

/-! # What a loaded graph holds

The loader appends the actions of a document to the graph one after the other, and then resolves the
inputs.  `GraphDocument.LoadedAs` says what has come of it: the settings are those of the document,
the actions are its actions in order, and the synapses are its synapses in order, each with the
slots of its own actions and of the actions that it waits for.  Every graph that the loader returns
is of this kind (`GraphDocument.loadedAs_of_toGraph`), and so it is well formed and fresh.
-/

namespace ClusterTransition

/-- The synapse `t` of the graph `g` is the one that the document `s` describes. -/
structure SynapseDocument.LoadedAs (g : Graph) (s : SynapseDocument) (t : Synapse) : Prop where
  id : t.id = s.id
  priority : t.priority = s.priority
  status : t.status = .unfired
  /-- The slots of the synapse hold the actions of the document. -/
  actions : t.actions.map (g.actions[·]?) = s.actions.map fun a => some a.toAction
  /-- The inputs are the slots of the ids that the document names. -/
  inputs : t.inputs.map (fun i => (some i.slot, i.satisfied)) =
    s.inputs.map fun id => (g.slotOf? id, false)

theorem SynapseDocument.LoadedAs.filterMap_actions {g : Graph} {s : SynapseDocument} {t : Synapse}
    (h : s.LoadedAs g t) :
    t.actions.filterMap (g.actions[·]?) = s.actions.map ActionDocument.toAction := by
  have := congrArg (List.filterMap fun a => a) h.actions
  simpa [List.filterMap_map, Function.comp_def] using this

namespace GraphDocument

/-- All actions of a document, in order. -/
def arena (d : GraphDocument) : List ActionDocument := d.synapses.flatMap (·.actions)

/-- The graph `g` is the one that the document `d` describes. -/
structure LoadedAs (d : GraphDocument) (g : Graph) : Prop where
  /-- Nothing but the synapses and the actions differs from the empty graph of the document. -/
  settings : g = { d.emptyGraph with synapses := g.synapses, actions := g.actions }
  actions : g.actions = d.arena.map ActionDocument.toAction
  ids : (g.actions.map (·.id)).Nodup
  owned : g.synapses.flatMap (·.actions) = List.range g.actions.length
  synapses : List.Forall₂ (SynapseDocument.LoadedAs g) d.synapses g.synapses

/-! ## Synapses and their actions -/

theorem slotOf?_eq_none_iff {g : Graph} {id : ActionId} :
    g.slotOf? id = none ↔ id ∉ g.actions.map (·.id) := by
  simp [Graph.slotOf?, List.findIdx?_eq_none_iff]

/-- An action is added unless the graph has its id. -/
theorem addAction_eq (g : Graph) (pos : Nat) (a : Action) :
    g.addAction pos a =
      if (g.slotOf? a.id).isSome then .error (.duplicateAction a.id)
      else .ok { g with
        actions := g.actions ++ [a]
        synapses := g.synapses.modify pos fun s =>
          { s with actions := s.actions ++ [g.actions.length] } } := by
  by_cases h : (g.slotOf? a.id).isSome = true
  · simp only [Graph.addAction, Graph.addActionInPlace, if_pos h]
  · simp only [Graph.addAction, Graph.addActionInPlace, if_neg h]

/-- An input is added if the graph has its action. -/
theorem addInput_eq (g : Graph) (pos : Nat) (id : ActionId) :
    g.addInput pos id =
      match g.slotOf? id with
      | none => .error (.unknownInput ((g.synapses[pos]?.map (·.id)).getD 0) id)
      | some slot => .ok { g with
        synapses := g.synapses.modify pos fun s =>
          { s with inputs := s.inputs ++ [⟨slot, false⟩] } } := by
  cases h : g.slotOf? id with
  | none => simp only [Graph.addInput, Graph.addInputInPlace, h]
  | some slot => simp only [Graph.addInput, Graph.addInputInPlace, h]

/-- The synapse when it also owns the actions at some slots. -/
def owning (slots : List Nat) (s : Synapse) : Synapse := { s with actions := s.actions ++ slots }

theorem owning_nil : owning [] = id := by
  funext s
  simp [owning]

theorem owning_comp (slots slots' : List Nat) :
    owning slots' ∘ owning slots = owning (slots ++ slots') := by
  funext s
  simp [owning]

/-- Adding actions to a synapse appends them to the graph and their slots to the synapse. -/
theorem addActions_eq_ok {pos : Nat} {as : List ActionDocument} {g g' : Graph}
    (h : addActions pos as g = .ok g') :
    g' = { g with
      actions := g.actions ++ as.map ActionDocument.toAction
      synapses := g.synapses.modify pos (owning (List.range' g.actions.length as.length)) } ∧
      ((g.actions.map (·.id)).Nodup → (g'.actions.map (·.id)).Nodup) := by
  induction as generalizing g with
  | nil =>
    cases h
    simp [owning_nil]
  | cons a rest ih =>
    simp only [addActions, addAction_eq] at h
    split at h
    · cases h
    · rename_i g₁ hadd
      split at hadd
      · cases hadd
      · rename_i hfresh
        cases hadd
        obtain ⟨hg', hnodup⟩ := ih h
        refine ⟨?_, fun hids => hnodup ?_⟩
        · have hmod : g.synapses.modify pos
              (fun s => { s with actions := s.actions ++ [g.actions.length] }) =
              g.synapses.modify pos (owning [g.actions.length]) := rfl
          rw [hg']
          simp [hmod, List.modify_modify_eq, owning_comp, List.range'_succ]
        · have hnone : g.slotOf? a.toAction.id = none := by simpa using hfresh
          have hnew := slotOf?_eq_none_iff.mp hnone
          rw [List.map_append, List.map_singleton]
          exact List.nodup_append.mpr ⟨hids, by simp, by simpa using hnew⟩

/-- The synapses of a document with the slots of their actions, which count up from `first`. -/
def place (first : Nat) : List SynapseDocument → List Synapse
  | [] => []
  | s :: rest =>
    { id := s.id, priority := s.priority, actions := List.range' first s.actions.length } ::
      place (first + s.actions.length) rest

theorem modify_append_length {α : Type} (f : α → α) (l : List α) (a : α) (r : List α) :
    (l ++ a :: r).modify l.length f = l ++ f a :: r := by
  induction l with
  | nil => rfl
  | cons b l ih => simp [ih]

/-- Adding synapses appends their actions to the graph and places the synapses over them. -/
theorem addSynapses_eq_ok {ss : List SynapseDocument} {g g' : Graph}
    (h : addSynapses ss g = .ok g') :
    g' = { g with
      actions := g.actions ++ (ss.flatMap (·.actions)).map ActionDocument.toAction
      synapses := g.synapses ++ place g.actions.length ss } ∧
      ((g.actions.map (·.id)).Nodup → (g'.actions.map (·.id)).Nodup) := by
  induction ss generalizing g with
  | nil =>
    cases h
    simp [place]
  | cons s rest ih =>
    simp only [addSynapses] at h
    split at h
    · cases h
    · rename_i g₁ hadd
      obtain ⟨hg₁, hnodup₁⟩ := addActions_eq_ok hadd
      obtain ⟨hg', hnodup⟩ := ih h
      refine ⟨?_, fun hids => hnodup (hnodup₁ hids)⟩
      rw [hg', hg₁]
      simp [Graph.addSynapse, modify_append_length, place, owning]

/-- The places are taken in order, each once. -/
theorem flatMap_place (first : Nat) (ss : List SynapseDocument) :
    (place first ss).flatMap (·.actions) =
      List.range' first (ss.flatMap (·.actions)).length := by
  induction ss generalizing first with
  | nil => rfl
  | cons s rest ih =>
    simp only [place, List.flatMap_cons, ih, List.length_append]
    rw [List.range'_append_1]

/-! ## Inputs -/

/-- The synapse when it also waits for the actions at some slots. -/
def awaiting (slots : List Nat) (s : Synapse) : Synapse :=
  { s with inputs := s.inputs ++ slots.map fun slot => ⟨slot, false⟩ }

theorem awaiting_nil : awaiting [] = id := by
  funext s
  simp [awaiting]

theorem awaiting_comp (slots slots' : List Nat) :
    awaiting slots' ∘ awaiting slots = awaiting (slots ++ slots') := by
  funext s
  simp [awaiting]

/-- Adding inputs finds the slots of the actions that they name. -/
theorem addInputs_eq_ok {pos : Nat} {ids : List Int} {g g' : Graph}
    (h : addInputs pos ids g = .ok g') :
    ∃ slots, ids.map g.slotOf? = slots.map some ∧
      g' = { g with synapses := g.synapses.modify pos (awaiting slots) } := by
  induction ids generalizing g with
  | nil =>
    cases h
    exact ⟨[], rfl, by simp [awaiting_nil]⟩
  | cons id rest ih =>
    simp only [addInputs, addInput_eq] at h
    split at h
    · cases h
    · rename_i g₁ hadd
      split at hadd
      · cases hadd
      · rename_i slot hslot
        cases hadd
        obtain ⟨slots, hslots, hg'⟩ := ih h
        refine ⟨slot :: slots, ?_, ?_⟩
        · rw [List.map_cons, List.map_cons, hslot, ← hslots]
          rfl
        · have hmod : g.synapses.modify pos
              (fun s => { s with inputs := s.inputs ++ [⟨slot, false⟩] }) =
              g.synapses.modify pos (awaiting [slot]) := rfl
          rw [hg']
          simp [hmod, List.modify_modify_eq, awaiting_comp]

/-- Connecting synapses changes nothing but their inputs, which are those of the document: if `P`
holds between the documents and the synapses before, and inputs turn `P` into `Q`, then `Q` holds
after. -/
theorem connect_eq_ok {P Q : SynapseDocument → Synapse → Prop} {ss : List SynapseDocument}
    {before todo : List Synapse} {g g' : Graph} (hP : List.Forall₂ P ss todo)
    (hPQ : ∀ s t slots, P s t → s.inputs.map g.slotOf? = slots.map some → Q s (awaiting slots t))
    (hg : g.synapses = before ++ todo) (h : connect before.length ss g = .ok g') :
    ∃ after, g' = { g with synapses := before ++ after } ∧ List.Forall₂ Q ss after ∧
      after.flatMap (·.actions) = todo.flatMap (·.actions) := by
  induction hP generalizing before g with
  | nil =>
    cases h
    exact ⟨[], by rw [← hg], .nil, rfl⟩
  | @cons s t ss todo hst hrest ih =>
    simp only [connect] at h
    split at h
    · cases h
    · rename_i g₁ hadd
      obtain ⟨slots, hslots, hg₁⟩ := addInputs_eq_ok hadd
      have hsyn : g₁.synapses = (before ++ [awaiting slots t]) ++ todo := by
        simp [hg₁, hg, modify_append_length]
      rw [show before.length + 1 = (before ++ [awaiting slots t]).length by simp] at h
      obtain ⟨after, hg', hafter, howned⟩ := ih (by rw [hg₁]; exact hPQ) hsyn h
      refine ⟨awaiting slots t :: after, ?_, .cons (hPQ s t slots hst hslots) hafter, ?_⟩
      · rw [hg', hg₁]
        simp
      · rw [List.flatMap_cons, List.flatMap_cons, howned]
        rfl

/-! ## Loaded graphs -/

theorem map_getElem?_range' {α : Type} (pre mid post : List α) :
    (List.range' pre.length mid.length).map ((pre ++ mid ++ post)[·]?) = mid.map some := by
  apply List.ext_getElem (by simp)
  intro i hi _
  simp only [List.length_map, List.length_range'] at hi
  simp [List.getElem?_append, hi]

/-- The slots of a placed synapse hold the actions of its document. -/
theorem forall₂_place (pre : List Action) (ss : List SynapseDocument) :
    List.Forall₂ (fun s t => t = { id := s.id, priority := s.priority, actions := t.actions } ∧
        t.actions.map ((pre ++ (ss.flatMap (·.actions)).map ActionDocument.toAction)[·]?) =
          s.actions.map fun a => some a.toAction) ss (place pre.length ss) := by
  induction ss generalizing pre with
  | nil => exact .nil
  | cons s rest ih =>
    refine .cons ⟨rfl, ?_⟩ ?_
    · have := map_getElem?_range' pre (s.actions.map ActionDocument.toAction)
        ((rest.flatMap (·.actions)).map ActionDocument.toAction)
      simpa [Function.comp_def] using this
    · have := ih (pre ++ s.actions.map ActionDocument.toAction)
      simpa using this

/-- **The loader builds the graph that the document describes.** -/
theorem loadedAs_of_toGraph {d : GraphDocument} {g : Graph} (h : d.toGraph = .ok g) :
    d.LoadedAs g := by
  simp only [toGraph] at h
  split at h
  · cases h
  · rename_i g₁ hadd
    obtain ⟨hg₁, hids⟩ := addSynapses_eq_ok hadd
    have hacts : g₁.actions = d.arena.map ActionDocument.toAction := by
      simp [hg₁, emptyGraph, arena]
    have hsyn : g₁.synapses = [] ++ place 0 d.synapses := by simp [hg₁, emptyGraph]
    have hplace := forall₂_place [] d.synapses
    rw [List.nil_append, List.length_nil, ← arena.eq_def, ← hacts] at hplace
    obtain ⟨after, hg, hafter, howned⟩ := connect_eq_ok (Q := SynapseDocument.LoadedAs g₁) hplace
      (fun s t slots ht hslots => by
        refine ⟨?_, ?_, ?_, ht.2, ?_⟩
        · rw [ht.1]; rfl
        · rw [ht.1]; rfl
        · rw [ht.1]; rfl
        · have hnil : t.inputs = [] := by rw [ht.1]
          have := congrArg (List.map fun k => (k, false)) hslots
          simpa [awaiting, hnil, Function.comp_def] using this.symm)
      hsyn h
    rw [List.nil_append] at hg
    refine ⟨?_, ?_, ?_, ?_, ?_⟩
    · rw [hg, hg₁]
    · rw [hg, ← hacts]
    · rw [hg]
      exact hids (by simp [emptyGraph])
    · rw [hg]
      simp only [howned, flatMap_place, hacts, List.length_map, List.range_eq_range']
      rfl
    · rw [hg]
      exact hafter.imp fun s t ht => ⟨ht.id, ht.priority, ht.status, ht.actions, ht.inputs⟩

/-! ## The synapses of a loaded graph -/

section Loaded

variable {d : GraphDocument} {g : Graph}

/-- Where the graph has a synapse, the document has the one that it comes from. -/
theorem LoadedAs.exists_document_at (h : d.LoadedAs g) {p : Nat} {t : Synapse}
    (ht : g.synapses[p]? = some t) :
    ∃ s, d.synapses[p]? = some s ∧ SynapseDocument.LoadedAs g s t := by
  obtain ⟨hp, rfl⟩ := List.getElem?_eq_some_iff.mp ht
  have hlen := h.synapses.length_eq
  have hpd : p < d.synapses.length := by omega
  exact ⟨_, List.getElem?_eq_getElem hpd, (List.forall₂_iff_get.mp h.synapses).2 p hpd hp⟩

/-- Where the document has a synapse, the graph has one that comes from it. -/
theorem LoadedAs.exists_synapse_at (h : d.LoadedAs g) {p : Nat} {s : SynapseDocument}
    (hs : d.synapses[p]? = some s) :
    ∃ t, g.synapses[p]? = some t ∧ SynapseDocument.LoadedAs g s t := by
  obtain ⟨hp, rfl⟩ := List.getElem?_eq_some_iff.mp hs
  have hlen := h.synapses.length_eq
  have hpg : p < g.synapses.length := by omega
  exact ⟨_, List.getElem?_eq_getElem hpg, (List.forall₂_iff_get.mp h.synapses).2 p hp hpg⟩

theorem LoadedAs.exists_document (h : d.LoadedAs g) {t : Synapse} (ht : t ∈ g.synapses) :
    ∃ s ∈ d.synapses, SynapseDocument.LoadedAs g s t := by
  obtain ⟨p, hp⟩ := List.getElem?_of_mem ht
  obtain ⟨s, hs, hst⟩ := h.exists_document_at hp
  exact ⟨s, List.mem_of_getElem? hs, hst⟩

end Loaded

/-! ## Documents that load -/

@[simp] theorem toAction_id (a : ActionDocument) : a.toAction.id = a.id := rfl

theorem exists_addActions (pos : Nat) {as : List ActionDocument} {g : Graph}
    (h : (g.actions.map (·.id) ++ as.map (·.id)).Nodup) : ∃ g', addActions pos as g = .ok g' := by
  induction as generalizing g with
  | nil => exact ⟨g, rfl⟩
  | cons a rest ih =>
    have hfresh : g.slotOf? a.toAction.id = none := by
      refine slotOf?_eq_none_iff.mpr fun hmem => ?_
      exact (List.nodup_append.mp h).2.2 _ hmem _ (List.mem_cons_self ..) rfl
    simp only [addActions, addAction_eq, hfresh]
    exact ih (by simpa using h)

theorem exists_addSynapses {ss : List SynapseDocument} {g : Graph}
    (h : (g.actions.map (·.id) ++ (ss.flatMap (·.actions)).map (·.id)).Nodup) :
    ∃ g', addSynapses ss g = .ok g' := by
  induction ss generalizing g with
  | nil => exact ⟨g, rfl⟩
  | cons s rest ih =>
    rw [List.flatMap_cons, List.map_append, ← List.append_assoc] at h
    obtain ⟨g₁, hg₁⟩ := exists_addActions g.synapses.length
      (g := g.addSynapse s.id s.priority) (List.nodup_append.mp h).1
    simp only [addSynapses, hg₁]
    refine ih ?_
    rw [(addActions_eq_ok hg₁).1]
    simpa [Function.comp_def, Graph.addSynapse] using h

theorem exists_addInputs (pos : Nat) {ids : List Int} {g : Graph}
    (h : ∀ id ∈ ids, id ∈ g.actions.map (·.id)) : ∃ g', addInputs pos ids g = .ok g' := by
  induction ids generalizing g with
  | nil => exact ⟨g, rfl⟩
  | cons id rest ih =>
    have hmem := h id (List.mem_cons_self ..)
    cases hslot : g.slotOf? id with
    | none => exact absurd hmem (slotOf?_eq_none_iff.mp hslot)
    | some slot =>
      simp only [addInputs, addInput_eq, hslot]
      exact ih fun id hid => h id (List.mem_cons_of_mem _ hid)

theorem exists_connect (pos : Nat) {ss : List SynapseDocument} {g : Graph}
    (h : ∀ s ∈ ss, ∀ id ∈ s.inputs, id ∈ g.actions.map (·.id)) :
    ∃ g', connect pos ss g = .ok g' := by
  induction ss generalizing pos g with
  | nil => exact ⟨g, rfl⟩
  | cons s rest ih =>
    obtain ⟨g₁, hg₁⟩ := exists_addInputs pos (h s (List.mem_cons_self ..))
    obtain ⟨slots, -, rfl⟩ := addInputs_eq_ok hg₁
    simp only [connect, hg₁]
    exact ih (pos + 1) fun s hs => h s (List.mem_cons_of_mem _ hs)

/-- **A document loads exactly if its ids are distinct and its inputs name actions.** -/
theorem exists_toGraph_iff {d : GraphDocument} :
    (∃ g, d.toGraph = .ok g) ↔ (d.arena.map (·.id)).Nodup ∧
      ∀ s ∈ d.synapses, ∀ id ∈ s.inputs, id ∈ d.arena.map (·.id) := by
  constructor
  · rintro ⟨g, h⟩
    have hloaded := loadedAs_of_toGraph h
    have hids : g.actions.map (·.id) = d.arena.map (·.id) := by
      rw [hloaded.actions, List.map_map]
      rfl
    refine ⟨hids ▸ hloaded.ids, fun s hs id hid => ?_⟩
    obtain ⟨p, hp⟩ := List.getElem?_of_mem hs
    obtain ⟨t, -, ht⟩ := hloaded.exists_synapse_at hp
    have hmem := List.mem_map_of_mem (f := fun id => (g.slotOf? id, false)) hid
    rw [← hids]
    by_contra hnone
    rw [slotOf?_eq_none_iff.mpr hnone, ← ht.inputs] at hmem
    simp at hmem
  · rintro ⟨hids, hinputs⟩
    obtain ⟨g₁, hg₁⟩ := exists_addSynapses (g := d.emptyGraph) (by
      simpa [emptyGraph, arena] using hids)
    obtain ⟨g, hg⟩ := exists_connect 0 (g := g₁) (fun s hs id hid => by
      rw [(addSynapses_eq_ok hg₁).1]
      simpa [emptyGraph, Function.comp_def, arena] using hinputs s hs id hid)
    exact ⟨g, by simp only [toGraph, hg₁, hg]⟩

/-! ## What follows -/

section Loaded

variable {d : GraphDocument} {g : Graph}

/-- The inputs of a loaded synapse are unmarked and name slots of the graph. -/
theorem LoadedAs.input (h : d.LoadedAs g) {s : Synapse} (hs : s ∈ g.synapses) {i : Input}
    (hi : i ∈ s.inputs) : i.satisfied = false ∧ ∃ id, g.slotOf? id = some i.slot := by
  obtain ⟨sd, -, hsd⟩ := h.exists_document hs
  have hmem := List.mem_map_of_mem (f := fun i : Input => (some i.slot, i.satisfied)) hi
  rw [hsd.inputs] at hmem
  obtain ⟨id, -, heq⟩ := List.mem_map.mp hmem
  obtain ⟨hslot, hsat⟩ := Prod.ext_iff.mp heq
  exact ⟨hsat.symm, id, hslot⟩

theorem LoadedAs.wellFormed (h : d.LoadedAs g) : g.WellFormed where
  ids := h.ids
  owned := h.owned
  inputs s hs i hi := by
    obtain ⟨-, id, hslot⟩ := h.input hs hi
    obtain ⟨a, ha, -⟩ := Graph.exists_action_of_slotOf? hslot
    exact (List.getElem?_eq_some_iff.mp ha).1

end Loaded

end GraphDocument

/-- A graph on which nothing has happened yet. -/
structure Graph.Fresh (g : Graph) : Prop where
  actions : ∀ a ∈ g.actions, a.status = .pending ∧ a.counted = false
  synapses : ∀ s ∈ g.synapses, s.status = .unfired
  inputs : ∀ s ∈ g.synapses, ∀ i ∈ s.inputs, i.satisfied = false
  level : g.abortPriority = 0

theorem GraphDocument.LoadedAs.fresh {d : GraphDocument} {g : Graph} (h : d.LoadedAs g) :
    g.Fresh where
  actions a ha := by
    rw [h.actions] at ha
    obtain ⟨ad, -, rfl⟩ := List.mem_map.mp ha
    exact ⟨rfl, rfl⟩
  synapses s hs := by
    obtain ⟨sd, -, hsd⟩ := h.exists_document hs
    exact hsd.status
  inputs s hs i hi := (h.input hs hi).1
  level := by rw [h.settings]; rfl

end ClusterTransition
