import ClusterTransition.Proofs.Engine.Throttle
import ClusterTransition.Proofs.Pass.Visits

/-! # How a job limit breaks

A synapse that takes two slots of a node is let through when the node has one left, since its
actions are asked one by one before any of them is charged.  For any such synapse there is a
document with the same actions in which it fires in the first pass, over a limit of one job: the
other synapses wait for one of its actions (`GraphDocument.isolate`).

Within a pass the counts only rise, so what the synapse took is still charged when the pass ends.
-/

namespace ClusterTransition

/-! ## Firing a synapse takes its load -/

theorem load_le_fireActions {ε : Type} {c : Cluster ε} (hc : c.Accepts) {pos : Nat}
    {slots : List Nat} {g : Graph} {e : Engine ε}
    (hx : PassState.Exact ⟨.firing pos slots, g, e⟩)
    (hpending : ∀ k ∈ slots, g.statusAt k = some .pending) (node : String) :
    (e.ledger.get node).jobs + (g.loadAt slots node).jobs ≤
      ((Graph.fireActions (Engine.dispatcher c) pos slots g e).2.2.ledger.get node).jobs := by
  induction slots generalizing g e with
  | nil => simp [Graph.fireActions, Graph.loadAt]
  | cons slot slots ih =>
    obtain ⟨a, ha, hstatus⟩ := Option.map_eq_some_iff.mp (hpending slot (List.mem_cons_self ..))
    cases hd : a.dispatchable with
    | false =>
      -- nothing more is taken, and nothing is given back
      obtain ⟨⟨ok, g', e'⟩, hfire⟩ : ∃ out,
        Graph.fireActions (Engine.dispatcher c) pos (slot :: slots) g e = out := ⟨_, rfl⟩
      have hmono := ((PassSteps.ledger_le hx (Graph.fireActions_steps hfire)).2 node).1
      rw [Graph.loadAt_cons_of_not slots ha hd, hfire]
      simpa using hmono
    | true =>
      obtain ⟨channel, g', e', hchannel, hgoes, hfire⟩ :=
        Engine.fireActions_goes_on c hc hx.orderly.wellFormed e pos slots ha hstatus hd
      have hstep := PassStep.dispatch pos slots ha hstatus hchannel hgoes
      have hx' := hx.step c hstep
      have hedits := (Engine.dispatcher_handles c).edits hgoes
      have hplan := hedits.plan.trans (Graph.plan_setStatusAt ..)
      have hpending' : ∀ k ∈ slots, g'.statusAt k = some .pending := by
        intro k hk
        rw [hx.orderly.statusAt_rest ha hedits hk]
        exact hpending k (List.mem_cons_of_mem _ hk)
      have hload := ih hx' hpending'
      obtain ⟨-, htoll⟩ := Engine.dispatch_marked_ledger c hx.accounted hx.orderly.wellFormed ha
        hstatus hchannel hgoes
      rw [Graph.loadAt_of_plan hplan, htoll] at hload
      rw [hfire, Graph.loadAt_cons slots ha hd]
      dsimp only at hload ⊢
      omega

/-! ## A synapse that fires alone -/

/-- The synapse when it waits for the action `x` only. -/
def SynapseDocument.waitingFor (x : Int) (s : SynapseDocument) : SynapseDocument :=
  { s with inputs := [x] }

/-- A document in which the synapse `s` may fire at once, and the others wait for the action `x`. -/
def GraphDocument.isolate (before : List SynapseDocument) (s : SynapseDocument)
    (after : List SynapseDocument) (x : Int) : GraphDocument where
  transitionId := 0
  synapses := before.map (·.waitingFor x) ++
    { s with priority := 0, inputs := [] } :: after.map (·.waitingFor x)

/-- An engine that allows one job on each node. -/
def Engine.strict : Engine Nat :=
  .new { node := "node1", throttle := { defaultJobLimit := 1 } } 0

/-- A synapse with an input that is not marked is gone by. -/
theorem SynapseDocument.LoadedAs.passedBy {g : Graph} {s : SynapseDocument} {t : Synapse}
    (h : s.LoadedAs g t) (hinputs : s.inputs ≠ []) : t.PassedBy g.actions := by
  refine .inr (.inr ⟨.inl h.status, ?_⟩)
  obtain ⟨id, ids, hs⟩ := List.exists_cons_of_ne_nil hinputs
  have hmap := h.inputs
  cases ht : t.inputs with
  | nil => simp [ht, hs] at hmap
  | cons i rest =>
    simp only [ht, hs, List.map_cons, List.cons.injEq, Prod.mk.injEq] at hmap
    have hclosed : i.isOpen g.actions t.priority = false := by
      simp only [Input.isOpen, hmap.1.2]
      split <;> simp
    simp [Synapse.inputsSatisfied, ht, hclosed]

/-- Visiting a synapse whose actions are pending and may go takes its load, for good. -/
theorem load_le_visit {ε : Type} {c : Cluster ε} (hc : c.Accepts) {pos : Nat} {s : Synapse}
    {g : Graph} {e : Engine ε} (hx : PassState.Exact ⟨.visiting, g, e⟩)
    (hs : g.synapses[pos]? = some s) (hwaits : s.status = .unfired ∨ s.status = .ready)
    (hinputs : s.inputsSatisfied g.actions)
    (hpending : ∀ k ∈ s.actions, g.statusAt k = some .pending)
    (hlevel : g.abortPriority ≤ s.priority)
    (hallowed : ∀ a, e.ledger.mayFire e.jobLimit g a = true) (node : String) :
    PassState.Exact ⟨.visiting, (Graph.visit (Engine.dispatcher c) pos s g e).1,
        (Graph.visit (Engine.dispatcher c) pos s g e).2⟩ ∧
      (e.ledger.get node).jobs + (g.loadAt s.actions node).jobs ≤
        ((Graph.visit (Engine.dispatcher c) pos s g e).2.ledger.get node).jobs := by
  have hready := hx.step c (.ready e hs hwaits hinputs)
  have hs' := Graph.setSynapseStatus_getElem? hs .ready
  have hmay := Engine.allowed_of_mayFire c hready.orderly.wellFormed hlevel hallowed s.actions
  have hfiring := hready.step c (.fire e hs' rfl hinputs hmay)
  have hsteps := Graph.fireCounted_steps (Engine.dispatcher c) pos s.actions
    (g.setSynapseStatus pos .ready) e
  have htaken := load_le_fireActions hc hfiring hpending node
  rw [Graph.visit_fires (Engine.dispatcher_steady c) hwaits hinputs hmay]
  exact ⟨(PassSteps.ledger_le hfiring hsteps).1, htaken⟩

/-- A synapse that may fire at once, and comes after none of the kind, takes its load in the first
pass. -/
theorem load_le_pass_of_first {d : GraphDocument} {g : Graph} (h : d.toGraph = .ok g) {pos : Nat}
    {s : SynapseDocument} (hs : d.synapses[pos]? = some s) (hfree : s.inputs = [])
    (hpriority : s.priority = 0) (hbatch : d.batchLimit = none)
    (hothers : ∀ p < pos, ∀ s, d.synapses[p]? = some s → s.inputs ≠ []) (node : String) :
    (s.load node).jobs ≤
      ((Move.pass.make .willing (g, Engine.strict.startTransition)).2.ledger.get node).jobs := by
  have hloaded := GraphDocument.loadedAs_of_toGraph h
  have hfresh := hloaded.fresh
  have hsettled := Graph.settled_of_toGraph h Engine.strict
  obtain ⟨t, ht, hst⟩ := hloaded.exists_synapse_at hs
  have hroom : ({ g with counters := g.startCounters } : Graph).batchFull = false := by
    rw [hloaded.settings]
    simp [Graph.batchFull, GraphDocument.emptyGraph, hbatch]
  have hbefore : ∀ p < pos, ∀ t, g.synapses[p]? = some t → t.PassedBy g.actions := by
    intro p hp t ht
    obtain ⟨s, hs, hst⟩ := hloaded.exists_document_at ht
    exact hst.passedBy (hothers p hp s hs)
  obtain ⟨n, rest, -, -, hall⟩ := Graph.visitAll_reaches (d := Engine.dispatcher .willing)
    (g := { g with counters := g.startCounters }) ht hbefore hroom Engine.strict.startTransition
  -- what the visit takes
  have hinputs : t.inputsSatisfied g.actions = true := by
    have hnil : t.inputs = [] := by simpa [hfree] using hst.inputs
    simp [Synapse.inputsSatisfied, hnil]
  have hpending : ∀ k ∈ t.actions, g.statusAt k = some .pending := by
    intro k hk
    have hlt := hsettled.wellFormed.slot_lt (List.mem_of_getElem? ht) hk
    have := (hfresh.actions _ (List.getElem_mem hlt)).1
    simp [Graph.statusAt, hlt, this]
  have hexact : PassState.Exact ⟨.visiting,
      ({ g with counters := n } : Graph), Engine.strict.startTransition⟩ :=
    ⟨⟨hsettled.wellFormed.of_plan rfl, hsettled.untouched, by simp⟩,
      hsettled.accounted.of_actions rfl⟩
  have hidle : ∀ node, Engine.strict.startTransition.ledger.get node = {} :=
    fun _ => Ledger.get_reset ..
  have hlimit : ∀ node, 0 < Engine.strict.startTransition.jobLimit node := fun _ => Int.zero_lt_one
  have hlevel : g.abortPriority ≤ t.priority := by
    rw [hst.priority, hpriority]
    exact Int.le_of_eq hfresh.level
  obtain ⟨hexact', hvisit⟩ := load_le_visit Cluster.willing_accepts hexact ht (.inl hst.status)
    hinputs hpending hlevel (Ledger.mayFire_of_idle hidle hlimit _) node
  -- and the rest of the pass gives nothing back
  have hmono := ((PassSteps.ledger_le hexact'
    (Graph.visitAll_steps (Engine.dispatcher_steady .willing) rest _ _)).2 node).1
  have hend : (Move.pass.make .willing (g, Engine.strict.startTransition)).2.ledger =
      (Graph.visitAll (Engine.dispatcher .willing) (List.range g.synapses.length)
        { g with counters := g.startCounters } Engine.strict.startTransition).2.ledger := rfl
  have hload : (({ g with counters := n } : Graph).loadAt t.actions node) = s.load node :=
    hst.loadAt node
  rw [hidle, hload] at hvisit
  rw [hend, hall]
  dsimp only at hmono hvisit ⊢
  omega

/-! ## The exact condition -/

theorem GraphDocument.arena_eq_of_actions {d d' : GraphDocument}
    (h : d'.synapses.map (·.actions) = d.synapses.map (·.actions)) : d'.arena = d.arena := by
  simp only [arena, List.flatMap_def, h]

theorem GraphDocument.isolate_actions (before : List SynapseDocument) (s : SynapseDocument)
    (after : List SynapseDocument) (x : Int) :
    (isolate before s after x).synapses.map (·.actions) =
      (before ++ s :: after).map (·.actions) := by
  simp [isolate, SynapseDocument.waitingFor, Function.comp_def]

/-- A synapse that fires alone takes its load. -/
theorem load_le_isolated {d : GraphDocument} {g : Graph} (h : d.toGraph = .ok g)
    {before after : List SynapseDocument} {s : SynapseDocument}
    (hd : d.synapses = before ++ s :: after) {a : ActionDocument} (ha : a ∈ s.actions) :
    ∃ g', (GraphDocument.isolate before s after a.id).toGraph = .ok g' ∧ ∀ node,
      (s.load node).jobs ≤
        ((Move.pass.make .willing (g', Engine.strict.startTransition)).2.ledger.get node).jobs := by
  obtain ⟨hids, -⟩ := GraphDocument.exists_toGraph_iff.mp ⟨g, h⟩
  have harena : (GraphDocument.isolate before s after a.id).arena = d.arena :=
    GraphDocument.arena_eq_of_actions (by rw [GraphDocument.isolate_actions, hd])
  have hmem : a.id ∈ d.arena.map (·.id) := by
    refine List.mem_map_of_mem (List.mem_flatMap.mpr ⟨s, ?_, ha⟩)
    simp [hd]
  obtain ⟨g', hg'⟩ := GraphDocument.exists_toGraph_iff (d := .isolate before s after a.id).mpr
    ⟨harena ▸ hids, by
      intro t ht id hid
      rw [harena]
      simp only [GraphDocument.isolate, List.mem_append, List.mem_map, List.mem_cons] at ht
      rcases ht with ⟨u, -, rfl⟩ | rfl | ⟨u, -, rfl⟩
      · obtain rfl : id = a.id := by simpa [SynapseDocument.waitingFor] using hid
        exact hmem
      · simp at hid
      · obtain rfl : id = a.id := by simpa [SynapseDocument.waitingFor] using hid
        exact hmem⟩
  refine ⟨g', hg', fun node => ?_⟩
  have hs : (GraphDocument.isolate before s after a.id).synapses[before.length]? =
      some { s with priority := 0, inputs := [] } := by
    simp [GraphDocument.isolate]
  refine load_le_pass_of_first hg' hs rfl rfl rfl ?_ node
  intro p hp t ht
  rw [GraphDocument.isolate, List.getElem?_append_left (by simpa using hp), List.getElem?_map] at ht
  obtain ⟨u, -, rfl⟩ := Option.map_eq_some_iff.mp ht
  simp [SynapseDocument.waitingFor]

/-- **The limits hold exactly if no synapse takes more than one slot of a node**: whatever the
settings, the priorities and the inputs of the document, the limits of the engine, and the run. -/
theorem throttled_iff {d : GraphDocument} {g : Graph} (h : d.toGraph = .ok g) :
    (∀ d' : GraphDocument, d'.synapses.map (·.actions) = d.synapses.map (·.actions) →
      d'.KeepsLimits) ↔ ∀ s ∈ d.synapses, ∀ node, (s.load node).jobs ≤ 1 := by
  constructor
  · intro hkeeps s hs node
    obtain ⟨before, after, hd⟩ := List.append_of_mem hs
    cases hacts : s.actions with
    | nil => simp [SynapseDocument.load, hacts]
    | cons a as =>
      obtain ⟨g', hg', hload⟩ := load_le_isolated h hd (a := a) (by simp [hacts])
      have hcap := hkeeps (.isolate before s after a.id)
        (by rw [GraphDocument.isolate_actions, hd]) g' hg' Nat .willing Engine.strict [.pass] node
      have hlimit : max (Engine.strict.jobLimit node) 0 = 1 := rfl
      have := hload node
      rw [hlimit] at hcap
      exact Int.le_trans this hcap.1
  · intro hlight d' hd'
    refine GraphDocument.keepsLimits_of_load fun s' hs' node => ?_
    have hmem : s'.actions ∈ d.synapses.map (·.actions) := hd' ▸ List.mem_map_of_mem hs'
    obtain ⟨s, hs, heq⟩ := List.mem_map.mp hmem
    have := hlight s hs node
    rwa [SynapseDocument.load, heq] at this

/-- A single action takes at most one slot of a node, if it is no migration from the node to
itself. -/
theorem load_singleton_le {a : Action}
    (h : a.isMigration = true → a.migrateSource ≠ a.migrateTarget) (node : String) :
    (load [a] node).jobs ≤ 1 := by
  have hcharge : (a.charge node).jobs ≤ 1 := by
    simp only [Action.charge, Ledger.recordAction]
    split
    · simp
    · split
      · simp only [Ledger.get_record?]
        split <;> simp
      · split
        · rename_i hmigration
          simp only [Ledger.get_record?]
          by_cases hs : a.migrateSource = some node
          · have ht : a.migrateTarget ≠ some node := fun ht => h hmigration (hs.trans ht.symm)
            simp [hs, ht]
          · simp only [hs, if_false]
            split <;> simp
        · simp only [Ledger.get_record?]
          split <;> simp
  cases hd : a.dispatchable with
  | false => simp [load_cons_of_not hd]
  | true =>
    rw [load_cons hd, load_nil]
    simp only [Action.toll]
    split
    · simp
    · simpa using hcharge

/-- Two starts on one node, each in a synapse of its own. -/
def GraphDocument.startThenStart : GraphDocument where
  transitionId := 1
  synapses :=
    [{ id := 0
       actions := [{ id := 1, kind := .resource, task := some "start", target := some "node1" }] },
     { id := 1
       actions := [{ id := 2, kind := .resource, task := some "start", target := some "node1" }] }]

/-- Neither synapse takes more than one slot, so the second start waits for the first. -/
theorem startThenStart_throttled : (∃ g, GraphDocument.startThenStart.toGraph = .ok g) ∧
    GraphDocument.startThenStart.KeepsLimits := by
  refine ⟨⟨_, rfl⟩, (throttled_iff (d := .startThenStart) rfl).mpr (fun s hs node => ?_) _ rfl⟩
  simp only [GraphDocument.startThenStart, List.mem_cons, List.not_mem_nil, or_false] at hs
  obtain rfl | rfl := hs
  · exact load_singleton_le (by decide) node
  · exact load_singleton_le (by decide) node

/-- A start on a node, and a synapse with two more starts there. -/
def GraphDocument.startAndTwoStarts : GraphDocument where
  transitionId := 1
  synapses :=
    [{ id := 0
       actions := [{ id := 1, kind := .resource, task := some "start", target := some "node1" }] },
     { id := 1
       actions :=
         [{ id := 2, kind := .resource, task := some "start", target := some "node1" },
          { id := 3, kind := .resource, task := some "start", target := some "node1" }] }]

/-- An engine that allows two jobs on each node. -/
def Engine.pair : Engine Nat :=
  .new { node := "node1", throttle := { defaultJobLimit := 2 } } 0

/-- When the first start runs there is room for one of the other two, but both are let through. -/
theorem startAndTwoStarts_overloads : (∃ g, GraphDocument.startAndTwoStarts.toGraph = .ok g ∧
      Engine.pair.jobLimit "node1" = 2 ∧
      (Move.makeAll .willing [.pass] (g, Engine.pair.startTransition)).2.ledger.get "node1" =
        { jobs := 3 }) ∧
    ¬ GraphDocument.startAndTwoStarts.KeepsLimits := by
  refine ⟨⟨_, rfl, rfl, rfl⟩, fun hkeeps => ?_⟩
  have hcap := (hkeeps _ rfl Nat .willing Engine.pair [.pass] "node1").1
  exact absurd hcap (by decide)

end ClusterTransition
