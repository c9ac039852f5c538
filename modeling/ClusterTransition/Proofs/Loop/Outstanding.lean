import ClusterTransition.Proofs.Engine.Members
import ClusterTransition.Proofs.Loop.Passes
import ClusterTransition.Proofs.Pass.Visits

/-! # What the loop waits for

Whenever the loop waits for an event, some synapse executes, and each executing synapse that owns
actions waits for one that runs (`awaits_executed`).  In a document in which every synapse owns an
action the loop therefore never waits for nothing.

A synapse without actions is the exception.  Firing it leaves it executing, and it is confirmed only
in the wake of some other action that completes.  If there is none the loop waits for ever, whatever
happens (`Graph.Hung`, `emptySynapse_hangs`).
-/

namespace ClusterTransition

open ClusterTransition.Graph (Edits)

/-- If every synapse of the document owns an action, so does every synapse of the graph. -/
theorem GraphDocument.LoadedAs.owns {d : GraphDocument} {g g' : Graph} (h : d.LoadedAs g)
    (howns : ∀ s ∈ d.synapses, s.actions ≠ []) (hplan : g'.plan = g.plan) {s : Synapse}
    (hs : s ∈ g'.synapses) : s.actions ≠ [] := by
  obtain ⟨p, hp⟩ := List.getElem?_of_mem hs
  obtain ⟨s₀, hs₀, hsame⟩ := Graph.synapse_of_plan hplan hp
  obtain ⟨sd, hsd, hst⟩ := h.exists_document (List.mem_of_getElem? hs₀)
  intro hnil
  have hlength := congrArg List.length hst.actions
  rw [List.length_map, List.length_map, ← Synapse.actions_eq_of_plan hsame, hnil] at hlength
  exact howns sd hsd (List.length_eq_zero_iff.mp hlength.symm)

namespace TransitionLoop.Sound

variable {ε : Type} {g : Graph} {l : TransitionLoop ε}

/-- **The loop waits for an action that runs**, if every synapse owns an action. -/
theorem exists_executed (h : Sound g l) (hquiet : l.engine.passRequested = false)
    (howns : ∀ s ∈ l.graph.synapses, s.actions ≠ []) :
    ∃ a ∈ l.graph.actions, a.status = .executed := by
  obtain ⟨-, s, hs, hexec⟩ := h.quiet hquiet
  obtain ⟨k, -, hk⟩ := h.membership.exists_executed hs hexec (howns s hs)
  obtain ⟨a, ha, hstatus⟩ := Option.map_eq_some_iff.mp hk
  exact ⟨a, List.mem_of_getElem? ha, hstatus⟩

end TransitionLoop.Sound

/-- **The loop waits for synapses that execute**, and so for actions that run, but for synapses
without any.  Wherever the loop waits for an event some synapse executes, and each executing synapse
that owns actions owns one that runs.  If every synapse of the document owns an action, one runs. -/
theorem awaits_executed {d : GraphDocument} {g : Graph} (h : d.toGraph = .ok g) {ε : Type}
    (c : Cluster ε) (config : EngineConfig) (env : ε) (uuid : String) (events : List EngineEvent)
    {l : TransitionLoop ε}
    (hwaits : (TransitionLoop.new g config env uuid).run c events = .inr l) :
    (∃ s ∈ l.graph.synapses, s.status = .executing) ∧
      (∀ s ∈ l.graph.synapses, s.status = .executing → s.actions ≠ [] →
        ∃ k ∈ s.actions, l.graph.statusAt k = some .executed) ∧
      ((∀ s ∈ d.synapses, s.actions ≠ []) → ∃ a ∈ l.graph.actions, a.status = .executed) := by
  obtain ⟨hsound, hquiet⟩ := (TransitionLoop.sound_new h config env uuid).run hwaits
  refine ⟨(hsound.quiet hquiet).2, fun _ => hsound.membership.exists_executed, fun howns => ?_⟩
  have hloaded := GraphDocument.loadedAs_of_toGraph h
  exact hsound.exists_executed hquiet fun _ => hloaded.owns howns hsound.plan

/-- The loop waits for one of two starts. -/
theorem oneByOne_awaits : ∃ g l, GraphDocument.oneByOne.toGraph = .ok g ∧
    (TransitionLoop.new g { node := "node1" } 0).run .willing [] = .inr l ∧
    ∃ a ∈ l.graph.actions, a.status = .executed := by
  obtain ⟨g, l, hg, hl, -⟩ := oneByOne_run
  exact ⟨g, l, hg, hl, (awaits_executed hg .willing _ 0 _ [] hl).2.2 (by decide)⟩

/-- In every run in which the loop waits, it waits for an action that runs. -/
def GraphDocument.AwaitsActions (d : GraphDocument) : Prop :=
  ∀ g, d.toGraph = .ok g → ∀ (ε : Type) (c : Cluster ε) (config : EngineConfig) (env : ε)
    (uuid : String) (events : List EngineEvent) (l : TransitionLoop ε),
    (TransitionLoop.new g config env uuid).run c events = .inr l →
      ∃ a ∈ l.graph.actions, a.status = .executed

/-! ## Hung graphs -/

namespace Graph

/-- Nothing can come of the graph: all its synapses execute, and there is no action to complete. -/
structure Hung (g : Graph) : Prop where
  actions : g.actions = []
  synapses : g.synapses ≠ []
  executing : ∀ s ∈ g.synapses, s.status = .executing

variable {g g' : Graph}

theorem Hung.edits (h : g.Hung) {id : ActionId} (hedits : Edits id g g') : g'.Hung := by
  induction hedits with
  | refl => exact h
  | @tail g₁ g₂ _ step ih =>
    have hactions : g₂.actions = [] := by
      have hlength := actions_length_of_plan step.plan
      rwa [ih.actions, List.length_nil, List.length_eq_zero_iff] at hlength
    have hsynapses : g₂.synapses ≠ [] := by
      have hlength := synapses_length_of_plan step.plan
      exact fun hnil => ih.synapses (List.length_eq_zero_iff.mp (by rw [← hlength, hnil]; rfl))
    refine ⟨hactions, hsynapses, fun s' hs' => ?_⟩
    obtain ⟨p, hp⟩ := List.getElem?_of_mem hs'
    obtain ⟨s, hs, rfl | ⟨k, a, -, ha, -⟩⟩ := step.synapse hp
    · exact ih.executing _ (List.mem_of_getElem? hs)
    · rw [ih.actions] at ha
      cases ha

theorem Hung.reported (h : g.Hung) (hreported : Reported g g') : g'.Hung := by
  induction hreported with
  | refl => exact h
  | tail _ step ih => exact ih.edits step.choose_spec

/-- A pass over a hung graph answers that something is outstanding. -/
theorem Hung.run {σ : Type} {d : Dispatcher σ} (h : g.Hung) (st : σ) :
    (g.run d st).1 = .pending ∧ (g.run d st).2.1.Hung := by
  obtain ⟨n, hfired, hpending, hvisits⟩ := visitAll_passedBy (d := d) (g := g.started)
    (List.range g.synapses.length) (fun _ _ s hs => .inl (h.executing s (List.mem_of_getElem? hs)))
    st
  have hcount : n.pending ≠ 0 := by
    rw [hpending]
    obtain ⟨s, hs⟩ := List.exists_mem_of_ne_nil _ h.synapses
    exact Nat.ne_of_gt (List.countP_pos_iff.mpr ⟨s, hs, by simpa using h.executing s hs⟩)
  rw [run_of_visits hvisits]
  refine ⟨?_, ⟨h.actions, h.synapses, h.executing⟩⟩
  simp only [classify, hcount, false_and, if_false, hfired, started, startCounters, if_true]

end Graph

namespace TransitionLoop

variable {ε : Type} {c : Cluster ε} {l : TransitionLoop ε}

theorem hung_runRequested (n : Nat) (h : l.graph.Hung) :
    ∃ l', l.runRequested c n = (none, l') ∧ l'.graph.Hung := by
  induction n generalizing l with
  | zero => exact ⟨l, rfl, h⟩
  | succ n ih =>
    cases hrequested : l.engine.passRequested with
    | false => exact ⟨l, runRequested_idle _ hrequested, h⟩
    | true =>
      obtain ⟨⟨result, g, e⟩, hpass⟩ : ∃ out, l.graph.run (Engine.dispatcher c)
        { l.engine with passRequested := false } = out := ⟨_, rfl⟩
      obtain ⟨hresult, hhung⟩ := h.run (d := Engine.dispatcher c)
        { l.engine with passRequested := false }
      rw [hpass] at hresult hhung
      obtain rfl : result = .pending := hresult
      rw [runRequested_step n hrequested hpass]
      exact ih hhung

theorem hung_apply (h : l.graph.Hung) (event : EngineEvent) : (l.apply c event).graph.Hung := by
  obtain ⟨m, e, hm, -, hmade, -⟩ := l.exists_move_of_apply (c := c) event
  exact hmade ▸ h.reported (m.reported c hm (l.graph, e))

/-- **A loop that has hung waits for ever.** -/
theorem run_of_hung {l₁ : TransitionLoop ε} (hsettle : l.settle c = (none, l₁)) (h : l₁.graph.Hung)
    (events : List EngineEvent) : ∃ l', l.run c events = .inr l' ∧ l'.graph.Hung := by
  induction events generalizing l l₁ with
  | nil => exact ⟨l₁, by simp only [run, hsettle], h⟩
  | cons event events ih =>
    obtain ⟨l₂, hagain, hhung⟩ := hung_runRequested (c := c)
      ((l₁.apply c event).graph.actions.length + 2) (hung_apply h event)
    obtain ⟨l', hrun, hend⟩ := ih hagain hhung
    exact ⟨l', by simp only [run, hsettle, hrun], hend⟩

end TransitionLoop

/-- A synapse without actions, and nothing else. -/
def GraphDocument.emptySynapse : GraphDocument where
  transitionId := 1
  synapses := [{ id := 0 }]

/-- The first pass fires the synapse, which then executes for ever: the loop waits with no action to
wait for, and no event of any kind ends the transition. -/
theorem emptySynapse_hangs : (∃ g, GraphDocument.emptySynapse.toGraph = .ok g ∧
      ∀ (ε : Type) (c : Cluster ε) (config : EngineConfig) (env : ε) (uuid : String)
        (events : List EngineEvent),
        ∃ l, (TransitionLoop.new g config env uuid).run c events = .inr l ∧
          ∀ a ∈ l.graph.actions, a.status ≠ .executed) ∧
    ¬ GraphDocument.emptySynapse.AwaitsActions := by
  obtain ⟨g, hg, hsettles⟩ : ∃ g, GraphDocument.emptySynapse.toGraph = .ok g ∧
      ∀ (ε : Type) (c : Cluster ε) (config : EngineConfig) (env : ε) (uuid : String),
        ∃ l, (TransitionLoop.new g config env uuid).settle c = (none, l) ∧ l.graph.Hung := by
    exact ⟨_, rfl, fun ε c config env uuid =>
      ⟨_, rfl, rfl, List.cons_ne_nil _ _, List.forall_mem_singleton.mpr rfl⟩⟩
  have hhangs (ε : Type) (c : Cluster ε) (config : EngineConfig) (env : ε) (uuid : String)
      (events : List EngineEvent) :
      ∃ l, (TransitionLoop.new g config env uuid).run c events = .inr l ∧
        ∀ a ∈ l.graph.actions, a.status ≠ .executed := by
    obtain ⟨l₁, hsettle, hhung⟩ := hsettles ε c config env uuid
    obtain ⟨l, hrun, hend⟩ := TransitionLoop.run_of_hung hsettle hhung events
    refine ⟨l, hrun, fun a ha => ?_⟩
    rw [hend.actions] at ha
    cases ha
  refine ⟨⟨g, hg, hhangs⟩, fun hawaits => ?_⟩
  obtain ⟨l, hrun, hidle⟩ := hhangs Nat .willing { node := "node1" } 0 Engine.defaultUuid []
  obtain ⟨a, ha, hexec⟩ := hawaits g hg Nat .willing { node := "node1" } 0 _ [] l hrun
  exact hidle a ha hexec

end ClusterTransition
