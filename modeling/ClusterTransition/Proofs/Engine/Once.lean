import ClusterTransition.Proofs.Pass.Firing

/-! # Nothing is handed over twice

Passes of an engine and of dry runs, reports with any contents, timeouts of any action and aborts
may follow one another on one graph in any order.  Whatever the order, no action is handed to a
dispatch handler twice, the calls for a synapse are the first of its actions in one pass, and no
synapse ever goes back (`handed_over_once`).

The reports cannot disturb this: all they do to the graph is edits on behalf of actions, which make
no synapse fire and no action pending.
-/

namespace ClusterTransition

/-- What can happen to a graph that an engine and dry runs share. -/
inductive Turn where
  | move (m : Move)
  /-- The engine is told that an action is confirmed. -/
  | confirmed (id : ActionId)
  /-- One pass of a dry run. -/
  | dryPass (s : Simulator)

namespace Turn

variable {ε : Type} (c : Cluster ε)

/-- What a turn does. -/
def make : Turn → Graph × Engine ε → Graph × Engine ε
  | move m, s => m.make c s
  | confirmed id, (g, e) => e.actionConfirmed g id
  | dryPass st, (g, e) => ((g.run Simulator.dispatcher st).2.1, e)

/-- What several turns do. -/
def makeAll (turns : List Turn) (s : Graph × Engine ε) : Graph × Engine ε :=
  turns.foldl (fun s t => t.make c s) s

/-- The dispatch calls of a turn. -/
def calls : Turn → Graph × Engine ε → List DispatchCall
  | move m, s => m.calls c s
  | confirmed _, _ => []
  | dryPass st, (g, _) => g.calls Simulator.dispatcher st

/-- What a turn comes upon. -/
def encounters : Turn → Graph × Engine ε → List (Nat × Graph)
  | move .pass, s => s.1.encountersOf (Engine.dispatcher c) s.2
  | dryPass st, s => s.1.encountersOf Simulator.dispatcher st
  | _, _ => []

/-- The ids of the dispatch calls, one list for each turn. -/
def log : List Turn → Graph × Engine ε → List (List ActionId)
  | [], _ => []
  | t :: turns, s => (t.calls c s).map (·.id) :: log turns (t.make c s)

/-- The graphs that the dispatch calls find and that the turns leave, in order. -/
def moments : List Turn → Graph × Engine ε → List Graph
  | [], _ => []
  | t :: turns, s =>
    (t.calls c s).map (·.graph) ++ (t.make c s).1 :: moments turns (t.make c s)

end Turn

/-- A graph after some turns, with the log of the calls and the moments so far. -/
structure Graph.HandedOver (g : Graph) (log : List (List ActionId)) (moments : List Graph) :
    Prop where
  wellFormed : g.WellFormed
  untouched : g.Untouched
  logged : g.Logged log none
  trail : g.Trail moments

namespace Graph.HandedOver

variable {g g' : Graph} {log : List (List ActionId)} {moments : List Graph}

theorem pass {σ : Type} {d : Dispatcher σ} (h : g.HandedOver log moments) (hsteady : d.Steady)
    (hd : d.Handles) (st : σ) :
    (g.run d st).2.1.HandedOver (log ++ [(g.calls d st).map (·.id)])
      (moments ++ ((g.calls d st).map (·.graph) ++ [(g.run d st).2.1])) := by
  obtain ⟨huntouched, hlogged⟩ := h.logged.run hsteady hd h.wellFormed h.untouched st
  have htrail := Graph.calls_trail hsteady hd h.trail h.wellFormed h.untouched st
  refine ⟨h.wellFormed.of_plan (Graph.plan_run hsteady hd g st), huntouched, hlogged, ?_⟩
  rw [← List.append_assoc]
  exact htrail.mark

theorem reported (h : g.HandedOver log moments) (hreported : Reported g g') :
    g'.HandedOver (log ++ [[]]) (moments ++ [g']) := by
  have honward : g.Onward g' := by
    induction hreported with
    | refl => exact .refl g
    | tail _ step ih =>
      obtain ⟨id, hedits⟩ := step
      exact ih.trans hedits.onward
  exact ⟨h.wellFormed.of_plan hreported.plan, h.untouched.reported hreported,
    (h.logged.reported hreported).next, (h.trail.onward honward).mark⟩

/-- **Every turn keeps the log and the way of the synapses.** -/
theorem turn {ε : Type} (c : Cluster ε) (t : Turn) {s : Graph × Engine ε}
    (h : s.1.HandedOver log moments) :
    (t.make c s).1.HandedOver (log ++ [(t.calls c s).map (·.id)])
      (moments ++ ((t.calls c s).map (·.graph) ++ [(t.make c s).1])) := by
  cases t with
  | move m =>
    by_cases hm : m = .pass
    · subst hm
      exact h.pass (Engine.dispatcher_steady c) (Engine.dispatcher_handles c) s.2
    · have hcalls : m.calls c s = [] := by
        cases m with
        | pass => exact absurd rfl hm
        | result | timeout | fencing | nodeSafe | abort => rfl
      have hend := h.reported (m.reported c hm s)
      simp only [Turn.calls, hcalls, Turn.make]
      exact hend
  | confirmed id =>
    exact h.reported (.single ⟨id, Engine.actionConfirmed_edits s.2 s.1 id⟩)
  | dryPass st => exact h.pass Simulator.dispatcher_steady Simulator.dispatcher_handles st

theorem turns {ε : Type} (c : Cluster ε) (turns : List Turn) {s : Graph × Engine ε}
    (h : s.1.HandedOver log moments) :
    (Turn.makeAll c turns s).1.HandedOver (log ++ Turn.log c turns s)
      (moments ++ Turn.moments c turns s) := by
  induction turns generalizing s log moments with
  | nil => simpa [Turn.makeAll, Turn.log, Turn.moments] using h
  | cons t turns ih => simpa [Turn.makeAll, Turn.log, Turn.moments] using ih (h.turn c t)

end Graph.HandedOver

/-- **Each action is handed over at most once, and synapses only go forward.**  Take any turns on a
graph of the loader: passes with an engine or of dry runs, reports, confirmations and aborts.  No
action is in two dispatch calls.  A synapse that has fired had its calls in one block of one turn,
for the first of its actions in their order, and for all of them unless the initiation of one
failed; one that has not fired had none.  And from each moment to every later one, each synapse has
gone forward: its rank is not lower, it was vetoed from the ranks 0 and 1 only, and vetoed for
good. -/
theorem handed_over_once {d : GraphDocument} {g : Graph} (h : d.toGraph = .ok g) {ε : Type}
    (c : Cluster ε) (e : Engine ε) (turns : List Turn) {g' : Graph} {e' : Engine ε}
    (hrun : Turn.makeAll c turns (g, e) = (g', e')) :
    (Turn.log c turns (g, e)).flatten.Nodup ∧
    (∀ s ∈ g'.synapses, s.status.isExecuted = true →
      ∃ block, block <+: g'.idsAt s.actions ∧
        OneBlock (g'.idsAt s.actions) block (Turn.log c turns (g, e)) ∧
        (block = g'.idsAt s.actions ∨
          ∃ k ∈ s.actions, g'.statusAt k = some (.failed .initiation))) ∧
    (∀ s ∈ g'.synapses, s.status.isExecuted = false →
      ∀ id ∈ g'.idsAt s.actions, id ∉ (Turn.log c turns (g, e)).flatten) ∧
    (g :: Turn.moments c turns (g, e)).Pairwise Graph.Onward := by
  have hloaded := GraphDocument.loadedAs_of_toGraph h
  have hstart : g.HandedOver [] [g] :=
    ⟨hloaded.wellFormed, hloaded.fresh.untouched, hloaded.fresh.logged,
      List.pairwise_pair.mpr (.refl g)⟩
  have hend := hstart.turns c turns (s := (g, e))
  rw [hrun, List.nil_append] at hend
  have hlogged : ∀ s ∈ g'.synapses, s.Logged g' (Turn.log c turns (g, e)) := by
    intro s hs
    obtain ⟨p, hp⟩ := List.getElem?_of_mem hs
    exact hend.logged.synapses p s hp (by simp)
  refine ⟨hend.logged.nodup, fun s hs hfired => ?_, fun s hs hidle => ?_, ?_⟩
  · have := hlogged s hs
    rwa [Synapse.Logged, if_pos hfired] at this
  · have := hlogged s hs
    rwa [Synapse.Logged, hidle, if_neg (by simp)] at this
  · exact (List.pairwise_append.mp hend.trail).1

/-- A marker with a start, and a start that waits for it. -/
def GraphDocument.markedStart : GraphDocument where
  transitionId := 1
  synapses :=
    [{ id := 0
       actions :=
         [{ id := 1, kind := .pseudo },
          { id := 2, kind := .resource, task := some "start", target := some "node1" }] },
     { id := 1
       actions := [{ id := 3, kind := .resource, task := some "start", target := some "node2" }]
       inputs := [2] }]

/-- A pass of an engine and the result of the start that it sends, a pass of a dry run, and reports
that come late. -/
def Turn.markedStart : List Turn :=
  [.move .pass,
    .move (.result
      { transitionKey := "2:1:0:6f1e8a52-7d0c-4c1b-9a3e-2b5d4c3a1f00", status := .done, rc := 0 }),
    .dryPass { options := {} }, .confirmed 2, .move (.timeout 3), .move .pass]

/-- The engine hands over the marker and the first start, and the dry run the other. -/
theorem markedStart_handed_over_once : ∃ g, GraphDocument.markedStart.toGraph = .ok g ∧
    let s := (g, (Engine.new { node := "node1" } 0).startTransition)
    Turn.log .willing Turn.markedStart s = [[1, 2], [], [3], [], [], []] ∧
      (Turn.log .willing Turn.markedStart s).flatten.Nodup ∧
      (g :: Turn.moments .willing Turn.markedStart s).Pairwise Graph.Onward := by
  have hlog : ∀ g, GraphDocument.markedStart.toGraph = .ok g →
      Turn.log .willing Turn.markedStart
        (g, (Engine.new { node := "node1" } 0).startTransition) =
          [[1, 2], [], [3], [], [], []] := by
    rintro _ ⟨⟩
    decide +kernel
  obtain ⟨g, hg⟩ : ∃ g, GraphDocument.markedStart.toGraph = .ok g := ⟨_, rfl⟩
  have hpair : ∀ p : Graph × Engine Nat, p = (p.1, p.2) := fun _ => rfl
  have honce := handed_over_once hg .willing (Engine.new { node := "node1" } 0).startTransition
    Turn.markedStart (hpair _)
  exact ⟨g, hg, hlog g hg, honce.1, honce.2.2.2⟩

end ClusterTransition
