import ClusterTransition.Proofs.Engine.Veto
import ClusterTransition.Proofs.Pass.Moments

/-! # Synapses in flight

The batch limit of a graph bounds the synapses that execute at once.  It does so at every moment of
a run, in the middle of a pass or of a report as well as between two turns
(`executing_within_batch`).  A pass counts what it finds executing and then what it fires; a report
can only bring synapses to an end.
-/

namespace ClusterTransition

namespace Turn

variable {ε : Type} (c : Cluster ε)

/-- The graph is `m` at some moment of the turns. -/
inductive Moment : List Turn → Graph × Engine ε → Graph → Prop where
  /-- Before a turn, or after the last one. -/
  | between (turns : List Turn) (s : Graph × Engine ε) : Moment turns s s.1
  | pass {turns : List Turn} {s : Graph × Engine ε} {m : Graph}
      (h : Graph.WhileRunning (Engine.dispatcher c) s.1 s.2 m) : Moment (.move .pass :: turns) s m
  | dryPass {turns : List Turn} {s : Graph × Engine ε} {st : Simulator} {m : Graph}
      (h : Graph.WhileRunning Simulator.dispatcher s.1 st m) : Moment (.dryPass st :: turns) s m
  /-- Some of the edits of a report are done, the others are still to come. -/
  | report {t : Turn} {turns : List Turn} {s : Graph × Engine ε} {m : Graph}
      (hdone : Graph.Reported s.1 m) (hleft : Graph.Reported m (t.make c s).1) :
      Moment (t :: turns) s m
  | later {t : Turn} {turns : List Turn} {s : Graph × Engine ε} {m : Graph}
      (h : Moment turns (t.make c s) m) : Moment (t :: turns) s m

end Turn

theorem Graph.Reported.calms {g g' : Graph} (h : Graph.Reported g g') : g.Calms g' := by
  refine ⟨Graph.synapses_length_of_plan h.plan, fun p s' hs' hexec => ?_⟩
  obtain ⟨s, hs, -, hstatus⟩ := h.absorbs hs'
  exact ⟨s, hs, hstatus.executing hexec⟩

/-- The graph keeps to a batch limit. -/
structure Graph.Within (limit : Int) (g : Graph) : Prop where
  wellFormed : g.WellFormed
  batchLimit : g.batchLimit = limit
  executing : (g.executing : Int) ≤ limit

namespace Graph.Within

variable {σ ε : Type} {limit : Int} {g g' m : Graph}

theorem running {d : Dispatcher σ} {st : σ} (hlimit : 0 < limit) (h : g.Within limit)
    (hsteady : d.Steady) (hd : d.Handles) (hm : WhileRunning d g st m) :
    (m.executing : Int) ≤ limit := by
  have hmoment := hm.within hsteady hd h.wellFormed (h.batchLimit ▸ hlimit)
    (h.batchLimit ▸ h.executing)
  rwa [h.batchLimit] at hmoment

theorem reported (h : g.Within limit) (hreported : Reported g g') : g'.Within limit := by
  have hcalm := hreported.calms.executing_le
  have hbefore := h.executing
  exact ⟨h.wellFormed.of_plan hreported.plan,
    (batchLimit_of_plan hreported.plan).trans h.batchLimit, by omega⟩

/-- A turn keeps to the batch limit. -/
theorem turn {c : Cluster ε} {t : Turn} {s : Graph × Engine ε} (hlimit : 0 < limit)
    (h : s.1.Within limit) : (t.make c s).1.Within limit := by
  rcases t.pass_or_reported c s with ⟨σ, d, st, hsteady, hd, -, hmake, -⟩ | ⟨hreported, -⟩
  · have hplan := plan_run hsteady hd s.1 st
    have hend := h.running hlimit hsteady hd (.inr (.inr rfl) : WhileRunning d s.1 st _)
    rw [hmake]
    exact ⟨h.wellFormed.of_plan hplan, (batchLimit_of_plan hplan).trans h.batchLimit, hend⟩
  · exact h.reported hreported

theorem moment {c : Cluster ε} {turns : List Turn} {s : Graph × Engine ε} (hlimit : 0 < limit)
    (h : s.1.Within limit) (hm : Turn.Moment c turns s m) : (m.executing : Int) ≤ limit := by
  induction hm with
  | between => exact h.executing
  | pass hm =>
    exact h.running hlimit (Engine.dispatcher_steady c) (Engine.dispatcher_handles c) hm
  | dryPass hm =>
    exact h.running hlimit Simulator.dispatcher_steady Simulator.dispatcher_handles hm
  | report hdone => exact (h.reported hdone).executing
  | later _ ih => exact ih (h.turn hlimit)

end Graph.Within

theorem Graph.Fresh.executing_eq_zero {g : Graph} (h : g.Fresh) : g.executing = 0 := by
  refine List.countP_eq_zero.mpr fun s hs => ?_
  simp [h.synapses s hs]

/-- **No more synapses execute at once than the batch limit allows**, at any moment of any turns:
passes with an engine or of dry runs, reports with any contents, timeouts, confirmations and aborts,
in any order.  The limit may come from the document or from the configuration. -/
theorem executing_within_batch {d : GraphDocument} {g : Graph}
    (h : d.toGraph = .ok g ∨ ∃ config, d.toGraphWith config = .ok g) (hlimit : 0 < g.batchLimit)
    {ε : Type} (c : Cluster ε) (e : Engine ε) (turns : List Turn) {m : Graph}
    (hm : Turn.Moment c turns (g, e) m) : (m.executing : Int) ≤ g.batchLimit := by
  have hstart : g.WellFormed ∧ g.executing = 0 := by
    rcases h with h | ⟨config, h⟩
    · have hloaded := GraphDocument.loadedAs_of_toGraph h
      exact ⟨hloaded.wellFormed, hloaded.fresh.executing_eq_zero⟩
    · -- the defaults of the configuration leave the synapses and the actions alone
      obtain ⟨g₀, h₀, rfl⟩ : ∃ g₀, d.toGraph = .ok g₀ ∧ config.applyDefaults g₀ d.overrides = g := by
        simp only [GraphDocument.toGraphWith] at h
        cases h₀ : d.toGraph with
        | error => simp [h₀, Except.map] at h
        | ok g₀ => exact ⟨g₀, rfl, by simpa [h₀, Except.map] using h⟩
      have hloaded := GraphDocument.loadedAs_of_toGraph h₀
      have hw := hloaded.wellFormed
      exact ⟨⟨hw.ids, hw.owned, hw.inputs⟩, hloaded.fresh.executing_eq_zero⟩
  obtain ⟨hw, hzero⟩ := hstart
  exact Graph.Within.moment hlimit ⟨hw, rfl, by simp only; omega⟩ hm

/-- Three starts that wait for nothing. -/
def GraphDocument.threeStarts : GraphDocument where
  transitionId := 1
  synapses := (List.range 3).map fun k =>
    { id := k
      actions := [{ id := k + 1, kind := .resource, task := some "start", target := some "node1" }] }

/-- Two passes with the result of the first start between them. -/
def Turn.passResultPass : List Turn :=
  [.move .pass,
    .move (.result
      { transitionKey := "1:1:0:6f1e8a52-7d0c-4c1b-9a3e-2b5d4c3a1f00", status := .done, rc := 0 }),
    .move .pass]

/-- Batches of two. -/
def EngineConfig.batchesOfTwo : EngineConfig where
  node := "node1"
  transition := { batchLimit := 2 }

/-- With batches of two the third start waits for the result of the first. -/
theorem threeStarts_within_batch :
    ∃ g, GraphDocument.threeStarts.toGraphWith .batchesOfTwo = .ok g ∧
      let start := (g, (Engine.new .batchesOfTwo 0).startTransition)
      g.batchLimit = 2 ∧
      (List.range 4).map (fun n =>
          (Turn.makeAll .willing (Turn.passResultPass.take n) start).1.executing) = [0, 2, 1, 2] ∧
      ∀ m, Turn.Moment .willing Turn.passResultPass start m → (m.executing : Int) ≤ g.batchLimit := by
  have hfacts : ∀ g, GraphDocument.threeStarts.toGraphWith .batchesOfTwo = .ok g →
      let start := (g, (Engine.new .batchesOfTwo 0).startTransition)
      g.batchLimit = 2 ∧
        (List.range 4).map (fun n =>
          (Turn.makeAll .willing (Turn.passResultPass.take n) start).1.executing) = [0, 2, 1, 2] := by
    rintro _ ⟨⟩
    decide +kernel
  obtain ⟨g, hg⟩ : ∃ g, GraphDocument.threeStarts.toGraphWith .batchesOfTwo = .ok g := ⟨_, rfl⟩
  obtain ⟨hlimit, hcounts⟩ := hfacts g hg
  refine ⟨g, hg, hlimit, hcounts, fun m hm => ?_⟩
  exact executing_within_batch (.inr ⟨_, hg⟩) (by omega) .willing
    (Engine.new .batchesOfTwo 0).startTransition Turn.passResultPass hm

end ClusterTransition
