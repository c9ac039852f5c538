import ClusterTransition.Proofs.Pass.Lockstep

/-! # The dispatch calls of a pass

To speak about the moments at which a pass calls its dispatcher, the dispatcher is made to keep a
record: for each call the channel, the id of the action and the graph that the call finds.  The
record only watches.  A pass with the recording dispatcher comes to the same result, graph and state
as one without (`run_recording`), so `Graph.calls` are the calls of the pass itself.

The moments at which a pass turns to a synapse need no record: `Graph.encountersOf` goes through the
visits as the pass does.
-/

namespace ClusterTransition

variable {σ : Type}

/-- A call of a dispatcher, with the graph that it finds. -/
structure DispatchCall where
  channel : Channel
  id : ActionId
  graph : Graph

namespace Dispatcher

/-- The dispatcher that keeps a record of its calls beside its state. -/
def recording (d : Dispatcher σ) : Dispatcher (σ × List DispatchCall) where
  dispatch channel id g st :=
    let out := d.dispatch channel id g st.1
    (out.1, out.2.1, out.2.2, st.2 ++ [⟨channel, id, g⟩])
  allowed id g st :=
    let out := d.allowed id g st.1
    (out.1, out.2, st.2)

/-- What a function of the pass answers, without the record. -/
def unrecorded {α : Type} (out : α × Graph × σ × List DispatchCall) : α × Graph × σ :=
  (out.1, out.2.1, out.2.2.1)

theorem Steady.recording {d : Dispatcher σ} (hd : d.Steady) : d.recording.Steady :=
  fun id g st => Prod.ext (hd id g st.1) rfl

end Dispatcher

/-- The two sides are the same but for the record. -/
def Unrecorded (s : Graph × σ) (s' : Graph × σ × List DispatchCall) : Prop := s = (s'.1, s'.2.1)

/-- **The record only watches**: a dispatcher and the one that keeps a record go in lockstep. -/
theorem Dispatcher.lockstep_recording (d : Dispatcher σ) : d.Lockstep d.recording Unrecorded where
  alike h := congrArg (·.1.unfiled) h
  edit _ h := by
    cases h
    rfl
  allowed id h := by
    cases h
    exact .intro _ rfl
  dispatch h _ _ _ := by
    cases h
    exact .intro _ rfl

namespace Graph

open Dispatcher (unrecorded)

variable (d : Dispatcher σ)

theorem visitAll_recording (positions : List Nat) (g : Graph) (st : σ × List DispatchCall) :
    visitAll d positions g st.1 =
      ((visitAll d.recording positions g st).1, (visitAll d.recording positions g st).2.1) :=
  d.lockstep_recording.visitAll (rfl : Unrecorded (g, st.1) (g, st)) positions

/-- A pass with the record is the pass without. -/
theorem run_recording (g : Graph) (st : σ × List DispatchCall) :
    g.run d st.1 = unrecorded (g.run d.recording st) := by
  obtain ⟨result, g₁, g₁', st₁, st₁', hrun, hrun', hsame⟩ :=
    (d.lockstep_recording.run (rfl : Unrecorded (g, st.1) (g, st))).exists_answer
  rw [hrun, hrun', hsame]
  rfl

/-- The calls of a pass, in order. -/
def calls (g : Graph) (st : σ) : List DispatchCall := (g.run d.recording (st, [])).2.2.2

/-- What the visits at the given positions come upon: each position, with the graph that its visit
finds. -/
def encounters : List Nat → Graph → σ → List (Nat × Graph)
  | [], _, _ => []
  | pos :: rest, g, st =>
    if g.batchFull then []
    else
      match g.synapses[pos]? with
      | none => encounters rest g st
      | some s =>
        (pos, g) :: encounters rest (visit d pos s g st).1 (visit d pos s g st).2

/-- What a pass comes upon. -/
def encountersOf (g : Graph) (st : σ) : List (Nat × Graph) :=
  encounters d (List.range g.synapses.length) g.started st

end Graph
end ClusterTransition
