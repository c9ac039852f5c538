import ClusterTransition.Document
import ClusterTransition.Proofs.Engine.Moves
import ClusterTransition.Proofs.Pass.Lockstep
import Mathlib.Data.List.Forall2

/-! # Failures that a dry run tolerates

An action that may fail is completed in a dry run whether it was made to fail or not; only the
report tells the difference.  So two dry runs whose options make the same of the other actions fail
go in lockstep (`Simulator.lockstep`): after each pass their graphs are equal, and their notes
differ at most in such outcomes.  At their end the reports differ in nothing else
(`simulate_tolerates`).

An action is selected by its id or by the key of its operation, which several actions may share.
Both belong to the plan of the graph, so what is selected does not change in the course of a run.
-/

namespace ClusterTransition

open ClusterTransition.Graph (Edits action_of_plan)

/-! ## What is made to fail -/

/-- The options ask the same of a dry run of the graph, but for actions that may fail. -/
structure SimulationOptions.AlikeOn (o : SimulationOptions) (g : Graph) (o' : SimulationOptions) :
    Prop where
  failDispatch : o.failDispatch = o'.failDispatch
  maxPasses : o.maxPasses = o'.maxPasses
  fail : ∀ a ∈ g.actions, a.isPseudo = false → a.canFail = false →
    Simulator.shouldFail o a = Simulator.shouldFail o' a

/-- The action was completed as if nothing had happened to it. -/
def SimOutcome.IsHarmless (outcome : SimOutcome) : Prop :=
  outcome = .confirmed ∨ outcome = .ignored

/-- The same entry, but that an action of the graph that may fail is confirmed in one where its
failure is ignored in the other. -/
def ExecutedAction.SameBut (g : Graph) (x y : ExecutedAction) : Prop :=
  x = y ∨ (∃ a ∈ g.actions, a.id = x.id ∧ a.canFail = true) ∧
    x.outcome.IsHarmless ∧ y.outcome.IsHarmless ∧ y = { x with outcome := y.outcome }

theorem SimOutcome.IsHarmless.isFailed {x : ExecutedAction} (h : x.outcome.IsHarmless) :
    x.isFailed = false := by
  rcases h with h | h <;> simp [ExecutedAction.isFailed, h]

/-- Lists of entries that are the same but for tolerated failures list the same failures. -/
theorem filter_isFailed_of_sameBut {g : Graph} {l l' : List ExecutedAction}
    (h : List.Forall₂ (ExecutedAction.SameBut g) l l') :
    l.filter (·.isFailed) = l'.filter (·.isFailed) := by
  induction h with
  | nil => rfl
  | cons hxy _ ih =>
    rcases hxy with rfl | ⟨-, hx, hy, -⟩
    · simp only [List.filter_cons, ih]
    · simp only [List.filter_cons, hx.isFailed, hy.isFailed, Bool.false_eq_true, if_false, ih]

namespace SimulationOptions.AlikeOn

variable {o o' : SimulationOptions} {g g' : Graph}

/-- What is selected by id or by key is part of the plan. -/
theorem of_plan (h : o.AlikeOn g o') (hplan : g'.plan = g.plan) : o.AlikeOn g' o' where
  failDispatch := h.failDispatch
  maxPasses := h.maxPasses
  fail a' ha' hpseudo hcanFail := by
    obtain ⟨k, hk⟩ := List.getElem?_of_mem ha'
    obtain ⟨a, ha, heq⟩ := action_of_plan hplan hk
    have hsame (options : SimulationOptions) :
        Simulator.shouldFail options a' = Simulator.shouldFail options a :=
      show Simulator.shouldFail options a'.plan = Simulator.shouldFail options a.plan by rw [heq]
    rw [hsame, hsame]
    refine h.fail a (List.mem_of_getElem? ha) ?_ ?_
    · exact (show a.plan.isPseudo = a'.plan.isPseudo by rw [heq]).trans hpseudo
    · exact (Action.canFail_eq_of_plan heq).symm.trans hcanFail

/-- An action comes to the same outcome under both options, unless its failure is tolerated. -/
theorem outcomeOf (h : o.AlikeOn g o') {a : Action} (ha : a ∈ g.actions) :
    Simulator.outcomeOf o a = Simulator.outcomeOf o' a ∨ a.canFail = true ∧
      (Simulator.outcomeOf o a).IsHarmless ∧ (Simulator.outcomeOf o' a).IsHarmless := by
  simp only [Simulator.outcomeOf, ← h.failDispatch]
  split
  · exact .inl rfl
  · cases hpseudo : a.isPseudo with
    | true => exact .inl rfl
    | false =>
      cases hcanFail : a.canFail with
      | false => exact .inl (by rw [h.fail a ha hpseudo hcanFail])
      | true =>
        have hharmless (selected : Bool) :
            (if (!false && selected) = true then if true = true then SimOutcome.ignored
              else .failed else .confirmed).IsHarmless := by
          cases selected
          · exact .inl rfl
          · exact .inr rfl
        exact .inr ⟨rfl, hharmless _, hharmless _⟩

end SimulationOptions.AlikeOn

/-! ## Executing an action -/

namespace Simulator

/-- What an outcome means for the graph, and whether the action was set going. -/
def apply (outcome : SimOutcome) (id : ActionId) (g : Graph) : Bool × Graph :=
  match outcome with
  | .notDispatched => (false, g)
  | .failed => (true, (((failGraph g id).confirmAction id).2.update id).2)
  | .confirmed | .ignored => (true, ((g.confirmAction id).2.update id).2)

theorem execute_eq_apply {id : ActionId} {g : Graph} {a : Action} (ha : g.action? id = some a)
    (st : Simulator) :
    execute id g st = ((apply (outcomeOf st.options a) id g).1,
      (apply (outcomeOf st.options a) id g).2, st.log a (outcomeOf st.options a)) := by
  simp only [execute, ha]
  cases outcomeOf st.options a <;> rfl

theorem apply_of_isHarmless {outcome : SimOutcome} (h : outcome.IsHarmless) (id : ActionId)
    (g : Graph) : apply outcome id g = (true, ((g.confirmAction id).2.update id).2) := by
  rcases h with rfl | rfl <;> rfl

/-! ## Two dry runs -/

/-- Two dry runs of the graph `g₀` are at the same point, with notes that are the same but for
tolerated failures. -/
structure Abreast (g₀ : Graph) (o o' : SimulationOptions) (s s' : Graph × Simulator) : Prop where
  graph : s.1 = s'.1
  plan : s.1.plan = g₀.plan
  options : s.2.options = o
  options' : s'.2.options = o'
  pass : s.2.pass = s'.2.pass
  executed : List.Forall₂ (ExecutedAction.SameBut g₀) s.2.executed s'.2.executed

variable {g₀ g g' : Graph} {o o' : SimulationOptions} {st st' : Simulator}

/-- Both notes are about the same action, with outcomes that differ in a tolerated failure only. -/
theorem Abreast.log (h : Abreast g₀ o o' (g, st) (g', st')) {a : Action} (ha : a ∈ g.actions)
    {outcome outcome' : SimOutcome} (hsame : outcome = outcome' ∨ a.canFail = true ∧
      outcome.IsHarmless ∧ outcome'.IsHarmless) :
    List.Forall₂ (ExecutedAction.SameBut g₀) (st.log a outcome).executed
      (st'.log a outcome').executed := by
  have hpass : st.pass = st'.pass := h.pass
  refine List.rel_append h.executed (.cons ?_ .nil)
  rcases hsame with rfl | ⟨hcanFail, hharmless, hharmless'⟩
  · exact .inl (by rw [hpass])
  · obtain ⟨k, hk⟩ := List.getElem?_of_mem ha
    obtain ⟨b, hb, heq⟩ := action_of_plan h.plan hk
    have hid : b.id = a.id := show b.plan.id = a.plan.id by rw [heq]
    refine .inr ⟨⟨b, List.mem_of_getElem? hb, hid, ?_⟩, hharmless, hharmless', by rw [hpass]⟩
    exact (Action.canFail_eq_of_plan heq).symm.trans hcanFail

/-- **Executing an action leaves the dry runs abreast.** -/
theorem Abreast.execute (h : Abreast g₀ o o' (g, st) (g', st')) (ho : o.AlikeOn g₀ o')
    (id : ActionId) : Agree (Abreast g₀ o o') (execute id g st) (execute id g' st') := by
  obtain rfl : g = g' := h.graph
  have hplan : (Simulator.execute id g st).2.1.plan = g.plan :=
    (dispatcher_handles .resource id g st).plan
  cases ha : g.action? id with
  | none =>
    simp only [Simulator.execute, ha]
    exact .intro _ h
  | some a =>
    have hmem : a ∈ g.actions := List.mem_of_find?_eq_some ha
    have hsame := (ho.of_plan h.plan).outcomeOf hmem
    have happly : apply (outcomeOf o' a) id g = apply (outcomeOf o a) id g := by
      rcases hsame with heq | ⟨-, hharmless, hharmless'⟩
      · rw [heq]
      · rw [apply_of_isHarmless hharmless, apply_of_isHarmless hharmless']
    have hoptions : st.options = o := h.options
    have hoptions' : st'.options = o' := h.options'
    rw [execute_eq_apply ha, hoptions] at hplan ⊢
    rw [execute_eq_apply ha, hoptions', happly]
    exact .intro _ ⟨rfl, hplan.trans h.plan, h.options, h.options', h.pass, h.log hmem hsame⟩

/-- **Dry runs that differ in tolerated failures only go in lockstep.** -/
theorem lockstep (ho : o.AlikeOn g₀ o') : dispatcher.Lockstep dispatcher (Abreast g₀ o o') where
  alike h := congrArg Graph.unfiled h.graph
  edit hedit h := by
    obtain rfl := h.graph
    exact ⟨rfl, hedit.plan.trans h.plan, h.options, h.options', h.pass, h.executed⟩
  allowed _ h := .intro _ h
  dispatch := by
    intro g g' st st' slot a channel h ha hpending _
    obtain rfl : g = g' := h.graph
    have hstart : Abreast g₀ o o' (g.setStatusAt slot .executed, st)
        (g.setStatusAt slot .executed, st') :=
      ⟨rfl, (Graph.plan_setStatusAt ..).trans h.plan, h.options, h.options', h.pass, h.executed⟩
    exact hstart.execute ho a.id

theorem Abreast.passes (h : Abreast g₀ o o' (g, st) (g', st')) (ho : o.AlikeOn g₀ o') (n : Nat)
    (result : PassResult) :
    Agree (Abreast g₀ o o') (passes n result g st) (passes n result g' st') := by
  induction n generalizing result g g' st st' with
  | zero => exact .intro _ h
  | succ n ih =>
    have hnext : Abreast g₀ o o' (g, { st with pass := st.pass + 1 })
        (g', { st' with pass := st'.pass + 1 }) :=
      ⟨h.graph, h.plan, h.options, h.options', congrArg (· + 1) h.pass, h.executed⟩
    obtain ⟨result, g₁, g₁', st₁, st₁', hrun, hrun', h₁⟩ :=
      ((lockstep ho).run hnext).exists_answer
    simp only [Simulator.passes, hrun, hrun']
    split
    · exact .intro _ h₁
    · exact ih h₁ result

end Simulator

/-- **A tolerated failure changes nothing but its own entry in the report.**  Take two dry runs of a
graph with equal bounds on the passes and with the same actions that cannot be dispatched, where of
the actions that may not fail, markers apart, both select the same to fail.  They leave the same
graph, and their reports are equal but for the outcomes of executed actions that may fail: one may
have confirmed an action where the other has ignored its failure.  So the reports list the same
failures. -/
theorem simulate_tolerates {g : Graph} {o o' : SimulationOptions} (h : o.AlikeOn g o') :
    (simulate o g).2 = (simulate o' g).2 ∧
    { (simulate o g).1 with executed := [] } = { (simulate o' g).1 with executed := [] } ∧
    List.Forall₂ (ExecutedAction.SameBut g) (simulate o g).1.executed
      (simulate o' g).1.executed ∧
    (simulate o g).1.failed = (simulate o' g).1.failed := by
  have hstart : Simulator.Abreast g o o' (g, { options := o }) (g, { options := o' }) :=
    ⟨rfl, rfl, rfl, rfl, rfl, .nil⟩
  obtain ⟨result, g₁, g₁', st, st', hpasses, hpasses', hend⟩ :=
    (hstart.passes h o.maxPasses .pending).exists_answer
  obtain rfl : g₁ = g₁' := hend.graph
  have hpass : st.pass = st'.pass := hend.pass
  simp only [simulate, ← h.maxPasses, hpasses, hpasses', hpass, SimulationReport.failed,
    true_and]
  exact ⟨hend.executed, filter_isFailed_of_sameBut hend.executed⟩

/-- A stop and a start that may fail, a stop that may not, and a start that waits for the first two.
The stops share a key. -/
def GraphDocument.sharedKey : GraphDocument where
  transitionId := 1
  synapses :=
    [{ id := 0
       actions :=
         [{ id := 1, kind := .resource, task := some "stop", key := some "stop_0"
            target := some "node1", canFail := true },
          { id := 2, kind := .resource, task := some "start", target := some "node1"
            canFail := true }] },
     { id := 1
       actions :=
         [{ id := 3, kind := .resource, task := some "start", target := some "node2" }]
       inputs := [1, 2] },
     { id := 2
       actions :=
         [{ id := 4, kind := .resource, task := some "stop", key := some "stop_0"
            target := some "node2" }]
       inputs := [3] }]

/-- The key selects a stop that may fail and one that may not, the id the second of them only. -/
theorem sharedKey_tolerates : ∃ g, GraphDocument.sharedKey.toGraph = .ok g ∧
    let o : SimulationOptions := { fail := ["stop_0"] }
    let o' : SimulationOptions := { fail := ["2", "4"] }
    o.AlikeOn g o' ∧ (simulate o g).2 = (simulate o' g).2 ∧
      (simulate o g).1.failed = (simulate o' g).1.failed ∧
      (simulate o g).1.executed.map (fun x => (x.id, x.outcome)) =
        [(1, .ignored), (2, .confirmed), (3, .confirmed), (4, .failed)] ∧
      (simulate o' g).1.executed.map (fun x => (x.id, x.outcome)) =
        [(1, .confirmed), (2, .ignored), (3, .confirmed), (4, .failed)] := by
  have hfacts : ∀ g, GraphDocument.sharedKey.toGraph = .ok g →
      let o : SimulationOptions := { fail := ["stop_0"] }
      let o' : SimulationOptions := { fail := ["2", "4"] }
      (∀ a ∈ g.actions, a.isPseudo = false → a.canFail = false →
        Simulator.shouldFail o a = Simulator.shouldFail o' a) ∧
      (simulate o g).1.executed.map (fun x => (x.id, x.outcome)) =
        [(1, .ignored), (2, .confirmed), (3, .confirmed), (4, .failed)] ∧
      (simulate o' g).1.executed.map (fun x => (x.id, x.outcome)) =
        [(1, .confirmed), (2, .ignored), (3, .confirmed), (4, .failed)] := by
    rintro _ ⟨⟩
    decide +kernel
  obtain ⟨g, hg⟩ : ∃ g, GraphDocument.sharedKey.toGraph = .ok g := ⟨_, rfl⟩
  obtain ⟨hfail, hexecuted, hexecuted'⟩ := hfacts g hg
  have halike : SimulationOptions.AlikeOn { fail := ["stop_0"] } g { fail := ["2", "4"] } :=
    ⟨rfl, rfl, hfail⟩
  obtain ⟨hgraph, -, -, hfailed⟩ := simulate_tolerates halike
  exact ⟨g, hg, halike, hgraph, hfailed, hexecuted, hexecuted'⟩

end ClusterTransition
