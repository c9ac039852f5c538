import ClusterTransition.Proofs.Engine.Supervision

/-! # One transition after another

An engine that has left one graph for another may still hear of the first.  The key of a result
names its transition, and the engine notes with each fencing request for which transition it was
made; so results and outcomes of fencing that come late are refused (`Engine.processResult_refused`,
`Engine.fencingResult_refused`).

A timer is known by the id of its action alone, and a start of a transition leaves the timers as
they are.  If it expires late, the engine fails the action of the new graph that has this id and
whose result is open, even one that was not handed over yet (`Engine.undisturbed_timeout_iff`).
Transitions are kept apart just if no action of the new graph has the id of a timer that the old one
has left (`isolated_but_for_timers`).
-/

namespace ClusterTransition

open ClusterTransition.Graph (Edits)

/-! ## What may happen -/

/-- What can happen while the clock runs, and what else an engine can be told. -/
inductive Occurrence where
  | event (ev : Event)
  /-- The engine is told that an action is confirmed. -/
  | confirmed (id : ActionId)
  | requestPass
  /-- The request for a pass is taken back. -/
  | takePassRequest

namespace Occurrence

variable {ε : Type} {used : ε → Nat → Prop} (c : Cluster ε)

/-- What an occurrence does. -/
def make : Occurrence → Watch ε → Watch ε
  | event ev, w => ev.make c w
  | confirmed id, w =>
    { w with
      graph := (w.engine.actionConfirmed w.graph id).1
      engine := (w.engine.actionConfirmed w.graph id).2 }
  | requestPass, w => { w with engine := w.engine.requestPass }
  | takePassRequest, w => { w with engine := w.engine.takePassRequest.2 }

/-- What several occurrences do. -/
def makeAll (occurrences : List Occurrence) (w : Watch ε) : Watch ε :=
  occurrences.foldl (fun w o => o.make c w) w

theorem makeAll_append (before after : List Occurrence) (w : Watch ε) :
    makeAll c (before ++ after) w = makeAll c after (makeAll c before w) :=
  List.foldl_append

theorem plan_make (o : Occurrence) (w : Watch ε) : (o.make c w).graph.plan = w.graph.plan := by
  cases o with
  | event ev =>
    cases ev with
    | move m => exact m.plan c (w.graph, w.engine)
    | advance | expireNext => rfl
  | confirmed id => exact (Engine.actionConfirmed_edits w.engine w.graph id).plan
  | requestPass | takePassRequest => rfl

/-- **No occurrence makes two requests under one number.** -/
theorem renumbered_make {c : Cluster ε} (hc : c.NumbersOnce used) (o : Occurrence) (w : Watch ε) :
    Engine.Renumbered used w.engine (o.make c w).engine := by
  cases o with
  | event ev =>
    cases ev with
    | move m => exact m.renumbered hc (w.graph, w.engine)
    | advance | expireNext => exact .of_eq rfl rfl
  | confirmed id =>
    simp only [make, Engine.actionConfirmed, Engine.release]
    split
    · exact .refl _
    · split
      · exact .of_eq rfl rfl
      · exact .refl _
  | requestPass | takePassRequest => exact .of_eq rfl rfl

theorem plan_makeAll (occurrences : List Occurrence) (w : Watch ε) :
    (makeAll c occurrences w).graph.plan = w.graph.plan := by
  induction occurrences generalizing w with
  | nil => rfl
  | cons o occurrences ih => exact (ih (o.make c w)).trans (plan_make c o w)

theorem renumbered_makeAll {c : Cluster ε} (hc : c.NumbersOnce used)
    (occurrences : List Occurrence) (w : Watch ε) :
    Engine.Renumbered used w.engine (makeAll c occurrences w).engine := by
  induction occurrences generalizing w with
  | nil => exact .refl _
  | cons o occurrences ih => exact (renumbered_make hc o w).trans (ih (o.make c w))

end Occurrence

/-! ## Late events -/

/-- Nothing of the transition changes: neither the actions, nor the synapses, nor what is known
about its end, nor the job counts. -/
structure Undisturbed {ε : Type} (s s' : Graph × Engine ε) : Prop where
  actions : s'.1.actions = s.1.actions
  synapses : s'.1.synapses = s.1.synapses
  abortPriority : s'.1.abortPriority = s.1.abortPriority
  abortReason : s'.1.abortReason = s.1.abortReason
  completionAction : s'.1.completionAction = s.1.completionAction
  ledger : s'.2.ledger = s.2.ledger

theorem Undisturbed.of_eq {ε : Type} {s s' : Graph × Engine ε} (hgraph : s'.1 = s.1)
    (hledger : s'.2.ledger = s.2.ledger) : Undisturbed s s' :=
  ⟨by rw [hgraph], by rw [hgraph], by rw [hgraph], by rw [hgraph], by rw [hgraph], hledger⟩

namespace Watch

variable {ε : Type}

/-- The engine leaves its graph for another. -/
def startOn (w : Watch ε) (g : Graph) : Watch ε := ⟨g, w.engine.startTransition, w.due⟩

/-- The timer of the action has expired without a report, or it will when the clock runs. -/
def Leaves (w : Watch ε) (id : ActionId) : Prop :=
  id ∈ w.due ∨ id ∈ w.engine.timers.dueAt Duration.longest

end Watch

section Late

variable {ε : Type} (c : Cluster ε) (w₀ : Watch ε) (before : List Occurrence)

/-- What belongs to the transition of `w₀` and may be reported when `before` has happened to it. -/
inductive Late : Move → Prop where
  /-- A result whose key names the transition, if it can be read. -/
  | result {r : ActionResult} (hkey : ∀ key, TransitionKey.decode r.transitionKey = .ok key →
      key.transition = w₀.graph.id) : Late (.result r)
  /-- The outcome of a request that was made for the transition. -/
  | fencing {call : Nat} {fence : FenceCall} (n : Nat) (outcome : Except String Unit)
      (hget : (Occurrence.makeAll c (before.take n) w₀).engine.fenceCalls.get? call = some fence)
      (htransition : fence.transition = w₀.graph.id) : Late (.fencing call outcome)
  /-- The expiry of a timer. -/
  | timeout {id : ActionId} (hleft : (Occurrence.makeAll c before w₀).Leaves id) :
      Late (.timeout id)

/-- Nothing that belongs to the transition of `w₀` disturbs a later one on the graph `g`, whenever
it is reported. -/
def Isolated (g : Graph) : Prop :=
  ∀ m, Late c w₀ before m → ∀ after,
    let w := Occurrence.makeAll c after ((Occurrence.makeAll c before w₀).startOn g)
    Event.Possible w (.move m) → Undisturbed (w.graph, w.engine) (m.make c (w.graph, w.engine))

end Late

/-! ## Results and outcomes of fencing -/

namespace Engine

variable {ε : Type} {used : ε → Nat → Prop} {e e' : Engine ε} {g : Graph}

/-- **A result that does not name the transition is refused**, and changes nothing at all. -/
theorem processResult_refused {r : ActionResult}
    (h : ∀ key, TransitionKey.decode r.transitionKey = .ok key → key.transition ≠ g.id) :
    ∃ err, e.processResult g r = (.error err, g, e) := by
  cases hr : e.resultAction g r with
  | error err => exact ⟨err, by simp only [processResult, hr]⟩
  | ok found =>
    obtain ⟨hkey, -, htransition, -⟩ := resultAction_eq_ok_iff.mp hr
    exact absurd htransition (h _ hkey)

/-- **An outcome for another transition is refused**, and is forgotten. -/
theorem fencingResult_refused (c : Cluster ε) {call : Nat} (outcome : Except String Unit)
    (h : ∀ fence, e.fenceCalls.get? call = some fence → fence.transition ≠ g.id) :
    ∃ err fenceCalls, e.fencingResult c g call outcome =
      (.error err, g, { e with fenceCalls }) := by
  simp only [fencingResult]
  split
  · exact ⟨_, e.fenceCalls, rfl⟩
  · rename_i fence hget
    rw [if_pos (h fence hget)]
    exact ⟨_, _, rfl⟩

/-- The number was given to a fencing request, and if that is outstanding it is for the
transition. -/
def Assigned (used : ε → Nat → Prop) (call : Nat) (transition : Int) (e : Engine ε) : Prop :=
  used e.env call ∧ ∀ fence, e.fenceCalls.get? call = some fence → fence.transition = transition

/-- A number is not given again. -/
theorem Assigned.renumbered {call : Nat} {transition : Int} (h : e.Assigned used call transition)
    (hr : Renumbered used e e') : e'.Assigned used call transition := by
  refine ⟨hr.kept call h.1, fun fence hget => ?_⟩
  rcases hr.calls call fence hget with hold | ⟨hunused, -⟩
  · exact h.2 fence hold
  · exact absurd h.1 hunused

/-! ## Expiries -/

/-- An expiry fails an action whose result is open. -/
theorem statusAt_actionTimedOut (c : Cluster ε) {id : ActionId} {a : Action} {k : Nat}
    (hk : g.slotOf? id = some k) (ha : g.action? id = some a)
    (hopen : a.status.isConfirmed = false) :
    (e.actionTimedOut c g id).2.1.statusAt k = some (.failed .timedOut) := by
  have hget : g.statusAt k = some a.status := by
    rw [Graph.statusAt, ← Graph.action?_eq_getElem? hk, ha]
    rfl
  have hfailed : (g.failAction id .timedOut).2.statusAt k = some (.failed .timedOut) := by
    rw [Graph.failAction, Graph.statusAt_settle, if_pos hk, hget]
    simp [hopen]
  simp only [actionTimedOut, ha, hopen, Bool.false_eq_true, if_false]
  refine Edits.keeps_confirmed (finishAction_advances _ _ id).edits ?_ rfl
  split
  · exact Edits.keeps_confirmed (recordStatus_advances c e _ id _ _).edits hfailed rfl
  · exact hfailed

/-- **An expiry disturbs a transition just if there is an action with its id whose result is
open.** -/
theorem undisturbed_timeout_iff (c : Cluster ε) (s : Graph × Engine ε) (id : ActionId) :
    Undisturbed s ((Move.timeout id).make c s) ↔
      ∀ a, s.1.action? id = some a → a.status.isConfirmed = true := by
  constructor
  · intro h a ha
    by_contra hopen
    simp only [Bool.not_eq_true] at hopen
    obtain ⟨k, hk, hget, -⟩ := Graph.exists_slot_of_action? ha
    have hfailed := statusAt_actionTimedOut (e := s.2) c hk ha hopen
    have hsame : (s.2.actionTimedOut c s.1 id).2.1.statusAt k = s.1.statusAt k := by
      rw [Graph.statusAt, Graph.statusAt]
      exact congrArg (fun actions => (actions[k]?).map (·.status)) h.actions
    rw [hsame, Graph.statusAt_eq hget, Option.some.injEq] at hfailed
    rw [hfailed] at hopen
    cases hopen
  · intro h
    have hsame : (Move.timeout id).make c s = s := by
      simp only [Move.make, actionTimedOut]
      split
      · rfl
      · rename_i a ha
        rw [if_pos (h a ha)]
    rw [hsame]
    exact .of_eq rfl rfl

end Engine

/-! ## Transitions are kept apart -/

section Isolation

variable {ε : Type} {used : ε → Nat → Prop} {c : Cluster ε} {w₀ : Watch ε}
  {before : List Occurrence} {g : Graph}

/-- The graph is the one that was started on, as far as its plan goes. -/
theorem plan_startOn (w : Watch ε) (g : Graph) (after : List Occurrence) :
    (Occurrence.makeAll c after (w.startOn g)).graph.plan = g.plan :=
  Occurrence.plan_makeAll c after (w.startOn g)

/-- The number of a request that was made for a transition stays with it. -/
theorem assigned_of_fenceCalls (hc : c.NumbersOnce used) (hw₀ : w₀.engine.Numbered used)
    {n call : Nat} {fence : FenceCall}
    (hget : (Occurrence.makeAll c (before.take n) w₀).engine.fenceCalls.get? call = some fence)
    (htransition : fence.transition = w₀.graph.id) (after : List Occurrence) :
    (Occurrence.makeAll c after ((Occurrence.makeAll c before w₀).startOn g)).engine.Assigned used
      call w₀.graph.id := by
  have hmade : (Occurrence.makeAll c (before.take n) w₀).engine.Assigned used call
      w₀.graph.id := by
    refine ⟨(Occurrence.renumbered_makeAll hc (before.take n) w₀).numbered hw₀ call fence hget,
      fun fence' hget' => ?_⟩
    obtain rfl : fence = fence' := Option.some.inj (hget.symm.trans hget')
    exact htransition
  have hrest := Occurrence.renumbered_makeAll hc (before.drop n)
    (Occurrence.makeAll c (before.take n) w₀)
  rw [← Occurrence.makeAll_append, List.take_append_drop] at hrest
  have hstart : Engine.Renumbered used (Occurrence.makeAll c before w₀).engine
      ((Occurrence.makeAll c before w₀).startOn g).engine := .of_eq rfl rfl
  exact hmade.renumbered
    (hrest.trans (hstart.trans (Occurrence.renumbered_makeAll hc after _)))

/-- **Late results and outcomes of fencing disturb nothing.** -/
theorem Late.undisturbed (hc : c.NumbersOnce used) (hw₀ : w₀.engine.Numbered used)
    (hne : w₀.graph.id ≠ g.id) {m : Move} (h : Late c w₀ before m)
    (hm : ∀ id, m ≠ .timeout id) (after : List Occurrence) :
    let w := Occurrence.makeAll c after ((Occurrence.makeAll c before w₀).startOn g)
    Undisturbed (w.graph, w.engine) (m.make c (w.graph, w.engine)) := by
  intro w
  have hid : w.graph.id = g.id := Graph.id_of_plan (plan_startOn _ g after)
  cases h with
  | result hkey =>
    obtain ⟨err, hrefused⟩ := Engine.processResult_refused (e := w.engine) (g := w.graph)
      fun key hdecode => by rwa [hkey key hdecode, hid]
    simp only [Move.make, hrefused]
    exact .of_eq rfl rfl
  | fencing n outcome hget htransition =>
    have hassigned := assigned_of_fenceCalls (g := g) hc hw₀ hget htransition after
    obtain ⟨err, fenceCalls, hrefused⟩ := Engine.fencingResult_refused (e := w.engine)
      (g := w.graph) c outcome fun fence' hget' => by rwa [hassigned.2 fence' hget', hid]
    simp only [Move.make, hrefused]
    exact .of_eq rfl rfl
  | timeout => exact absurd rfl (hm _)

/-- A timer that was left expires, if it has not, once the clock has run long enough. -/
theorem exists_due_of_leaves {id : ActionId} (h : (Occurrence.makeAll c before w₀).Leaves id)
    (g : Graph) : ∃ after,
      let w := Occurrence.makeAll c after ((Occurrence.makeAll c before w₀).startOn g)
      w.graph = g ∧ id ∈ w.due := by
  rcases h with hdue | hlate
  · exact ⟨[], rfl, hdue⟩
  · refine ⟨[.event (.advance Duration.longest)], rfl, List.mem_append_right _ ?_⟩
    obtain ⟨deadline, hget, hle⟩ := (Timers.mem_dueAt _).mp hlate
    refine (Timers.mem_dueAt _).mpr ⟨deadline, hget, Nat.le_trans hle ?_⟩
    exact Nat.le_min.mpr ⟨Nat.le_add_left .., Nat.le_refl _⟩

end Isolation

/-- **An engine keeps its transitions apart, but for the timers.**  Let an engine go from one graph
to a loaded one with another id, in a cluster that never gives two fencing requests one number.
Then late results and late outcomes of fencing disturb the new transition at no time.  The expiry
of a timer disturbs it just if it has an action with the same id whose result is open.  So all that
belongs to the old transition leaves the new one alone, just if no action of the new graph has the
id of a timer that is left. -/
theorem isolated_but_for_timers {d : GraphDocument} {g : Graph} (h : d.toGraph = .ok g) {ε : Type}
    {used : ε → Nat → Prop} {c : Cluster ε} (hc : c.NumbersOnce used) {w₀ : Watch ε}
    (hw₀ : w₀.engine.Numbered used) (hne : w₀.graph.id ≠ g.id) (before : List Occurrence) :
    (∀ m, Late c w₀ before m → (∀ id, m ≠ .timeout id) → ∀ after,
      let w := Occurrence.makeAll c after ((Occurrence.makeAll c before w₀).startOn g)
      Undisturbed (w.graph, w.engine) (m.make c (w.graph, w.engine))) ∧
    (∀ after id,
      let w := Occurrence.makeAll c after ((Occurrence.makeAll c before w₀).startOn g)
      Undisturbed (w.graph, w.engine) ((Move.timeout id).make c (w.graph, w.engine)) ↔
        ∀ a, w.graph.action? id = some a → a.status.isConfirmed = true) ∧
    (Isolated c w₀ before g ↔
      ∀ id, (Occurrence.makeAll c before w₀).Leaves id → g.action? id = none) := by
  refine ⟨fun m hm hne' => hm.undisturbed hc hw₀ hne hne',
    fun after id => Engine.undisturbed_timeout_iff c _ id, fun hisolated id hleft => ?_,
    fun hfree m hm after hpossible => ?_⟩
  · -- the expiry finds the action as it was loaded
    obtain ⟨after, hgraph, hdue⟩ := exists_due_of_leaves hleft g
    have hkept := hisolated _ (.timeout hleft) after hdue
    rw [Engine.undisturbed_timeout_iff, hgraph] at hkept
    refine Option.eq_none_iff_forall_ne_some.mpr fun a ha => ?_
    have hfresh := (GraphDocument.loadedAs_of_toGraph h).fresh
    have hpending := (hfresh.actions a (List.mem_of_find?_eq_some ha)).1
    have hknown := hkept a ha
    rw [hpending] at hknown
    cases hknown
  · cases hm with
    | timeout hleft =>
      refine (Engine.undisturbed_timeout_iff c _ _).mpr fun a ha => ?_
      have hslot := Graph.action?_eq_none_iff.mp (hfree _ hleft)
      rw [← Graph.slotOf?_eq_of_plan (plan_startOn (c := c) _ g after)] at hslot
      rw [Graph.action?_eq_none_iff.mpr hslot] at ha
      cases ha
    | result hkey => exact (Late.result hkey).undisturbed hc hw₀ hne (by simp) after
    | fencing n outcome hget htransition =>
      exact (Late.fencing n outcome hget htransition).undisturbed hc hw₀ hne (by simp) after

/-! ### Runs -/

/-- A start that may take a second. -/
def GraphDocument.shortStart : GraphDocument where
  transitionId := 1
  synapses :=
    [{ id := 0
       actions :=
         [{ id := 1, kind := .resource, task := some "start", target := some "node1"
            timeout := some 1000 }] }]

/-- Two starts of the next transition, of which the second waits for the first. -/
def GraphDocument.nextStarts (first second : Int) : GraphDocument where
  transitionId := 2
  synapses :=
    [{ id := 0
       actions :=
         [{ id := first, kind := .resource, task := some "start", target := some "node2" }] },
     { id := 1
       actions :=
         [{ id := second, kind := .resource, task := some "start", target := some "node1" }]
       inputs := [first] }]

/-- The engine leaves the first start for other ones while its timer is armed. -/
theorem shortStart_isolated : ∃ g g', GraphDocument.shortStart.toGraph = .ok g ∧
    (GraphDocument.nextStarts 2 3).toGraph = .ok g' ∧ g.id ≠ g'.id ∧
    let w₀ : Watch Nat := ⟨g, Engine.new { node := "node1" } 0, []⟩
    (Occurrence.makeAll .willing [.event (.move .pass)] w₀).Leaves 1 ∧
      Isolated .willing w₀ [.event (.move .pass)] g' := by
  have hfacts : ∀ g, GraphDocument.shortStart.toGraph = .ok g →
      let w := Occurrence.makeAll .willing [.event (.move .pass)]
        (⟨g, Engine.new { node := "node1" } 0, []⟩ : Watch Nat)
      g.id = 1 ∧ w.due = [] ∧ w.engine.timers.dueAt Duration.longest = [1] := by
    rintro _ ⟨⟩
    decide +kernel
  have hnext : ∀ g, (GraphDocument.nextStarts 2 3).toGraph = .ok g →
      g.id = 2 ∧ g.action? 1 = none := by
    rintro _ ⟨⟩
    decide +kernel
  obtain ⟨g, hg⟩ : ∃ g, GraphDocument.shortStart.toGraph = .ok g := ⟨_, rfl⟩
  obtain ⟨g', hg'⟩ : ∃ g, (GraphDocument.nextStarts 2 3).toGraph = .ok g := ⟨_, rfl⟩
  obtain ⟨hid, hdue, hlate⟩ := hfacts g hg
  obtain ⟨hid', hfree⟩ := hnext g' hg'
  let w₀ : Watch Nat := ⟨g, Engine.new { node := "node1" } 0, []⟩
  have hne : w₀.graph.id ≠ g'.id := by
    rw [hid, hid']
    decide
  have hnumbered : w₀.engine.Numbered fun n call => call < n := by
    intro call fence hget
    cases hget
  have hparts := isolated_but_for_timers hg' Cluster.willing_numbersOnce hnumbered hne
    [.event (.move .pass)]
  refine ⟨g, g', hg, hg', hne, .inr (by rw [hlate]; simp), hparts.2.2.mpr fun id hleft => ?_⟩
  rcases hleft with hleft | hleft
  · rw [hdue] at hleft
    cases hleft
  · rw [hlate, List.mem_singleton] at hleft
    exact hleft ▸ hfree

/-- If the second of the other starts has the id of the first one, it fails with the old timer,
before it was handed over. -/
theorem shortStart_disturbs : ∃ g g', GraphDocument.shortStart.toGraph = .ok g ∧
    (GraphDocument.nextStarts 2 1).toGraph = .ok g' ∧ g.id ≠ g'.id ∧
    let w₀ : Watch Nat := ⟨g, Engine.new { node := "node1" } 0, []⟩
    let start := (Occurrence.makeAll .willing [.event (.move .pass)] w₀).startOn g'
    let w := Occurrence.makeAll .willing [.event (.move .pass), .event .expireNext] start
    w.due = [1] ∧ w.graph.actions.map (·.status) = [.executed, .pending] ∧
      ((Move.timeout 1).make .willing (w.graph, w.engine)).1.actions.map (·.status) =
        [.executed, .failed .timedOut] ∧
      ¬ Isolated .willing w₀ [.event (.move .pass)] g' := by
  have hfacts : ∀ g g', GraphDocument.shortStart.toGraph = .ok g →
      (GraphDocument.nextStarts 2 1).toGraph = .ok g' →
      let w₀ : Watch Nat := ⟨g, Engine.new { node := "node1" } 0, []⟩
      let left := Occurrence.makeAll .willing [.event (.move .pass)] w₀
      let w := Occurrence.makeAll .willing [.event (.move .pass), .event .expireNext]
        (left.startOn g')
      g.id ≠ g'.id ∧ left.engine.timers.dueAt Duration.longest = [1] ∧ w.due = [1] ∧
        w.graph.actions.map (·.status) = [.executed, .pending] ∧
        ((Move.timeout 1).make .willing (w.graph, w.engine)).1.actions.map (·.status) =
          [.executed, .failed .timedOut] := by
    rintro _ _ ⟨⟩ ⟨⟩
    decide +kernel
  obtain ⟨g, hg⟩ : ∃ g, GraphDocument.shortStart.toGraph = .ok g := ⟨_, rfl⟩
  obtain ⟨g', hg'⟩ : ∃ g, (GraphDocument.nextStarts 2 1).toGraph = .ok g := ⟨_, rfl⟩
  obtain ⟨hne, hlate, hdue, hbefore, hafter⟩ := hfacts g g' hg hg'
  refine ⟨g, g', hg, hg', hne, hdue, hbefore, hafter, fun hisolated => ?_⟩
  have hundisturbed := hisolated (.timeout 1) (.timeout (.inr (by rw [hlate]; simp)))
    [.event (.move .pass), .event .expireNext] (by simp [Event.Possible, hdue])
  have hsame := congrArg (List.map (·.status)) hundisturbed.actions
  rw [hbefore, hafter] at hsame
  cases hsame

end ClusterTransition
