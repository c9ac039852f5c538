import ClusterTransition.Proofs.Engine.Quiescence
import ClusterTransition.Proofs.Engine.Results
import ClusterTransition.Proofs.Pass.Skipping

/-! # Runs in which nothing goes wrong

An abort vetoes what is below its priority.  Other things raise the abort level too, but only along
with the failure of an action: one that ran, or one that could not be set going
(`Graph.HoldsOrFails`).  So in a run without aborts and failures the level stays at zero.

That does not keep a pass from skipping.  It compares priorities with the level and does not ask
whether there was an abort, and a document may have priorities below zero.  `skipped_iff_below_zero`
says that this is all: in a run in which nothing goes wrong, the skipped synapses are those with a
priority below zero that a pass has come upon with all their inputs satisfied, and which own more
than markers.
-/

namespace ClusterTransition

open ClusterTransition.Graph (Edits)

namespace Graph

/-- The abort level is `level`, or an action has failed. -/
def HoldsOrFails (level : Int) (g : Graph) : Prop := g.abortPriority = level ∨ ∃ k, g.FailedAt k

variable {g g' : Graph} {level : Int} {id : ActionId} {k : Nat}

theorem HoldsOrFails.of_keeps (h : g.HoldsOrFails level)
    (hlevel : g'.abortPriority = g.abortPriority)
    (hfailed : ∀ k, g.FailedAt k → g'.FailedAt k) : g'.HoldsOrFails level :=
  h.imp hlevel.trans fun ⟨k, hk⟩ => ⟨k, hfailed k hk⟩

/-- Edits leave what has failed. -/
theorem Edits.failedAt (h : Edits id g g') (hk : g.FailedAt k) : g'.FailedAt k := by
  obtain ⟨reason, hk⟩ := hk
  exact ⟨reason, h.keeps_confirmed hk rfl⟩

/-- A pending action that is handed over leaves what has failed. -/
theorem failedAt_mark {slot : Nat} (hpending : g.statusAt slot = some .pending)
    (hk : g.FailedAt k) : (g.setStatusAt slot .executed).FailedAt k := by
  obtain ⟨reason, hk⟩ := hk
  refine ⟨reason, ?_⟩
  rw [statusAt_setStatusAt, if_neg, hk]
  rintro rfl
  rw [hk] at hpending
  cases hpending

/-- The action fails that could not be set going. -/
theorem failedAt_failFiring {slot : Nat} (hslot : slot < g.actions.length) (pos : Nat) :
    (g.failFiring pos slot).FailedAt slot := by
  have hset := statusAt_setStatusAt g slot slot (.failed .initiation)
  rw [if_pos rfl, statusAt_eq (List.getElem?_eq_getElem hslot)] at hset
  exact ⟨.initiation, hset⟩

/-- The action fails that is settled as failed, if it had no result. -/
theorem failedAt_settle (hslot : g.slotOf? id = some k) {status : ActionStatus}
    (hstatus : g.statusAt k = some status) (hopen : status.isConfirmed = false)
    (reason : FailureKind) : (g.settle id (.failed reason)).2.FailedAt k := by
  have hset := statusAt_settle g id (.failed reason) k
  rw [if_pos hslot, hstatus, Option.map_some, hopen] at hset
  exact ⟨reason, hset⟩

/-- Where no action has failed, the level has stayed. -/
theorem HoldsOrFails.level_eq (h : g.HoldsOrFails level)
    (hunfailed : ∀ a ∈ g.actions, a.status.isFailed = false) : g.abortPriority = level := by
  refine h.resolve_right ?_
  rintro ⟨k, reason, hk⟩
  obtain ⟨a, ha, hfailed⟩ := Option.map_eq_some_iff.mp hk
  have := hunfailed a (List.mem_of_getElem? ha)
  rw [hfailed] at this
  cases this

end Graph

/-! ## Passes -/

/-- Where a dispatcher raises the abort level, the action that it carries out fails. -/
def Dispatcher.HoldsOrFails {σ : Type} (d : Dispatcher σ) : Prop :=
  ∀ (channel : Channel) (g : Graph) (st : σ) {id : ActionId} {slot : Nat},
    g.slotOf? id = some slot → g.statusAt slot = some .executed →
    (d.dispatch channel id g st).2.1.HoldsOrFails g.abortPriority

theorem Engine.dispatcher_holdsOrFails {ε : Type} (c : Cluster ε) : (dispatcher c).HoldsOrFails :=
  fun channel g e id _ _ _ =>
    .inl (Graph.abortPriority_of_advances (dispatcher_advances c channel id g e))

theorem Simulator.dispatcher_holdsOrFails : Simulator.dispatcher.HoldsOrFails := by
  intro channel g s id slot hslot hexec
  have hfinish : ((g.confirmAction id).2.update id).2.abortPriority = g.abortPriority :=
    (Graph.abortPriority_update ..).trans (Graph.abortPriority_settle ..)
  have hfails : (failGraph g id).FailedAt slot :=
    Graph.failedAt_settle hslot hexec rfl .execution
  simp only [dispatcher, execute]
  split
  · exact .inl rfl
  · split
    · exact .inl rfl
    · exact .inr ⟨slot, (Edits.finish (failGraph g id) rfl).failedAt hfails⟩
    all_goals exact .inl hfinish

section Pass

variable {σ : Type} {d : Dispatcher σ} {level : Int}

/-- **In every step of a pass the abort level stays, or an action has failed.** -/
theorem PassStep.holdsOrFails (hd : d.Handles) (hholds : d.HoldsOrFails) {x y : PassState σ}
    (hx : x.Orderly) (hlevel : x.graph.HoldsOrFails level) (h : PassStep d x y) :
    y.graph.HoldsOrFails level := by
  have hslot {g : Graph} {st : σ} {pos slot : Nat} {slots : List Nat}
      (hx : PassState.Orderly ⟨.firing pos (slot :: slots), g, st⟩) : slot < g.actions.length := by
    obtain ⟨-, -, s, hs, -, hsub⟩ := hx.firing pos _ rfl
    exact hx.wellFormed.slot_lt (List.mem_of_getElem? hs) (hsub (List.mem_cons_self ..))
  cases h with
  | count | ready | skip | fire | fired | conclude => exact hlevel.of_keeps rfl fun _ hk => hk
  | @dispatch g g' st st' pos slot slots a channel ha hpending hchannel hgoes =>
    obtain ⟨hid, -⟩ := hx.wellFormed.action?_setStatusAt ha .executed
    have hexec : (g.setStatusAt slot .executed).statusAt slot = some .executed :=
      Graph.statusAt_eq (Graph.getElem?_setStatusAt ha .executed)
    have hdone := hholds channel (g.setStatusAt slot .executed) st hid hexec
    rw [hgoes] at hdone
    rcases hlevel with hlevel | ⟨k, hk⟩
    · exact hlevel ▸ hdone
    · have hmark := Graph.failedAt_mark (hpending ▸ Graph.statusAt_eq ha) hk
      exact .inr ⟨k, (hd.edits hgoes).failedAt hmark⟩
  | @refuse g g' st st' pos slot slots a channel ha hpending hchannel hstays =>
    have hplan : g'.plan = g.plan := (hd.edits hstays).plan.trans (Graph.plan_setStatusAt ..)
    exact .inr ⟨slot, Graph.failedAt_failFiring
      (Graph.actions_length_of_plan hplan ▸ hslot hx) pos⟩
  | @unroutable g st pos slot =>
    have hplan : (g.setStatusAt slot .executed).plan = g.plan := Graph.plan_setStatusAt ..
    exact .inr ⟨slot, Graph.failedAt_failFiring
      (Graph.actions_length_of_plan hplan ▸ hslot hx) pos⟩
  | again st pos slots => exact .inr ⟨_, Graph.failedAt_failFiring (hslot hx) pos⟩

theorem Graph.run_holdsOrFails (hsteady : d.Steady) (hd : d.Handles) (hholds : d.HoldsOrFails)
    {g : Graph} (hw : g.WellFormed) (huntouched : g.Untouched) (st : σ) :
    (g.run d st).2.1.HoldsOrFails g.abortPriority :=
  (Graph.run_induction hsteady (P := fun x => x.Orderly ∧ x.graph.HoldsOrFails g.abortPriority)
    (fun _ _ hstep ⟨hx, hlevel⟩ => ⟨hx.step hd hstep, hstep.holdsOrFails hd hholds hx hlevel⟩)
    g st ⟨⟨hw, huntouched, by simp⟩, .inl rfl⟩).2

end Pass

/-! ## Reports -/

namespace Engine

variable {ε : Type} (c : Cluster ε)

theorem processResult_holdsOrFails (e : Engine ε) (g : Graph) (r : ActionResult) :
    (e.processResult g r).2.1.HoldsOrFails g.abortPriority := by
  simp only [processResult]
  split
  · exact .inl rfl
  · rename_i key a hfound
    split
    · exact .inl rfl
    · rename_i hopen
      have hgraph : Graph.HoldsOrFails g.abortPriority
          (if (resultFailed a key r && !a.canFail) = true then failExecuted g a.id "Event failed"
            else g) := by
        split
        · obtain ⟨k, hslot, hget⟩ := exists_slot_of_resultAction hfound
          have hfails : (failExecuted g a.id "Event failed").FailedAt k :=
            Graph.failedAt_settle hslot (Graph.statusAt_eq hget) (by simpa using hopen) .execution
          exact .inr ⟨k, hfails⟩
        · exact .inl rfl
      exact hgraph.of_keeps (abortPriority_finishAction ..)
        fun k hk => (finishAction_advances _ _ a.id).edits.failedAt hk

/-- The expiry of a timer fails an action without an abort. -/
theorem abortPriority_actionTimedOut (e : Engine ε) (g : Graph) (id : ActionId) :
    (e.actionTimedOut c g id).2.1.abortPriority = g.abortPriority := by
  simp only [actionTimedOut]
  split
  · rfl
  · split
    · rfl
    · refine (abortPriority_finishAction ..).trans
        (Eq.trans ?_ (Graph.abortPriority_settle g id (.failed .timedOut)))
      split
      · exact Graph.abortPriority_of_advances (recordStatus_advances c ..)
      · rfl

theorem abortPriority_completeFencing (e : Engine ε) (g : Graph) (calls : List (Nat × FenceCall)) :
    (e.completeFencing c g calls).1.abortPriority = g.abortPriority := by
  induction calls generalizing e g with
  | nil => rfl
  | cons head rest ih => exact (ih _ _).trans (abortPriority_finishAction ..)

end Engine

/-! ## Turns -/

namespace Turn

variable {ε : Type} (c : Cluster ε)

/-- Whether the turn asks for an abort by itself: it is one, or it takes in that a fencing request
has failed. -/
def aborts : Turn → Graph × Engine ε → Bool
  | move (.abort _ _ _), _ => true
  | move (.fencing call (.error reason)), (g, e) =>
    (e.fencingResult c g call (.error reason)).1.toBool
  | _, _ => false

/-- Nothing goes wrong in the turn: it asks for no abort, and no action has failed after it. -/
def Smooth (t : Turn) (s : Graph × Engine ε) : Prop :=
  t.aborts c s = false ∧ ∀ a ∈ (t.make c s).1.actions, a.status.isFailed = false

/-- Nothing goes wrong in the run. -/
def AllSmooth : List Turn → Graph × Engine ε → Prop
  | [], _ => True
  | t :: turns, s => t.Smooth c s ∧ AllSmooth turns (t.make c s)

instance (t : Turn) (s : Graph × Engine ε) : Decidable (t.Smooth c s) :=
  inferInstanceAs (Decidable (_ ∧ _))

instance decidableAllSmooth : (turns : List Turn) → (s : Graph × Engine ε) →
    Decidable (AllSmooth c turns s)
  | [], _ => .isTrue trivial
  | t :: turns, s =>
    have := decidableAllSmooth turns (t.make c s)
    inferInstanceAs (Decidable (t.Smooth c s ∧ AllSmooth c turns (t.make c s)))

variable {c} {s : Graph × Engine ε}

/-- **A turn that asks for no abort leaves the level, or an action has failed after it.** -/
theorem make_holdsOrFails {t : Turn} (ht : t.aborts c s = false) (hw : s.1.WellFormed)
    (huntouched : s.1.Untouched) : (t.make c s).1.HoldsOrFails s.1.abortPriority := by
  cases t with
  | confirmed id =>
    have hrelease := Graph.abortPriority_of_advances (Engine.release_advances s.2 s.1 id)
    exact .inl ((Graph.abortPriority_settle ..).trans hrelease)
  | dryPass st =>
    exact Graph.run_holdsOrFails Simulator.dispatcher_steady Simulator.dispatcher_handles
      Simulator.dispatcher_holdsOrFails hw huntouched st
  | move m =>
    cases m with
    | pass =>
      exact Graph.run_holdsOrFails (Engine.dispatcher_steady c) (Engine.dispatcher_handles c)
        (Engine.dispatcher_holdsOrFails c) hw huntouched s.2
    | result r => exact Engine.processResult_holdsOrFails s.2 s.1 r
    | timeout id => exact .inl (Engine.abortPriority_actionTimedOut c s.2 s.1 id)
    | fencing call outcome =>
      simp only [make, Move.make, Engine.fencingResult]
      split
      · exact .inl rfl
      · rename_i fence hcall
        split
        · exact .inl rfl
        · rename_i hcurrent
          cases outcome with
          | ok => exact .inl (Engine.abortPriority_finishAction ..)
          | error reason =>
            simp [aborts, Engine.fencingResult, hcall, hcurrent, Except.toBool] at ht
    | nodeSafe target =>
      refine .inl ?_
      simp only [make, Move.make, Engine.confirmNodeSafe]
      split
      · rfl
      · exact Engine.abortPriority_completeFencing c _ s.1 _
    | abort => cases ht

/-- A smooth turn asks for no priority. -/
theorem asked?_of_smooth {t : Turn} (ht : t.Smooth c s) : t.asked? = none := by
  cases t with
  | confirmed | dryPass => rfl
  | move m =>
    cases m with
    | pass | result | timeout | fencing | nodeSafe => rfl
    | abort => cases ht.1

/-- **Nothing that happens in a smooth run changes the abort level**, and what its passes come upon
has the same level. -/
theorem level_of_allSmooth {turns : List Turn} (hturns : AllSmooth c turns s)
    (hs : s.1.Governed) :
    (makeAll c turns s).1.abortPriority = s.1.abortPriority ∧
      ∀ p m, (p, m) ∈ allEncounters c turns s → m.abortPriority = s.1.abortPriority := by
  induction turns generalizing s with
  | nil => exact ⟨rfl, fun _ _ hm => nomatch hm⟩
  | cons t turns ih =>
    obtain ⟨hsmooth, hrest⟩ := hturns
    have hstays : (t.make c s).1.abortPriority = s.1.abortPriority :=
      (make_holdsOrFails hsmooth.1 hs.wellFormed hs.untouched).level_eq hsmooth.2
    have hnext : (t.make c s).1.Governed :=
      (hs.turn (c := c) (t := t) (by simp [asked?_of_smooth hsmooth])).1
    obtain ⟨hend, hmet⟩ := ih hrest hnext
    refine ⟨hend.trans hstays, fun p m hm => ?_⟩
    rcases List.mem_append.mp hm with hm | hm
    · rcases t.pass_or_reported c s with ⟨σ, d, st, hsteady, -, hraises, hmake, -, henc⟩ |
        ⟨-, -, henc⟩
      · rw [henc] at hm
        have hbetween := Graph.level_of_encounter hsteady hraises hs.ruled.bounded hm
        rw [← hmake, hstays] at hbetween
        omega
      · rw [henc] at hm
        cases hm
    · exact (hmet p m hm).trans hstays

/-- What a run comes upon has the plan of the graph with which it begins. -/
theorem plan_of_encounter {turns : List Turn} {p : Nat} {m : Graph}
    (hm : (p, m) ∈ allEncounters c turns s) : m.plan = s.1.plan := by
  induction turns generalizing s with
  | nil => cases hm
  | cons t turns ih =>
    rcases List.mem_append.mp hm with hm | hm
    · rcases t.pass_or_reported c s with ⟨σ, d, st, hsteady, hd, -, -, -, henc⟩ | ⟨-, -, henc⟩
      · exact Graph.plan_of_encounter hsteady hd (henc ▸ hm)
      · rw [henc] at hm
        cases hm
    · exact (ih hm).trans (t.plan_make s)

end Turn

/-! ## What is skipped -/

/-- No synapse that owns more than markers has a priority below zero. -/
def GraphDocument.NoneBelowZero (d : GraphDocument) : Prop :=
  ∀ s ∈ d.synapses, (∃ a ∈ s.actions, a.kind ≠ .pseudo) → 0 ≤ s.priority

/-- A loaded synapse that owns more than markers has no priority below zero if the document has
none. -/
theorem GraphDocument.LoadedAs.priority_nonneg {d : GraphDocument} {g : Graph} (h : d.LoadedAs g)
    (hd : d.NoneBelowZero) {t : Synapse} (ht : t ∈ g.synapses) {k : Nat} {a : Action}
    (hk : k ∈ t.actions) (ha : g.actions[k]? = some a) (hkind : a.isPseudo = false) :
    0 ≤ t.priority := by
  obtain ⟨s, hs, hloaded⟩ := h.exists_document ht
  rw [hloaded.priority]
  refine hd s hs ?_
  have hmem : a ∈ s.actions.map ActionDocument.toAction := by
    rw [← hloaded.filterMap_actions]
    exact List.mem_filterMap.mpr ⟨k, hk, ha⟩
  obtain ⟨ad, had, rfl⟩ := List.mem_map.mp hmem
  exact ⟨ad, had, of_decide_eq_false hkind⟩

/-- So no graph with its plan comes upon a synapse below zero exposed. -/
theorem GraphDocument.LoadedAs.nonneg_of_exposed {d : GraphDocument} {g m : Graph}
    (h : d.LoadedAs g) (hd : d.NoneBelowZero) (hplan : m.plan = g.plan) {p : Nat}
    (hexposed : m.Exposed p) {t : Synapse} (ht : g.synapses[p]? = some t) : 0 ≤ t.priority := by
  obtain ⟨s, hs, -, -, k, hk, a, ha, hkind⟩ := hexposed
  obtain ⟨u, hu, hsame⟩ := Graph.synapse_of_plan hplan hs
  obtain rfl : t = u := Option.some.inj (ht.symm.trans hu)
  obtain ⟨b, hb, hsame'⟩ := Graph.action_of_plan hplan ha
  have hkinds : a.isPseudo = b.isPseudo := show a.plan.isPseudo = b.plan.isPseudo by rw [hsame']
  exact h.priority_nonneg hd (List.mem_of_getElem? ht) (Synapse.actions_eq_of_plan hsame ▸ hk) hb
    (hkinds.symm.trans hkind)

/-- **What is skipped when nothing goes wrong.**  Take any graph of the loader and any run of turns
on it, passes with an engine or of dry runs, reports, confirmations, in which nothing asks for an
abort and no action fails.  A synapse is skipped in it exactly if its priority is below zero and
some pass came upon it exposed: it waited, all its inputs were satisfied, and it owns more than
markers.  So nothing is skipped if the document gives no such synapse a priority below zero. -/
theorem skipped_iff_below_zero {d : GraphDocument} {g : Graph} (h : d.toGraph = .ok g) {ε : Type}
    (c : Cluster ε) (e : Engine ε) {turns : List Turn}
    (hsmooth : Turn.AllSmooth c turns (g, e)) {g' : Graph} {e' : Engine ε}
    (hrun : Turn.makeAll c turns (g, e) = (g', e')) :
    (∀ p t, g'.synapses[p]? = some t →
      (t.status = .skipped ↔
        t.priority < 0 ∧ ∃ m, (p, m) ∈ Turn.allEncounters c turns (g, e) ∧ m.Exposed p)) ∧
    (d.NoneBelowZero → ∀ t ∈ g'.synapses, t.status ≠ .skipped) := by
  have hloaded := GraphDocument.loadedAs_of_toGraph h
  have hw := hloaded.wellFormed
  obtain ⟨-, hlevel⟩ := Turn.level_of_allSmooth hsmooth (hloaded.fresh.governed hw)
  rw [hloaded.fresh.level] at hlevel
  have hplan : g'.plan = g.plan := by
    have := Turn.plan_makeAll (c := c) turns (g, e)
    rwa [hrun] at this
  have hskips : ∀ p t, g'.synapses[p]? = some t →
      (t.status = .skipped ↔
        t.priority < 0 ∧ ∃ m, (p, m) ∈ Turn.allEncounters c turns (g, e) ∧ m.Exposed p) := by
    intro p t ht
    obtain ⟨u, hu, hsame⟩ := Graph.synapse_of_plan hplan ht
    have hfresh : u.status ≠ .skipped := by
      rw [hloaded.fresh.synapses u (List.mem_of_getElem? hu)]
      simp
    rw [Turn.skipped_iff (c := c) (s := (g, e)) turns hw hu (by rw [hrun]; exact ht),
      Synapse.priority_eq_of_plan hsame]
    constructor
    · intro hskipped
      obtain ⟨m, hm, hexposed, hbelow⟩ := hskipped.resolve_left hfresh
      rw [hlevel p m hm] at hbelow
      exact ⟨hbelow, m, hm, hexposed⟩
    · rintro ⟨hbelow, m, hm, hexposed⟩
      exact .inr ⟨m, hm, hexposed, by rwa [hlevel p m hm]⟩
  refine ⟨hskips, fun hnone t ht hskipped => ?_⟩
  obtain ⟨p, hp⟩ := List.getElem?_of_mem ht
  obtain ⟨hbelow, m, hm, hexposed⟩ := (hskips p t hp).mp hskipped
  obtain ⟨u, hu, hsame⟩ := Graph.synapse_of_plan hplan hp
  have hnonneg := hloaded.nonneg_of_exposed hnone (Turn.plan_of_encounter hm) hexposed hu
  rw [Synapse.priority_eq_of_plan hsame] at hbelow
  omega

/-- A marker and a start that waits for it, both with a priority below zero, and another start. -/
def GraphDocument.lowWork : GraphDocument where
  transitionId := 1
  synapses :=
    [{ id := 0, priority := -1, actions := [{ id := 1, kind := .pseudo }] },
     { id := 1, priority := -1
       actions := [{ id := 2, kind := .resource, task := some "start", target := some "node1" }]
       inputs := [1] },
     { id := 2
       actions := [{ id := 3, kind := .resource, task := some "start", target := some "node2" }] }]

/-- The marker fires, and the start that waits for it is skipped. -/
theorem lowWork_skipped : ∃ g, GraphDocument.lowWork.toGraph = .ok g ∧
    let s := (g, (Engine.new { node := "node1" } 0).startTransition)
    (Turn.makeAll .willing [.move .pass] s).1.synapses.map (·.status) =
        [.confirmed, .skipped, .executing] ∧
      ∃ m, (1, m) ∈ Turn.allEncounters .willing [.move .pass] s ∧ m.Exposed 1 := by
  have hfacts : ∀ g, GraphDocument.lowWork.toGraph = .ok g →
      let s := (g, (Engine.new { node := "node1" } 0).startTransition)
      Turn.AllSmooth .willing [.move .pass] s ∧
        (Turn.makeAll .willing [.move .pass] s).1.synapses.map (·.status) =
          [.confirmed, .skipped, .executing] := by
    rintro _ ⟨⟩
    decide +kernel
  obtain ⟨g, hg⟩ : ∃ g, GraphDocument.lowWork.toGraph = .ok g := ⟨_, rfl⟩
  obtain ⟨hsmooth, hstatuses⟩ := hfacts g hg
  have hpair : ∀ q : Graph × Engine Nat, q = (q.1, q.2) := fun _ => rfl
  have hskips := (skipped_iff_below_zero hg .willing
    (Engine.new { node := "node1" } 0).startTransition hsmooth (hpair _)).1
  refine ⟨g, hg, hstatuses, ?_⟩
  have hget := congrArg (fun l : List SynapseStatus => l[1]?) hstatuses
  simp only [List.getElem?_map, List.getElem?_cons_succ, List.getElem?_cons_zero] at hget
  obtain ⟨t, ht, hskipped⟩ := Option.map_eq_some_iff.mp hget
  exact ((hskips 1 t ht).mp hskipped).2

/-- No run of the document in which nothing goes wrong skips a synapse. -/
def GraphDocument.SkipsOnlyOnAbort (d : GraphDocument) : Prop :=
  ∀ g, d.toGraph = .ok g → ∀ (ε : Type) (c : Cluster ε) (e : Engine ε) (turns : List Turn),
    Turn.AllSmooth c turns (g, e) →
    ∀ t ∈ (Turn.makeAll c turns (g, e)).1.synapses, t.status ≠ .skipped

/-- The start with a priority below zero is skipped by the first pass, of an engine as of a dry run,
while the abort level is zero and no abort has given a reason. -/
theorem lowStart_skipped : (∃ g, GraphDocument.lowStart.toGraph = .ok g ∧
      let s := (g, (Engine.new { node := "node1" } 0).startTransition)
      ∀ t ∈ [Turn.move .pass, Turn.dryPass { options := {} }],
        Turn.AllSmooth .willing [t] s ∧
          let g' := (Turn.makeAll .willing [t] s).1
          g'.synapses.map (·.status) = [.skipped] ∧ g'.abortPriority = 0 ∧
            g'.abortReason = none) ∧
    ¬ GraphDocument.lowStart.SkipsOnlyOnAbort := by
  have hfacts : ∀ g, GraphDocument.lowStart.toGraph = .ok g →
      let s := (g, (Engine.new { node := "node1" } 0).startTransition)
      ∀ t ∈ [Turn.move .pass, Turn.dryPass { options := {} }],
        Turn.AllSmooth .willing [t] s ∧
          let g' := (Turn.makeAll .willing [t] s).1
          g'.synapses.map (·.status) = [.skipped] ∧ g'.abortPriority = 0 ∧
            g'.abortReason = none := by
    rintro _ ⟨⟩
    decide +kernel
  obtain ⟨g, hg⟩ : ∃ g, GraphDocument.lowStart.toGraph = .ok g := ⟨_, rfl⟩
  refine ⟨⟨g, hg, hfacts g hg⟩, fun hskips => ?_⟩
  obtain ⟨hsmooth, hstatuses, -⟩ := hfacts g hg _ (List.mem_cons_self ..)
  have hmem : SynapseStatus.skipped ∈ [SynapseStatus.skipped] := List.mem_cons_self ..
  rw [← hstatuses] at hmem
  obtain ⟨t, ht, hskipped⟩ := List.mem_map.mp hmem
  exact hskips g hg Nat .willing _ [.move .pass] hsmooth t ht hskipped

end ClusterTransition
