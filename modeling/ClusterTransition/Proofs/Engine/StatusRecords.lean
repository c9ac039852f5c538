import ClusterTransition.Proofs.Document.Loading
import ClusterTransition.Proofs.Engine.Filing
import ClusterTransition.Proofs.Engine.Isolation
import ClusterTransition.Proofs.Engine.Once
import Mathlib.Data.List.Induction

/-! # The records of an action

An engine offers records of an action to the status store when it has sent it and when its timer
expires, and the store may refuse any of them.  An action is handed over at most once, and its timer
is heard at most once, since its result is known afterwards; so there are at most two calls, of
which the second is made only if the first was refused.  `Graph.Filed` is the invariant behind this:
the status of an action bounds the calls that were made for it.

The answers of the store have no effect but the notes on the actions: whatever they are, the graph
and the engine come to the same (`Filing.turns`).  Both together are `recorded_once`.
-/

namespace ClusterTransition

open ClusterTransition.Graph (Edits exists_slot_of_action?)

/-! ## Calls of the store -/

/-- How many calls there may have been for an action with this status. -/
def ActionStatus.callBound : ActionStatus → Nat
  | pending => 0
  | executed => 1
  | confirmed | failed _ => 2

namespace ActionStatus

variable {s : ActionStatus}

theorem callBound_le (s : ActionStatus) : s.callBound ≤ 2 := by
  cases s <;> simp [callBound]

theorem callBound_of_isConfirmed (h : s.isConfirmed = true) : s.callBound = 2 := by
  cases s with
  | confirmed | failed => rfl
  | pending | executed => cases h

theorem callBound_le_one_of_open (h : s.isConfirmed = false) : s.callBound ≤ 1 := by
  cases s with
  | pending | executed => decide
  | confirmed | failed => cases h

end ActionStatus

/-- An engine may make the call after those of the list: the store has no record of the action, and
a record of a timeout is about an operation on a resource that has timed out. -/
structure StatusCall.Due (q : StatusCall) (log : List StatusCall) : Prop where
  unstored : stored log q.action.id = false
  timedOut : q.status = .timedOut →
    q.action.isResourceOp = true ∧ q.action.status = .failed .timedOut

/-- Each call was due after those before it. -/
def CallsDue (log : List StatusCall) : Prop :=
  ∀ before q after, log = before ++ q :: after → q.Due before

section Calls

variable {log : List StatusCall} {q : StatusCall}

theorem callsDue_snoc : CallsDue (log ++ [q]) ↔ CallsDue log ∧ q.Due log := by
  constructor
  · intro h
    refine ⟨fun before r after heq => h before r (after ++ [q]) ?_, h log q [] rfl⟩
    rw [heq, List.append_assoc, List.cons_append]
  · rintro ⟨h, hq⟩ before r after heq
    rcases append_singleton_eq_append_cons_iff.mp heq with ⟨-, rfl, rfl⟩ | ⟨rest, -, hlog⟩
    · exact hq
    · exact h before r rest hlog

/-- How many calls there were for the action with this id. -/
def callsFor (log : List StatusCall) (id : ActionId) : Nat := log.countP (·.action.id = id)

/-- How many records of the action with this id the store has taken. -/
def recordsOf (log : List StatusCall) (id : ActionId) : Nat :=
  log.countP fun q => q.action.id = id && q.accepted

theorem stored_eq_true_iff {id : ActionId} : stored log id = true ↔ 0 < recordsOf log id := by
  simp [stored, recordsOf, List.countP_pos_iff]

theorem recordsOf_le_callsFor (log : List StatusCall) (id : ActionId) :
    recordsOf log id ≤ callsFor log id :=
  List.countP_mono_left fun _ _ h => (Bool.and_eq_true_iff.mp h).1

theorem stored_eq_false_iff {id : ActionId} : stored log id = false ↔ recordsOf log id = 0 := by
  rw [← Bool.not_eq_true, stored_eq_true_iff]
  exact Nat.pos_iff_ne_zero.not_left

/-- The store has at most one record of each action. -/
theorem CallsDue.recordsOf_le_one (h : CallsDue log) (id : ActionId) : recordsOf log id ≤ 1 := by
  induction log using List.reverseRecOn with
  | nil => exact Nat.zero_le _
  | append_singleton log q ih =>
    obtain ⟨hlog, hq⟩ := callsDue_snoc.mp h
    have hsnoc : recordsOf (log ++ [q]) id =
        recordsOf log id + recordsOf [q] id := List.countP_append
    by_cases hid : q.action.id = id
    · have hnone : recordsOf log id = 0 := stored_eq_false_iff.mp (hid ▸ hq.unstored)
      have hone : recordsOf [q] id ≤ 1 := List.countP_le_length
      omega
    · have hother : recordsOf [q] id = 0 := by simp [recordsOf, hid]
      have := ih hlog
      omega

end Calls

/-! ## Graphs and their lists -/

namespace Graph

/-- The list of calls fits the graph. -/
structure Filed (g : Graph) (log : List StatusCall) : Prop where
  wellFormed : g.WellFormed
  /-- There were no more calls for an action than its status allows. -/
  bound : ∀ (k : Nat) (a : Action), g.actions[k]? = some a → callsFor log a.id ≤ a.status.callBound
  due : CallsDue log

variable {g g' : Graph} {log : List StatusCall}

/-- The list goes on to fit if statuses do not go back. -/
theorem Filed.silent (h : g.Filed log) (hplan : g'.plan = g.plan)
    (hon : ∀ (k : Nat) (s s' : ActionStatus), g.statusAt k = some s → g'.statusAt k = some s' →
      s.callBound ≤ s'.callBound) : g'.Filed log := by
  refine ⟨h.wellFormed.of_plan hplan, fun k a' ha' => ?_, h.due⟩
  obtain ⟨a, ha, heq⟩ := action_of_plan hplan ha'
  have hid : a'.id = a.id := show a'.plan.id = a.plan.id by rw [heq]
  rw [hid]
  exact Nat.le_trans (h.bound k a ha) (hon k _ _ (statusAt_eq ha) (statusAt_eq ha'))

/-- One more call fits if the status of its action allows for it. -/
theorem Filed.call (h : g.Filed log) {q : StatusCall} (hq : q.Due log)
    (hmore : ∀ (k : Nat) (s : ActionStatus), g.slotOf? q.action.id = some k →
      g.statusAt k = some s → callsFor log q.action.id < s.callBound) : g.Filed (log ++ [q]) := by
  refine ⟨h.wellFormed, fun k a ha => ?_, callsDue_snoc.mpr ⟨h.due, hq⟩⟩
  have hsnoc : callsFor (log ++ [q]) a.id = callsFor log a.id + callsFor [q] a.id :=
    List.countP_append
  by_cases hid : q.action.id = a.id
  · have hlt := hmore k _ (by rw [hid]; exact h.wellFormed.slotOf?_id ha) (statusAt_eq ha)
    have hone : callsFor [q] a.id ≤ 1 := List.countP_le_length
    rw [hid] at hlt
    omega
  · have hbound := h.bound k a ha
    have hother : callsFor [q] a.id = 0 := by simp [callsFor, hid]
    omega

/-- Edits on behalf of an action make none pending or executed. -/
theorem Edits.callBound_le {id : ActionId} (h : Edits id g g') {k : Nat} {s s' : ActionStatus}
    (hs : g.statusAt k = some s) (hs' : g'.statusAt k = some s') :
    s.callBound ≤ s'.callBound := by
  rcases h.statusAt_self k with heq | ⟨new, hnew, hknown⟩
  · rw [hs, hs', Option.some.injEq] at heq
    rw [heq]
  · rw [hs', Option.some.injEq] at hnew
    rw [hnew, ActionStatus.callBound_of_isConfirmed hknown]
    exact s.callBound_le

theorem Filed.reported (h : g.Filed log) (hreported : Reported g g') : g'.Filed log := by
  induction hreported with
  | refl => exact h
  | tail _ step ih =>
    obtain ⟨id, hedits⟩ := step
    exact ih.silent hedits.plan fun k s s' => hedits.callBound_le

end Graph

theorem PassEdit.filedAs {g : Graph} {f : Graph → Graph} (h : PassEdit g f)
    (stored : ActionId → Bool) : f (g.filedAs stored) = (f g).filedAs stored := by
  cases h with
  | start | fail => exact Graph.setStatusAt_filedAs ..
  | count | mark | veto | conclude => rfl

/-- The changes that a pass makes by itself move the statuses of actions on. -/
theorem PassEdit.callBound_le {g : Graph} {f : Graph → Graph} (h : PassEdit g f) {k : Nat}
    {s s' : ActionStatus} (hs : g.statusAt k = some s) (hs' : (f g).statusAt k = some s') :
    s.callBound ≤ s'.callBound := by
  cases h with
  | @start slot a ha hpending =>
    rw [Graph.statusAt_setStatusAt, hs] at hs'
    split at hs'
    · rename_i hslot
      rw [← hslot, Graph.statusAt_eq ha, hpending, Option.some.injEq] at hs
      rw [← hs]
      exact Nat.zero_le _
    · cases hs'
      exact Nat.le_refl _
  | fail slot =>
    rw [Graph.statusAt_setStatusAt, hs] at hs'
    split at hs'
    · cases hs'
      exact s.callBound_le
    · cases hs'
      exact Nat.le_refl _
  | count | mark | veto | conclude =>
    obtain rfl : s = s' := Option.some.inj (hs.symm.trans hs')
    exact Nat.le_refl _

theorem Graph.Filed.edit {g : Graph} {log : List StatusCall} (h : g.Filed log)
    {f : Graph → Graph} (hedit : PassEdit g f) : (f g).Filed log :=
  h.silent hedit.plan fun _ _ _ => hedit.callBound_le

/-! ## With the store and without -/

/-- The second side is the first with a store, whose calls so far fit the graph. -/
def Filing {ε : Type} (s : Graph × Engine ε) (s' : Graph × Engine (ε × List StatusCall)) : Prop :=
  ∃ log, s.1.Filed log ∧ s' = withStore log s

namespace Filing

variable {ε : Type} {c : Cluster ε} {answers : StoreAnswers}

/-- **A dispatch with the store comes to what it does without.** -/
theorem dispatch {g g' : Graph} {e : Engine ε} {e' : Engine (ε × List StatusCall)} {slot : Nat}
    {a : Action} (h : Filing (g, e) (g', e')) (ha : g.actions[slot]? = some a)
    (hpending : a.status = .pending) (channel : Channel) :
    Agree Filing
      ((Engine.dispatcher c.storeless).dispatch channel a.id (g.setStatusAt slot .executed) e)
      ((Engine.dispatcher (c.filing answers)).dispatch channel a.id
        (g'.setStatusAt slot .executed) e') := by
  obtain ⟨log, hfiled, heq⟩ := h
  obtain ⟨rfl, rfl⟩ := Prod.mk.inj heq
  have hstart : PassEdit g (·.setStatusAt slot .executed) := .start ha hpending
  have hstarted := hfiled.edit hstart
  have hedits := Engine.dispatcher_handles c.storeless channel a.id
    (g.setStatusAt slot .executed) e
  have hdone := hstarted.reported (.single ⟨a.id, hedits⟩)
  obtain ⟨new, hnew, hout⟩ := Engine.dispatch_withStore c answers log e a.id
    hstarted.wellFormed channel
  simp only [hstart.filedAs, hout]
  refine .intro _ ⟨log ++ new, ?_, rfl⟩
  cases hnew with
  | silent => rwa [List.append_nil]
  | @call q hq =>
    obtain ⟨hid, hstatus⟩ := hq
    -- the action was pending, so the store was not called for it
    have hnone : callsFor log q.action.id = 0 := by
      have hbound := hfiled.bound slot a ha
      rw [hpending, ← hid] at hbound
      exact Nat.le_zero.mp hbound
    have hdue : q.Due log := by
      refine ⟨stored_eq_false_iff.mpr ?_, fun htimedOut => ?_⟩
      · exact Nat.le_zero.mp (Nat.le_trans (recordsOf_le_callsFor log _) (Nat.le_of_eq hnone))
      · rw [hstatus] at htimedOut
        cases htimedOut
    refine hdone.call hdue fun k s hk hs => ?_
    rw [hid, Graph.slotOf?_eq_of_plan (hedits.plan.trans hstart.plan),
      hfiled.wellFormed.slotOf?_id ha, Option.some.injEq] at hk
    subst hk
    have hexecuted : ActionStatus.executed.callBound ≤ s.callBound :=
      hedits.callBound_le (Graph.statusAt_eq (Graph.getElem?_setStatusAt ha .executed)) hs
    rw [hnone]
    exact hexecuted

/-- **An expiry with the store comes to what it does without.** -/
theorem timeout {s : Graph × Engine ε} {s' : Graph × Engine (ε × List StatusCall)}
    (h : Filing s s') (id : ActionId) :
    Filing (s.2.actionTimedOut c.storeless s.1 id).2
      (s'.2.actionTimedOut (c.filing answers) s'.1 id).2 := by
  obtain ⟨log, hfiled, rfl⟩ := h
  obtain ⟨g, e⟩ := s
  have hedits := Engine.actionTimedOut_edits c.storeless e g id
  have hdone := hfiled.reported (.single ⟨id, hedits⟩)
  obtain ⟨new, hnew, hout⟩ := Engine.actionTimedOut_withStore c answers log e id hfiled.wellFormed
  refine ⟨log ++ new, ?_, congrArg (·.2) hout⟩
  cases hnew with
  | silent => rwa [List.append_nil]
  | @call q hq =>
    obtain ⟨hid, hunstored, hresource, hstatus, a, ha, hopen⟩ := hq
    obtain ⟨k, hk, hget, haid⟩ := exists_slot_of_action? ha
    refine hdone.call ⟨hid ▸ hunstored, fun _ => ⟨hresource, hstatus⟩⟩ fun k' s hk' hs => ?_
    rw [hid, Graph.slotOf?_eq_of_plan hedits.plan, hk, Option.some.injEq] at hk'
    subst hk'
    -- the result was open, so there was one call at most, and now it is known
    have hbound := hfiled.bound k a hget
    have hbefore := ActionStatus.callBound_le_one_of_open hopen
    have hfailed := Engine.statusAt_actionTimedOut (e := e) c.storeless hk ha hopen
    rw [hs, Option.some.injEq] at hfailed
    rw [hfailed, hid, ← haid]
    exact Nat.lt_of_le_of_lt (Nat.le_trans hbound hbefore) Nat.one_lt_two

/-- Two engines, one with a store and one without, go in lockstep. -/
theorem lockstep (c : Cluster ε) (answers : StoreAnswers) :
    (Engine.dispatcher c.storeless).Lockstep (Engine.dispatcher (c.filing answers)) Filing where
  alike := by
    rintro s _ ⟨log, -, rfl⟩
    exact (Graph.filedAs_filedAs s.1 _).symm
  edit := by
    rintro g g' e e' f hedit ⟨log, hfiled, heq⟩
    obtain ⟨rfl, rfl⟩ := Prod.mk.inj heq
    refine ⟨log, hfiled.edit hedit, ?_⟩
    exact Prod.ext (hedit.filedAs (stored log)) rfl
  allowed := by
    rintro g g' e e' id ⟨log, hfiled, heq⟩
    obtain ⟨rfl, rfl⟩ := Prod.mk.inj heq
    simp only [Engine.dispatcher, Engine.allows_withStore]
    exact .intro _ ⟨log, hfiled, rfl⟩
  dispatch h ha hpending _ := h.dispatch ha hpending _

/-- The second dry run is the first on a graph with the notes that the list gives. -/
def Noted (log : List StatusCall) (s s' : Graph × Simulator) : Prop :=
  s.1.Filed log ∧ s' = (s.1.filedAs (stored log), s.2)

/-- Two dry runs, one with the notes and one without, go in lockstep. -/
theorem lockstep_simulator (log : List StatusCall) :
    Simulator.dispatcher.Lockstep Simulator.dispatcher (Noted log) where
  alike := by
    rintro s _ ⟨-, rfl⟩
    exact (Graph.filedAs_filedAs s.1 _).symm
  edit := by
    rintro g g' st st' f hedit ⟨hfiled, heq⟩
    obtain ⟨rfl, rfl⟩ := Prod.mk.inj heq
    refine ⟨hfiled.edit hedit, ?_⟩
    exact Prod.ext (hedit.filedAs (stored log)) rfl
  allowed _ h := .intro _ h
  dispatch := by
    rintro g g' st st' slot a channel ⟨hfiled, heq⟩ ha hpending -
    obtain ⟨rfl, rfl⟩ := Prod.mk.inj heq
    have hstart : PassEdit g (·.setStatusAt slot .executed) := .start ha hpending
    have hstarted := hfiled.edit hstart
    have hedits := Simulator.dispatcher_handles channel a.id (g.setStatusAt slot .executed) st'
    simp only [Simulator.dispatcher, hstart.filedAs, Simulator.execute_filedAs]
    exact .intro _ ⟨hstarted.reported (.single ⟨a.id, hedits⟩), rfl⟩

/-- A report that calls no store leaves the list as it is. -/
theorem report {s : Graph × Engine ε} {log : List StatusCall} (h : s.1.Filed log) {m : Move}
    (hpass : m ≠ .pass) (htimeout : ∀ id, m ≠ .timeout id) :
    Filing (m.make c.storeless s) (m.make (c.filing answers) (withStore log s)) := by
  refine ⟨log, h.reported (m.reported c.storeless hpass s), ?_⟩
  obtain ⟨g, e⟩ := s
  cases m with
  | pass => exact absurd rfl hpass
  | timeout id => exact absurd rfl (htimeout id)
  | result r => exact congrArg (·.2) (Engine.processResult_withStore log e g r)
  | fencing call outcome =>
    exact congrArg (·.2) (Engine.fencingResult_withStore c answers log e g call outcome)
  | nodeSafe target =>
    exact congrArg (·.2) (Engine.confirmNodeSafe_withStore c answers log e g target)
  | abort => rfl

/-- **Every turn with the store comes to what it does without.** -/
theorem turn {s : Graph × Engine ε} {s' : Graph × Engine (ε × List StatusCall)} (h : Filing s s')
    (t : Turn) : Filing (t.make c.storeless s) (t.make (c.filing answers) s') := by
  cases t with
  | move m =>
    by_cases hpass : m = .pass
    · subst hpass
      obtain ⟨result, g₁, g₁', e₁, e₁', hrun, hrun', h₁⟩ :=
        ((lockstep c answers).run h).exists_answer
      simp only [Turn.make, Move.make, hrun, hrun']
      exact h₁
    · by_cases htimeout : ∃ id, m = .timeout id
      · obtain ⟨id, rfl⟩ := htimeout
        exact h.timeout id
      · obtain ⟨log, hfiled, rfl⟩ := h
        exact report hfiled hpass fun id hm => htimeout ⟨id, hm⟩
  | confirmed id =>
    obtain ⟨log, hfiled, rfl⟩ := h
    exact ⟨log, hfiled.reported (.single ⟨id, Engine.actionConfirmed_edits s.2 s.1 id⟩),
      Engine.actionConfirmed_withStore log s.2 s.1 id⟩
  | dryPass st =>
    obtain ⟨log, hfiled, rfl⟩ := h
    have hnoted : Noted log (s.1, st) (s.1.filedAs (stored log), st) := ⟨hfiled, rfl⟩
    obtain ⟨result, g₁, g₁', st₁, st₁', hrun, hrun', hfiled₁, hsame⟩ :=
      ((lockstep_simulator log).run hnoted).exists_answer
    obtain ⟨rfl, -⟩ := Prod.mk.inj hsame
    simp only [Turn.make, withStore, hrun, hrun']
    exact ⟨log, hfiled₁, rfl⟩

theorem turns {s : Graph × Engine ε} {s' : Graph × Engine (ε × List StatusCall)} (h : Filing s s')
    (c : Cluster ε) (answers : StoreAnswers) (turns : List Turn) :
    Filing (Turn.makeAll c.storeless turns s) (Turn.makeAll (c.filing answers) turns s') := by
  induction turns generalizing s s' with
  | nil => exact h
  | cons t turns ih => exact ih (h.turn t)

end Filing

/-- The store is empty when a loaded graph is started on. -/
theorem GraphDocument.LoadedAs.filing {d : GraphDocument} {g : Graph} (h : d.LoadedAs g) {ε : Type}
    (e : Engine ε) : Filing (g, e) (g, e.filed []) := by
  have hunnoted : g.actions.map (Action.filedAs (stored [])) = g.actions := by
    rw [h.actions, List.map_map]
    rfl
  refine ⟨[], ⟨h.wellFormed, fun _ _ _ => Nat.zero_le _, by simp [CallsDue]⟩, ?_⟩
  exact Prod.ext (congrArg (fun actions => { g with actions }) hunnoted.symm) rfl

/-- **An action has at most one record in the status store.**  Take any turns of an engine on a
loaded graph, with a store that answers each call as it likes.  The store is called at most twice
for an action and takes at most one record of it, and the action has the note of a record just if
the store has taken one.  A timeout is recorded only of an operation on a resource that has timed
out and of which the store has no record.  And whatever the store had answered, the graph without
its notes and the engine without the list of calls would be the same. -/
theorem recorded_once {d : GraphDocument} {g : Graph} (h : d.toGraph = .ok g) {ε : Type}
    (c : Cluster ε) (e : Engine ε) (turns : List Turn) (answers : StoreAnswers) {g' : Graph}
    {e' : Engine (ε × List StatusCall)}
    (hrun : Turn.makeAll (c.filing answers) turns (g, e.filed []) = (g', e')) :
    (∀ a ∈ g'.actions, callsFor e'.env.2 a.id ≤ 2 ∧ recordsOf e'.env.2 a.id ≤ 1 ∧
      (a.sentUpdate = true ↔ recordsOf e'.env.2 a.id = 1)) ∧
    (∀ before q after, e'.env.2 = before ++ q :: after → q.status = .timedOut →
      q.action.isResourceOp = true ∧ q.action.status = .failed .timedOut ∧
        recordsOf before q.action.id = 0) ∧
    ∀ answers', let s := Turn.makeAll (c.filing answers') turns (g, e.filed [])
      s.1.unfiled = g'.unfiled ∧ s.2.unfiled = e'.unfiled := by
  have hstart := (GraphDocument.loadedAs_of_toGraph h).filing e
  obtain ⟨log, hfiled, hend⟩ := hstart.turns c answers turns
  rw [hrun] at hend
  obtain ⟨rfl, rfl⟩ := Prod.mk.inj hend
  refine ⟨fun a' ha' => ?_, fun before q after heq htimedOut => ?_, fun answers' => ?_⟩
  · obtain ⟨a, ha, rfl⟩ := List.mem_map.mp ha'
    obtain ⟨k, hk⟩ := List.getElem?_of_mem ha
    have hone := hfiled.due.recordsOf_le_one a.id
    refine ⟨Nat.le_trans (hfiled.bound k a hk) a.status.callBound_le, hone, ?_⟩
    refine stored_eq_true_iff.trans ⟨fun hpos => Nat.le_antisymm hone hpos, fun heq => ?_⟩
    exact heq ▸ Nat.one_pos
  · obtain ⟨hunstored, htimeout⟩ := hfiled.due before q after heq
    obtain ⟨hresource, hstatus⟩ := htimeout htimedOut
    exact ⟨hresource, hstatus, stored_eq_false_iff.mp hunstored⟩
  · obtain ⟨log', -, hend'⟩ := hstart.turns c answers' turns
    simp only [hend']
    exact ⟨(Graph.filedAs_filedAs ..).trans (Graph.filedAs_filedAs ..).symm, rfl⟩

/-- Two starts whose records are stored when they are sent. -/
def GraphDocument.recordedStarts : GraphDocument where
  transitionId := 1
  synapses :=
    [{ id := 0
       actions :=
         [{ id := 1, kind := .resource, task := some "start", target := some "node1"
            params := .ofList [("CRM_meta_record_pending", "true")] },
          { id := 2, kind := .resource, task := some "start", target := some "node2"
            params := .ofList [("CRM_meta_record_pending", "true")] }] }]

/-- The store that takes nothing about the first start but its timeout. -/
def StoreAnswers.timeoutOfFirst : StoreAnswers := fun _ a status _ =>
  a.id ≠ 1 || status = .timedOut

/-- Both starts are sent and time out.  The store is called twice for the first, which times out
again, and once for the second. -/
theorem recordedStarts_recorded_once : ∃ g, GraphDocument.recordedStarts.toGraph = .ok g ∧
    let s := Turn.makeAll (Cluster.willing.filing .timeoutOfFirst)
      [.move .pass, .move (.timeout 1), .move (.timeout 2), .move (.timeout 1)]
      (g, (Engine.new { node := "node1" } 0).filed [])
    s.2.env.2.map (fun q => (q.action.id, q.status, q.accepted)) =
      [(1, .pending, false), (2, .pending, true), (1, .timedOut, true)] ∧
    s.1.actions.map (·.sentUpdate) = [true, true] ∧
    (∀ a ∈ s.1.actions, callsFor s.2.env.2 a.id ≤ 2 ∧ recordsOf s.2.env.2 a.id ≤ 1) := by
  have hfacts : ∀ g, GraphDocument.recordedStarts.toGraph = .ok g →
      let s := Turn.makeAll (Cluster.willing.filing .timeoutOfFirst)
        [.move .pass, .move (.timeout 1), .move (.timeout 2), .move (.timeout 1)]
        (g, (Engine.new { node := "node1" } 0).filed [])
      s.2.env.2.map (fun q => (q.action.id, q.status, q.accepted)) =
        [(1, .pending, false), (2, .pending, true), (1, .timedOut, true)] ∧
      s.1.actions.map (·.sentUpdate) = [true, true] := by
    rintro _ ⟨⟩
    decide +kernel
  obtain ⟨g, hg⟩ : ∃ g, GraphDocument.recordedStarts.toGraph = .ok g := ⟨_, rfl⟩
  obtain ⟨hlog, hnotes⟩ := hfacts g hg
  have hpair (s : Graph × Engine (Nat × List StatusCall)) : s = (s.1, s.2) := rfl
  obtain ⟨hactions, -, -⟩ := recorded_once hg .willing (Engine.new { node := "node1" } 0)
    [.move .pass, .move (.timeout 1), .move (.timeout 2), .move (.timeout 1)] .timeoutOfFirst
    (hpair _)
  exact ⟨g, hg, hlog, hnotes, fun a ha => ⟨(hactions a ha).1, (hactions a ha).2.1⟩⟩

end ClusterTransition
