import ClusterTransition.Proofs.Engine.Confluence
import ClusterTransition.Proofs.Engine.Once
import ClusterTransition.Proofs.Timers

/-! # The answer to a result

The report of a result is answered in one of three ways.  It is refused, if its key cannot be read
or does not name an action of this engine's graph; it is of no use, if the result of that action is
known; or it settles the action.  In which case which answer is given, and what has changed
afterwards, is one statement about all states of a graph and an engine
(`Engine.processResult_answers`).

What the several steps of a report do together is known (`Engine.takeResult_of_ok`), and the spread
of a completion leaves the list of actions alone.  So the frame of the statement needs no walk over
the synapses.
-/

namespace ClusterTransition

/-! ## What a report asks for -/

/-- The report is about the action `a`, which stands at the slot `k` of the graph: its key names
this engine, this transition and that action. -/
structure ActionResult.Concerns {ε : Type} (r : ActionResult) (s : Graph × Engine ε)
    (key : TransitionKey) (k : Nat) (a : Action) : Prop where
  readable : TransitionKey.decode r.transitionKey = .ok key
  uuid : key.uuid = s.2.uuid
  transition : key.transition = s.1.id
  slot : s.1.slotOf? key.action = some k
  action : s.1.actions[k]? = some a

/-- Why a report is refused.  A later reason needs that the earlier ones do not apply. -/
inductive ActionResult.Refused {ε : Type} (r : ActionResult) (s : Graph × Engine ε) : Error → Prop
  /-- The key cannot be read. -/
  | unreadable (h : ∀ key, TransitionKey.decode r.transitionKey ≠ .ok key) :
      Refused r s (.invalidTransitionKey r.transitionKey)
  /-- The key is that of another engine. -/
  | foreign {key : TransitionKey} (hkey : TransitionKey.decode r.transitionKey = .ok key)
      (h : key.uuid ≠ s.2.uuid) : Refused r s (.foreignResult s.2.uuid key.uuid)
  /-- The key is that of another transition. -/
  | stale {key : TransitionKey} (hkey : TransitionKey.decode r.transitionKey = .ok key)
      (huuid : key.uuid = s.2.uuid) (h : key.transition ≠ s.1.id) :
      Refused r s (.staleResult s.1.id key.transition)
  /-- The graph has no action with the id in the key. -/
  | unknown {key : TransitionKey} (hkey : TransitionKey.decode r.transitionKey = .ok key)
      (huuid : key.uuid = s.2.uuid) (htransition : key.transition = s.1.id)
      (h : ∀ a ∈ s.1.actions, a.id ≠ key.action) : Refused r s (.actionNotFound key.action)

/-- The result counts as a failure of the action: it is other than expected, and the action may not
fail. -/
def ActionResult.Fails (r : ActionResult) (key : TransitionKey) (a : Action) : Prop :=
  a.canFail = false ∧
    (r.status ≠ .done ∨ r.rc ≠ if 0 ≤ key.targetRc then key.targetRc else a.targetRc)

instance (r : ActionResult) (key : TransitionKey) (a : Action) : Decidable (r.Fails key a) :=
  inferInstanceAs (Decidable (_ ∧ _))

/-- In the second state the action `a`, which stands open at the slot `k` of the first, has its
result, a failure or not. -/
structure Engine.Settled {ε : Type} (k : Nat) (a : Action) (failed : Bool)
    (s s' : Graph × Engine ε) : Prop where
  /-- The action has its final status and holds no job slots. -/
  action : s'.1.actions[k]? =
    some { a with status := if failed then .failed .execution else .confirmed, counted := false }
  /-- No other action has changed. -/
  others : ∀ j, j ≠ k → s'.1.actions[j]? = s.1.actions[j]?
  disarmed : s'.2.timers.isArmed a.id = false
  deadlines : ∀ id, id ≠ a.id → s'.2.timers.deadlines.get? id = s.2.timers.deadlines.get? id
  passRequested : s'.2.passRequested = true
  /-- A failure raises the abort level to infinity at least. -/
  abortPriority : s'.1.abortPriority =
    if failed then max s.1.abortPriority infinity else s.1.abortPriority
  /-- A failure raises the completion action to a restart at least. -/
  completionAction : s'.1.completionAction =
    if failed then
      if s.1.completionAction.severity < CompletionAction.restart.severity then .restart
      else s.1.completionAction
    else s.1.completionAction
  /-- The job slots of the action are free. -/
  ledger : s'.2.ledger = s.2.ledger.released a
  /-- No other part of the engine has changed. -/
  engine : s'.2 = { s.2 with
    timers := s'.2.timers, ledger := s'.2.ledger, passRequested := s'.2.passRequested }

/-- The answer to a report, with the graph and the engine after it, is as it should be. -/
structure ActionResult.Answered {ε : Type} (r : ActionResult) (s : Graph × Engine ε)
    (out : Except Error Bool × Graph × Engine ε) : Prop where
  error_iff : ∀ err, out.1 = .error err ↔ r.Refused s err
  unchanged : ∀ err, out.1 = .error err → out.2 = s
  false_iff : out.1 = .ok false ↔ ∃ key k a, r.Concerns s key k a ∧ a.status.isConfirmed = true
  /-- A report of no use stops the timer of the action and does no more. -/
  ignored : ∀ key k a, r.Concerns s key k a → a.status.isConfirmed = true →
    out.2 = (s.1, { s.2 with timers := s.2.timers.cancel a.id })
  true_iff : out.1 = .ok true ↔ ∃ key k a, r.Concerns s key k a ∧ a.status.isConfirmed = false
  settled : ∀ key k a, r.Concerns s key k a → a.status.isConfirmed = false →
    Engine.Settled k a (r.Fails key a) s out.2

/-! ## The kinds of reports -/

theorem TransitionKey.error_of_decode {text : String} {err : Error}
    (h : TransitionKey.decode text = .error err) : err = .invalidTransitionKey text := by
  simp only [decode] at h
  split at h
  · cases h
  · exact (Except.error.inj h).symm

theorem Graph.action?_eq_none_iff_forall {g : Graph} {id : ActionId} :
    g.action? id = none ↔ ∀ a ∈ g.actions, a.id ≠ id := by
  simp [action?]

namespace Engine

variable {ε : Type} {s : Graph × Engine ε} {r : ActionResult} {key : TransitionKey} {k : Nat}
  {a : Action} {err : Error}

/-- The reasons for a refusal are the checks that are made on a report. -/
theorem resultAction_eq_error_iff : s.2.resultAction s.1 r = .error err ↔ r.Refused s err := by
  constructor
  · intro h
    simp only [resultAction] at h
    split at h
    · rename_i err' hkey
      obtain rfl := Except.error.inj h
      rw [TransitionKey.error_of_decode hkey]
      refine .unreadable fun key hok => ?_
      cases hkey.symm.trans hok
    · rename_i key hkey
      split at h
      · rename_i huuid
        exact Except.error.inj h ▸ .foreign hkey huuid
      · rename_i huuid
        rw [not_not] at huuid
        split at h
        · rename_i htransition
          exact Except.error.inj h ▸ .stale hkey huuid htransition
        · rename_i htransition
          rw [not_not] at htransition
          split at h
          · rename_i hnone
            exact Except.error.inj h ▸
              .unknown hkey huuid htransition (Graph.action?_eq_none_iff_forall.mp hnone)
          · cases h
  · intro h
    cases h with
    | unreadable h =>
      simp only [resultAction]
      split
      · rename_i err' hkey
        rw [TransitionKey.error_of_decode hkey]
      · rename_i key hkey
        exact absurd hkey (h key)
    | foreign hkey h => simp only [resultAction, hkey, if_pos h]
    | stale hkey huuid h =>
      simp only [resultAction, hkey, huuid, ne_eq, not_true, if_false, if_pos h]
    | unknown hkey huuid htransition h =>
      simp only [resultAction, hkey, huuid, htransition, ne_eq, not_true, if_false,
        Graph.action?_eq_none_iff_forall.mpr h]

/-- A report that is not refused is about the action that it is taken for. -/
theorem concerns_iff : r.Concerns s key k a ↔
    s.2.resultAction s.1 r = .ok (key, a) ∧ s.1.slotOf? a.id = some k := by
  constructor
  · intro h
    have ha : s.1.action? key.action = some a := (Graph.action?_eq_getElem? h.slot).trans h.action
    have hr := resultAction_eq_ok_iff.mpr ⟨h.readable, h.uuid, h.transition, ha⟩
    exact ⟨hr, id_of_resultAction hr ▸ h.slot⟩
  · rintro ⟨hr, hk⟩
    obtain ⟨hkey, huuid, htransition, ha⟩ := resultAction_eq_ok_iff.mp hr
    rw [id_of_resultAction hr] at hk
    exact ⟨hkey, huuid, htransition, hk, (Graph.action?_eq_getElem? hk).symm.trans ha⟩

/-- A report is refused, or it is about one action. -/
theorem refused_or_concerns (s : Graph × Engine ε) (r : ActionResult) :
    (∃ err, r.Refused s err) ∨ ∃ key k a, r.Concerns s key k a := by
  cases hr : s.2.resultAction s.1 r with
  | error err => exact .inl ⟨err, resultAction_eq_error_iff.mp hr⟩
  | ok found =>
    obtain ⟨k, hk, -⟩ := exists_slot_of_resultAction hr
    exact .inr ⟨found.1, k, found.2, concerns_iff.mpr ⟨hr, hk⟩⟩

/-! ## What follows from each kind -/

theorem processResult_of_refused (h : r.Refused s err) :
    s.2.processResult s.1 r = (.error err, s) := by
  simp only [processResult, resultAction_eq_error_iff.mpr h]

/-- The answer to a report that is not refused tells whether its action was open. -/
theorem fst_processResult (h : r.Concerns s key k a) :
    (s.2.processResult s.1 r).1 = .ok !a.status.isConfirmed := by
  obtain ⟨hr, -⟩ := concerns_iff.mp h
  simp only [processResult, hr]
  split
  · rename_i hc
    simp [hc]
  · rename_i hc
    simp [hc]

theorem fails_eq (r : ActionResult) (key : TransitionKey) (a : Action) :
    (resultFailed a key r && !a.canFail) = decide (r.Fails key a) := by
  rw [Bool.eq_iff_iff, decide_eq_true_iff]
  simp [resultFailed, ActionResult.Fails, and_comm]

theorem snd_processResult (h : r.Concerns s key k a) :
    (s.2.processResult s.1 r).2 = take k a (r.Fails key a) s := by
  obtain ⟨hr, hk⟩ := concerns_iff.mp h
  rw [← fails_eq]
  exact takeResult_of_ok hr hk

/-- An open action that gets its result is settled. -/
theorem settled_take (ha : s.1.actions[k]? = some a) (hopen : a.status.isConfirmed = false)
    (failed : Bool) : Settled k a failed s (take k a failed s) := by
  have hactions : (take k a failed s).1.actions = s.1.actions.set k (a.concluded failed) := by
    cases failed <;> simp [take, hopen, Graph.upset, Graph.conclude, Graph.abort]
  have hengine : (take k a failed s).2 = { s.2 with
      timers := s.2.timers.cancel a.id
      ledger := s.2.ledger.released a
      passRequested := true } := by
    simp only [take, hopen, Bool.false_eq_true, if_false]
  obtain ⟨hlt, -⟩ := List.getElem?_eq_some_iff.mp ha
  -- a write at the slot `k` and one erased deadline are all there is to the frame
  refine ⟨?_, fun j hj => ?_, ?_, fun id hid => ?_, ?_, ?_, ?_, ?_, ?_⟩
  · rw [hactions, List.getElem?_set_self hlt]
    rfl
  · rw [hactions, List.getElem?_set_ne hj.symm]
  · rw [hengine, Bool.eq_false_iff, ne_eq, Timers.isArmed_cancel]
    exact fun h => h.1 rfl
  · rw [hengine]
    simp only [Timers.cancel, Table.get?_erase, if_neg hid]
  · rw [hengine]
  · cases failed
    · simp [take, hopen, Graph.upset, Graph.conclude]
    · simp only [take, hopen, Graph.upset, Graph.abort, Graph.conclude, Bool.false_eq_true,
        if_false, if_true]
      omega
  · cases failed <;> simp only [take, hopen, Bool.false_eq_true, if_false, if_true] <;> rfl
  · rw [hengine]
  · rw [hengine]

/-- **How a report of a result is answered.**  It is refused for the first reason that applies, and
then nothing has changed.  It is of no use if the result of its action is known, and then only a
timer of that action is stopped.  In all other cases the action is settled: as a failure, if it may
not fail and the result is other than expected, else as confirmed.  No state of the graph and the
engine is left out. -/
theorem processResult_answers (s : Graph × Engine ε) (r : ActionResult) :
    r.Answered s (s.2.processResult s.1 r) := by
  have hcases := refused_or_concerns s r
  -- an answer that is not a refusal comes from the action that the report is about
  have hanswer (b : Bool) : (s.2.processResult s.1 r).1 = .ok b ↔
      ∃ key k a, r.Concerns s key k a ∧ a.status.isConfirmed = !b := by
    constructor
    · intro hb
      obtain ⟨err, h⟩ | ⟨key, k, a, h⟩ := hcases
      · rw [processResult_of_refused h] at hb
        cases hb
      · obtain rfl := Except.ok.inj ((fst_processResult h).symm.trans hb)
        exact ⟨key, k, a, h, (Bool.not_not _).symm⟩
    · rintro ⟨key, k, a, h, hb⟩
      rw [fst_processResult h, hb, Bool.not_not]
  have herror (err : Error) :
      (s.2.processResult s.1 r).1 = .error err ↔ r.Refused s err := by
    constructor
    · intro herr
      obtain ⟨err', h⟩ | ⟨key, k, a, h⟩ := hcases
      · rw [processResult_of_refused h] at herr
        exact Except.error.inj herr ▸ h
      · cases (fst_processResult h).symm.trans herr
    · intro h
      rw [processResult_of_refused h]
  refine ⟨herror, fun err herr => ?_, hanswer false, fun key k a h hc => ?_, hanswer true,
    fun key k a h hopen => ?_⟩
  · rw [processResult_of_refused ((herror err).mp herr)]
  · rw [snd_processResult h, take, if_pos hc]
  · rw [snd_processResult h]
    exact settled_take h.action hopen _

end Engine

/-- A report on the first start, under a key without an expected exit code. -/
def ActionResult.startReport (rc : Int) : ActionResult where
  transitionKey := "2:1:6f1e8a52-7d0c-4c1b-9a3e-2b5d4c3a1f00"
  status := .done
  rc

/-- The start that the engine has sent fails, and the report comes a second time. -/
theorem markedStart_answers : ∃ g, GraphDocument.markedStart.toGraph = .ok g ∧
    let s := Turn.makeAll .willing [.move .pass] (g, Engine.new { node := "node1" } 0)
    let r := ActionResult.startReport 1
    let out := s.2.processResult s.1 r
    (∃ key k a, r.Concerns s key k a ∧ a.status.isConfirmed = false ∧ r.Fails key a ∧
      Engine.Settled k a true s out.2) ∧
    (out.2.2.processResult out.2.1 r).1 = .ok false := by
  have hfacts : ∀ g, GraphDocument.markedStart.toGraph = .ok g →
      let s := Turn.makeAll .willing [.move .pass] (g, Engine.new { node := "node1" } 0)
      s.2.uuid = Engine.defaultUuid ∧ s.1.id = 1 ∧ s.1.slotOf? 2 = some 1 ∧
        ∃ a, s.1.actions[1]? = some a ∧ a.status.isConfirmed = false ∧
          (ActionResult.startReport 1).Fails ⟨2, 1, -1, Engine.defaultUuid⟩ a := by
    rintro _ ⟨⟩
    exact ⟨rfl, rfl, by decide +kernel, _, rfl, by decide +kernel, by decide +kernel⟩
  have hagain : ∀ g, GraphDocument.markedStart.toGraph = .ok g →
      let s := Turn.makeAll .willing [.move .pass] (g, Engine.new { node := "node1" } 0)
      let out := s.2.processResult s.1 (.startReport 1)
      (out.2.2.processResult out.2.1 (.startReport 1)).1 = .ok false := by
    rintro _ ⟨⟩
    rfl
  have hkey : TransitionKey.decode (ActionResult.startReport 1).transitionKey =
      .ok ⟨2, 1, -1, Engine.defaultUuid⟩ := by rfl
  obtain ⟨g, hg⟩ : ∃ g, GraphDocument.markedStart.toGraph = .ok g := ⟨_, rfl⟩
  obtain ⟨huuid, hid, hslot, a, ha, hopen, hfails⟩ := hfacts g hg
  have hconcerns : (ActionResult.startReport 1).Concerns _ _ 1 a :=
    ⟨hkey, huuid.symm, hid.symm, hslot, ha⟩
  have hsettled := (Engine.processResult_answers _ _).settled _ 1 a hconcerns hopen
  rw [decide_eq_true hfails] at hsettled
  exact ⟨g, hg, ⟨_, 1, a, hconcerns, hopen, hfails, hsettled⟩, hagain g hg⟩

end ClusterTransition
