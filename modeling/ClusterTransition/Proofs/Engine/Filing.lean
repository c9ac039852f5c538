import ClusterTransition.Proofs.Engine.Moves
import ClusterTransition.Proofs.Pass.Lockstep

/-! # An engine beside its status store

To speak of all calls of the status store in a run, and of all ways in which it may answer them, the
cluster is given a store that keeps a list of its calls and answers each as it likes, in view of the
list (`Cluster.filing`).  What an engine does with such a store can be told from what it does
without one: its graph is the same with the notes that the list gives (`withStore`), and the list
has grown by at most one call in each dispatch and each expiry (`dispatch_withStore`,
`actionTimedOut_withStore`).  Everything else an engine does calls no store.
-/

namespace ClusterTransition

/-! ## The store -/

/-- A call of the status store: the action as it was, the record, and the answer. -/
structure StatusCall where
  action : Action
  status : OpStatus
  rc : Int
  accepted : Bool
  deriving DecidableEq

/-- How a store answers a call, in view of the calls before. -/
abbrev StoreAnswers := List StatusCall → Action → OpStatus → Int → Bool

/-- Whether the store has taken a record of the action with this id. -/
def stored (log : List StatusCall) (id : ActionId) : Bool :=
  log.any fun q => q.action.id = id && q.accepted

theorem stored_snoc (log : List StatusCall) (q : StatusCall) (id : ActionId) :
    stored (log ++ [q]) id = (stored log id || (q.action.id = id && q.accepted)) := by
  simp [stored]

/-- The cluster with a status store that keeps a list of its calls. -/
def Cluster.filing {ε : Type} (c : Cluster ε) (answers : StoreAnswers) :
    Cluster (ε × List StatusCall) where
  send node q env := ((c.send node q env.1).1, (c.send node q env.1).2, env.2)
  storeStatus a status rc env :=
    (answers env.2 a status rc, env.1, env.2 ++ [⟨a, status, rc, answers env.2 a status rc⟩])
  storeFenced target uuid env :=
    ((c.storeFenced target uuid env.1).1, (c.storeFenced target uuid env.1).2, env.2)
  fence target kind timeout env :=
    ((c.fence target kind timeout env.1).1, (c.fence target kind timeout env.1).2, env.2)
  confirmSafe target env :=
    ((c.confirmSafe target env.1).1, (c.confirmSafe target env.1).2, env.2)

/-- The cluster with a status store that takes nothing. -/
def Cluster.storeless {ε : Type} (c : Cluster ε) : Cluster ε :=
  { c with storeStatus := fun _ _ _ env => (false, env) }

/-- The engine with the list of its store. -/
def Engine.filed {ε : Type} (e : Engine ε) (log : List StatusCall) :
    Engine (ε × List StatusCall) :=
  { e with env := (e.env, log) }

/-- The engine without the list of its store. -/
def Engine.unfiled {ε : Type} (e : Engine (ε × List StatusCall)) : Engine ε :=
  { e with env := e.env.1 }

/-- The graph with the notes that the list gives, and the engine with the list. -/
def withStore {ε : Type} (log : List StatusCall) (s : Graph × Engine ε) :
    Graph × Engine (ε × List StatusCall) :=
  (s.1.filedAs (stored log), s.2.filed log)

namespace Engine

variable {ε : Type} (c : Cluster ε) (answers : StoreAnswers) (log : List StatusCall)
  (e : Engine ε) (g : Graph) (id : ActionId)

@[simp] theorem uuid_filed : (e.filed log).uuid = e.uuid := (rfl)
@[simp] theorem localNode_filed : (e.filed log).localNode = e.localNode := (rfl)
@[simp] theorem fenceCalls_filed : (e.filed log).fenceCalls = e.fenceCalls := (rfl)

/-! ## Steps that call no store -/

theorem release_withStore :
    (e.filed log).release (g.filedAs (stored log)) id = withStore log (e.release g id) := by
  simp only [release, Graph.action?_filedAs]
  cases g.action? id with
  | none => rfl
  | some a =>
    simp only [Option.map_some, Action.counted_filedAs]
    split
    · rw [Graph.modifyAction_filedAs g id _ fun _ => by rfl]
      rfl
    · rfl

theorem actionConfirmed_withStore :
    (e.filed log).actionConfirmed (g.filedAs (stored log)) id =
      withStore log (e.actionConfirmed g id) := by
  simp only [actionConfirmed, release_withStore, withStore, Graph.confirmAction,
    Graph.settle_filedAs]

@[simp] theorem finishAction_withStore :
    (e.filed log).finishAction (g.filedAs (stored log)) id =
      withStore log (e.finishAction g id) := by
  simp only [finishAction, actionConfirmed_withStore, withStore, Graph.update_filedAs]
  rfl

@[simp] theorem startActionTimer_withStore :
    (e.filed log).startActionTimer (g.filedAs (stored log)) id =
      withStore log (e.startActionTimer g id) := by
  simp only [startActionTimer, Graph.action?_filedAs]
  cases g.action? id with
  | none => rfl
  | some a =>
    simp only [Option.map_some]
    rw [Graph.modifyAction_filedAs g id _ fun _ => by rfl]
    rfl

theorem awaitResult_withStore (a : Action) :
    (e.filed log).awaitResult (g.filedAs (stored log)) (a.filedAs (stored log)) =
      withStore log (e.awaitResult g a) := by
  simp only [awaitResult]
  rw [Graph.modifyAction_filedAs g _ _ fun _ => by rfl]
  exact startActionTimer_withStore log { e with ledger := e.ledger.recordAction a 1 } _ a.id

theorem resourceSent_withStore (a : Action) :
    (e.filed log).resourceSent (g.filedAs (stored log)) (a.filedAs (stored log)) =
      withStore log (e.resourceSent g a) := by
  simp only [resourceSent, Action.noWait_filedAs, Action.status_filedAs, Action.id_filedAs]
  split
  · simp only [Graph.confirmAction, Graph.settle_filedAs, Graph.update_filedAs]
    rfl
  · split
    · rfl
    · exact awaitResult_withStore log e g a

theorem sendRequest_withStore (a : Action) (target : String) :
    (e.filed log).sendRequest (c.filing answers) (g.filedAs (stored log))
        (a.filedAs (stored log)) target =
      ((e.sendRequest c.storeless g a target).1,
        (e.sendRequest c.storeless g a target).2.filed log) := rfl

theorem expectDown_filed (node : String) :
    (e.filed log).expectDown node = (e.expectDown node).filed log := by
  have hdown : (e.filed log).isExpectedDown node = e.isExpectedDown node := rfl
  simp only [expectDown, hdown]
  split <;> rfl

theorem allows_withStore :
    allows id (g.filedAs (stored log)) (e.filed log) = allows id g e := by
  simp only [allows, Graph.action?_filedAs]
  cases g.action? id <;> rfl

/-! ## Records -/

/-- What is added to the list of calls: nothing, or one call. -/
inductive NewCalls (P : StatusCall → Prop) : List StatusCall → Prop where
  | silent : NewCalls P []
  | call {q : StatusCall} (hq : P q) : NewCalls P [q]

theorem NewCalls.imp {P Q : StatusCall → Prop} {new : List StatusCall} (h : NewCalls P new)
    (himp : ∀ q, P q → Q q) : NewCalls Q new := by
  cases h with
  | silent => exact .silent
  | call hq => exact .call (himp _ hq)

/-- Without a store a record leaves no trace. -/
@[simp] theorem recordStatus_storeless (status : OpStatus) (rc : Int) :
    e.recordStatus c.storeless g id status rc = (g, e) := by
  simp only [recordStatus]
  split <;> rfl

variable {g}

/-- The note that an engine makes once the store has taken a record is the one that the list
gives. -/
theorem modifyAction_filedAs_stored (hw : g.WellFormed) {q : StatusCall} {k : Nat}
    (hk : g.slotOf? q.action.id = some k) (haccepted : q.accepted = true) :
    (g.filedAs (stored log)).modifyAction q.action.id (fun a => { a with sentUpdate := true }) =
      g.filedAs (stored (log ++ [q])) := by
  rw [Graph.modifyAction_eq ((Graph.slotOf?_filedAs ..).trans hk)]
  simp only [Graph.filedAs]
  congr 1
  apply List.ext_getElem?
  intro j
  simp only [List.getElem?_modify, List.getElem?_map]
  cases hb : g.actions[j]? with
  | none => rfl
  | some b =>
    have hslot := hw.slotOf?_id hb
    by_cases hj : k = j
    · have hid : b.id = q.action.id := by
        obtain ⟨b', hb', -, hid⟩ := Graph.exists_action_of_slotOf? hk
        rw [hj, hb, Option.some.injEq] at hb'
        rwa [← hb'] at hid
      simp [hj, Action.filedAs, stored_snoc, hid, haccepted]
    · have hid : q.action.id ≠ b.id := by
        intro hid
        rw [hid, hslot, Option.some.injEq] at hk
        exact hj hk.symm
      simp [hj, Action.filedAs, stored_snoc, hid]

/-- **A record is at most one call of the store**, about the action as it is, and the list gives the
note that the engine makes of the answer. -/
theorem recordStatus_withStore (hw : g.WellFormed) (status : OpStatus) (rc : Int) :
    ∃ new, (e.filed log).recordStatus (c.filing answers) (g.filedAs (stored log)) id status rc =
        withStore (log ++ new) (g, e) ∧
      NewCalls (fun q => ∃ a, g.action? id = some a ∧ q.action = a.filedAs (stored log) ∧
        q.status = status) new := by
  simp only [recordStatus, Graph.action?_filedAs]
  cases ha : g.action? id with
  | none => exact ⟨[], by rw [List.append_nil]; rfl, .silent⟩
  | some a =>
    obtain ⟨k, hk, -, hid⟩ := Graph.exists_slot_of_action? ha
    let q : StatusCall :=
      ⟨a.filedAs (stored log), status, rc, answers log (a.filedAs (stored log)) status rc⟩
    refine ⟨[q], ?_, .call ⟨a, rfl, rfl, rfl⟩⟩
    have hqid : q.action.id = id := hid
    have hnote : (if q.accepted = true then
        (g.filedAs (stored log)).modifyAction id fun a => { a with sentUpdate := true }
        else g.filedAs (stored log)) = g.filedAs (stored (log ++ [q])) := by
      split
      · rename_i haccepted
        rw [← hqid]
        exact modifyAction_filedAs_stored log hw (hqid ▸ hk) haccepted
      · rename_i hrefused
        have hsame : stored (log ++ [q]) = stored log := by
          funext id
          simp [stored_snoc, hrefused]
        rw [hsame]
    exact Prod.ext hnote rfl

/-- What an operation does with the store is what it does without, and the calls that it adds to the
list have the property. -/
def Files {α : Type} (P : StatusCall → Prop) (log : List StatusCall)
    (out : α × Graph × Engine ε) (out' : α × Graph × Engine (ε × List StatusCall)) : Prop :=
  ∃ new, NewCalls P new ∧ out' = (out.1, withStore (log ++ new) out.2)

theorem Files.of_eq {α : Type} {P : StatusCall → Prop} {out : α × Graph × Engine ε}
    {out' : α × Graph × Engine (ε × List StatusCall)} (h : out' = (out.1, withStore log out.2)) :
    Files P log out out' :=
  ⟨[], .silent, by rw [List.append_nil, h]⟩

/-! ## Dispatches -/

theorem dispatchResource_withStore (hw : g.WellFormed) :
    Files (fun q => q.action.id = id ∧ q.status = .pending) log
      (dispatchResource c.storeless id g e)
      (dispatchResource (c.filing answers) id (g.filedAs (stored log)) (e.filed log)) := by
  simp only [dispatchResource, Graph.action?_filedAs]
  cases ha : g.action? id with
  | none => exact .of_eq log rfl
  | some a =>
    obtain ⟨-, -, -, hid⟩ := Graph.exists_slot_of_action? ha
    simp only [Option.map_some, Action.target_filedAs]
    cases a.target with
    | none => exact .of_eq log rfl
    | some target =>
      simp only [sendRequest_withStore]
      rcases e.sendRequest c.storeless g a target with ⟨_ | _, e₁⟩
      · exact .of_eq log rfl
      · have hplan := (resourceSent_advances e₁ g a).edits.plan
        simp only [resourceSent_withStore, Action.recordPending_filedAs, recordStatus_storeless]
        generalize e₁.resourceSent g a = out at hplan ⊢
        obtain ⟨g₂, e₂⟩ := out
        split
        · obtain ⟨new, hfiled, hnew⟩ := recordStatus_withStore c answers log e₂ id
            (hw.of_plan hplan) .pending rcUnknown
          refine ⟨new, hnew.imp ?_, Prod.ext rfl hfiled⟩
          rintro q ⟨b, hb, hq, hstatus⟩
          obtain ⟨-, -, -, hbid⟩ := Graph.exists_slot_of_action? hb
          exact ⟨by rw [hq]; exact hbid, hstatus⟩
        · exact .of_eq log rfl

theorem localShutdown_withStore :
    localShutdown id (g.filedAs (stored log)) (e.filed log) =
      withStore log (localShutdown id g e) :=
  finishAction_withStore log e
    { g with completionAction := .shutdown, abortReason := some "local shutdown" } id

theorem dispatchEvent_withStore :
    dispatchEvent (c.filing answers) id (g.filedAs (stored log)) (e.filed log) =
      ((dispatchEvent c.storeless id g e).1,
        withStore log (dispatchEvent c.storeless id g e).2) := by
  simp only [dispatchEvent, Graph.action?_filedAs]
  cases g.action? id with
  | none => rfl
  | some a =>
    simp only [Option.map_some, Action.target_filedAs, Action.route_filedAs, Action.task_filedAs,
      Action.noWait_filedAs, localNode_filed]
    cases a.target with
    | none => rfl
    | some target =>
      dsimp only
      split
      · rw [localShutdown_withStore]
      · have hdown : (if a.task = some "do_shutdown" then
              (e.filed log).expectDown (a.route.getD target) else e.filed log) =
            (if a.task = some "do_shutdown" then e.expectDown (a.route.getD target)
              else e).filed log := by
          rw [expectDown_filed]
          split <;> rfl
        simp only [hdown, sendRequest_withStore]
        rcases (if a.task = some "do_shutdown" then e.expectDown (a.route.getD target)
          else e).sendRequest c.storeless g a target with ⟨_ | _, e₁⟩
        · rfl
        · dsimp only
          split
          · rw [finishAction_withStore]
          · rw [startActionTimer_withStore]

theorem dispatchFencing_withStore :
    dispatchFencing (c.filing answers) id (g.filedAs (stored log)) (e.filed log) =
      ((dispatchFencing c.storeless id g e).1,
        withStore log (dispatchFencing c.storeless id g e).2) := by
  simp only [dispatchFencing, Graph.action?_filedAs]
  cases g.action? id with
  | none => rfl
  | some a =>
    simp only [Option.map_some, Action.target_filedAs, Action.op_filedAs,
      Action.stonithAction_filedAs]
    split
    · rename_i target uuid kind _ _ _
      have hanswer : (c.filing answers).fence target kind
          (g.filedAs (stored log)).stonithTimeout.toNat (e.filed log).env =
            ((c.storeless.fence target kind g.stonithTimeout.toNat e.env).1,
              (c.storeless.fence target kind g.stonithTimeout.toNat e.env).2, log) := rfl
      rw [hanswer]
      rcases c.storeless.fence target kind g.stonithTimeout.toNat e.env with ⟨_ | call, env⟩ <;> rfl
    · rfl

/-- **A dispatch makes at most one call of the store**, to record that the action is pending. -/
theorem dispatch_withStore (hw : g.WellFormed) (channel : Channel) :
    Files (fun q => q.action.id = id ∧ q.status = .pending) log
      ((dispatcher c.storeless).dispatch channel id g e)
      ((dispatcher (c.filing answers)).dispatch channel id (g.filedAs (stored log))
        (e.filed log)) := by
  cases channel with
  | pseudo => exact .of_eq log (Prod.ext rfl (finishAction_withStore log e g id))
  | resource => exact dispatchResource_withStore c answers log e id hw
  | clusterEvent => exact .of_eq log (dispatchEvent_withStore c answers log e id)
  | fencing => exact .of_eq log (dispatchFencing_withStore c answers log e id)

/-! ## Reports -/

variable (g)

theorem failExecuted_filedAs (stored : ActionId → Bool) (reason : String) :
    failExecuted (g.filedAs stored) id reason = (failExecuted g id reason).filedAs stored := by
  simp only [failExecuted, Graph.failAction, Graph.settle_filedAs]
  rfl

theorem processResult_withStore (r : ActionResult) :
    (e.filed log).processResult (g.filedAs (stored log)) r =
      ((e.processResult g r).1, withStore log (e.processResult g r).2) := by
  have hfound : (e.filed log).resultAction (g.filedAs (stored log)) r =
      (e.resultAction g r).map fun found => (found.1, found.2.filedAs (stored log)) := by
    simp only [resultAction, uuid_filed, Graph.id_filedAs, Graph.action?_filedAs]
    cases TransitionKey.decode r.transitionKey with
    | error => rfl
    | ok key =>
      dsimp only
      split
      · rfl
      · split
        · rfl
        · cases g.action? key.action <;> rfl
  simp only [processResult, hfound]
  cases e.resultAction g r with
  | error => rfl
  | ok found =>
    obtain ⟨key, a⟩ := found
    have hfailed : resultFailed (a.filedAs (stored log)) key r = resultFailed a key r := rfl
    simp only [Except.map, Action.status_filedAs, Action.canFail_filedAs, Action.id_filedAs,
      hfailed, failExecuted_filedAs]
    split
    · rfl
    · split
      · exact congrArg (Prod.mk _) (finishAction_withStore log
          { e with timers := e.timers.cancel a.id } (failExecuted g a.id "Event failed") a.id)
      · exact congrArg (Prod.mk _) (finishAction_withStore log
          { e with timers := e.timers.cancel a.id } g a.id)

variable {g}

/-- **An expiry makes at most one call of the store**: a record that an operation on a resource has
timed out, of which the store has no record. -/
theorem actionTimedOut_withStore (hw : g.WellFormed) :
    Files (fun q => q.action.id = id ∧ stored log id = false ∧ q.action.isResourceOp = true ∧
        q.action.status = .failed .timedOut ∧
        ∃ a, g.action? id = some a ∧ a.status.isConfirmed = false) log
      (e.actionTimedOut c.storeless g id)
      ((e.filed log).actionTimedOut (c.filing answers) (g.filedAs (stored log)) id) := by
  simp only [actionTimedOut, Graph.action?_filedAs]
  cases ha : g.action? id with
  | none => exact .of_eq log rfl
  | some a =>
    obtain ⟨k, hk, hget, hid⟩ := Graph.exists_slot_of_action? ha
    simp only [Option.map_some, Action.status_filedAs, Action.isResourceOp_filedAs,
      Action.sentUpdate_filedAs, hid, recordStatus_storeless, ite_self, Graph.failAction,
      Graph.settle_filedAs]
    split
    · exact .of_eq log rfl
    · rename_i hopen
      have hplan := Graph.plan_settle g id (.failed .timedOut)
      split
      · rename_i hasks
        simp only [Bool.and_eq_true, Bool.not_eq_eq_eq_not, Bool.not_true] at hasks
        obtain ⟨new, hfiled, hnew⟩ := recordStatus_withStore c answers log e id
          (hw.of_plan hplan) .timedOut rcUnknown
        refine ⟨new, hnew.imp ?_, ?_⟩
        · rintro q ⟨b, hb, hq, -⟩
          have hb' : { a with status := .failed .timedOut } = b := by
            simp only [Graph.settle, ha, if_neg hopen] at hb
            rw [Graph.action?_modifyAction ha fun _ => by rfl] at hb
            exact Option.some.inj hb
          subst hb'
          exact ⟨by rw [hq]; exact hid, hasks.2, by rw [hq]; exact hasks.1, by rw [hq]; rfl,
            a, rfl, Bool.not_eq_true _ ▸ hopen⟩
        · rw [hfiled]
          exact congrArg (Prod.mk _) (finishAction_withStore (log ++ new) e _ id)
      · exact .of_eq log (congrArg (Prod.mk _) (finishAction_withStore log e _ id))

variable (g)

theorem nodeFenced_withStore (fence : FenceCall) :
    (e.filed log).nodeFenced (c.filing answers) (g.filedAs (stored log)) fence =
      withStore log (e.nodeFenced c.storeless g fence) := by
  simp only [nodeFenced]
  rw [← finishAction_withStore]
  rfl

theorem fencingFailed_withStore (fence : FenceCall) :
    (e.filed log).fencingFailed (g.filedAs (stored log)) fence =
      withStore log (e.fencingFailed g fence) := by
  simp only [fencingFailed, failExecuted_filedAs]
  rw [← finishAction_withStore]
  rfl

theorem fencingResult_withStore (call : Nat) (outcome : Except String Unit) :
    (e.filed log).fencingResult (c.filing answers) (g.filedAs (stored log)) call outcome =
      ((e.fencingResult c.storeless g call outcome).1,
        withStore log (e.fencingResult c.storeless g call outcome).2) := by
  simp only [fencingResult, fenceCalls_filed, Graph.id_filedAs]
  split
  · rfl
  · rename_i fence _
    let forgotten : Engine ε := { e with fenceCalls := e.fenceCalls.erase call }
    split
    · rfl
    · split
      · exact congrArg (Prod.mk _) (nodeFenced_withStore c answers log forgotten g fence)
      · exact congrArg (Prod.mk _) (fencingFailed_withStore log forgotten g fence)

theorem completeFencing_withStore (calls : List (Nat × FenceCall)) :
    (e.filed log).completeFencing (c.filing answers) (g.filedAs (stored log)) calls =
      withStore log (e.completeFencing c.storeless g calls) := by
  induction calls generalizing e g with
  | nil => rfl
  | cons head rest ih =>
    obtain ⟨call, fence⟩ := head
    let forgotten : Engine ε := { e with fenceCalls := e.fenceCalls.erase call }
    have hfenced := nodeFenced_withStore c answers log forgotten g fence
    simp only [completeFencing]
    refine Eq.trans ?_ (ih _ _)
    exact congrArg (fun s => s.2.completeFencing (c.filing answers) s.1 rest) hfenced

theorem confirmNodeSafe_withStore (target : String) :
    (e.filed log).confirmNodeSafe (c.filing answers) (g.filedAs (stored log)) target =
      ((e.confirmNodeSafe c.storeless g target).1,
        withStore log (e.confirmNodeSafe c.storeless g target).2) := by
  have hanswer : (c.filing answers).confirmSafe target (e.filed log).env =
      ((c.storeless.confirmSafe target e.env).1, (c.storeless.confirmSafe target e.env).2, log) :=
    rfl
  simp only [confirmNodeSafe, hanswer]
  rcases c.storeless.confirmSafe target e.env with ⟨_ | _, env⟩
  · rfl
  · exact congrArg (Prod.mk _) (completeFencing_withStore c answers log { e with env } g _)

end Engine

/-- A dry run does not look at the notes. -/
theorem Simulator.execute_filedAs (id : ActionId) (g : Graph) (stored : ActionId → Bool)
    (st : Simulator) : execute id (g.filedAs stored) st =
      ((execute id g st).1, (execute id g st).2.1.filedAs stored, (execute id g st).2.2) := by
  simp only [execute, Graph.action?_filedAs]
  cases g.action? id with
  | none => rfl
  | some a =>
    have hlog (outcome : SimOutcome) : st.log (a.filedAs stored) outcome = st.log a outcome := rfl
    have houtcome : outcomeOf st.options (a.filedAs stored) = outcomeOf st.options a := rfl
    have hfail : failGraph (g.filedAs stored) id = (failGraph g id).filedAs stored :=
      Engine.failExecuted_filedAs g id stored "Event failed"
    simp only [Option.map_some, hlog, houtcome, hfail, Graph.confirmAction, Graph.settle_filedAs,
      Graph.update_filedAs]
    split <;> rfl

end ClusterTransition
