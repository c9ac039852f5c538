import ClusterTransition.Proofs.Engine.Numbering
import ClusterTransition.Proofs.Timers

/-! # The chronicle of fencing

What an engine keeps about fencing are two tables: the requests whose outcome is awaited, and the
failures of each node.  Both are determined by what happened outside: which requests the cluster
accepted, which outcomes were reported to the engine, and which nodes were said to be safe.  This
module has the list of these events, newest first, what the two tables should be for it
(`FencingLog.outstanding?` and `FencingLog.failures`), and what each operation of an engine does to
the tables and the list.

The cluster writes the list, but for the outcomes: it sees which requests it accepts and which words
of safety it takes (`Cluster.chronicling`).
-/

namespace ClusterTransition

/-- Something that happened to the fencing of nodes. -/
inductive FencingEvent where
  /-- The cluster accepted a request for a graph of the transition, under a call number. -/
  | accepted (call : Nat) (target : String) (transition : Int)
  /-- The outcome of a call was reported on a graph of the transition. -/
  | reported (call : Nat) (transition : Int) (success : Bool)
  /-- The cluster took the word that the target is safe, given on a graph of the transition. -/
  | safe (target : String) (transition : Int)
  deriving DecidableEq, Repr

/-- What happened to the fencing of nodes, newest first. -/
abbrev FencingLog := List FencingEvent

namespace FencingLog

/-- The numbers of the requests that were accepted. -/
def calls : FencingLog → List Nat
  | [] => []
  | .accepted call _ _ :: older => call :: calls older
  | .reported .. :: older | .safe .. :: older => calls older

/-- The target and the transition of a request that was accepted and not concluded since: neither was
its outcome reported, on whatever graph, nor was its target said to be safe on a graph of its
transition. -/
def outstanding? (call : Nat) : FencingLog → Option (String × Int)
  | [] => none
  | .accepted number target transition :: older =>
    if number = call then some (target, transition) else outstanding? call older
  | .reported number _ _ :: older => if number = call then none else outstanding? call older
  | .safe target transition :: older =>
    if outstanding? call older = some (target, transition) then none else outstanding? call older

/-- A request to fence the target for the transition is outstanding. -/
def Awaits (target : String) (transition : Int) (log : FencingLog) : Prop :=
  ∃ call, log.outstanding? call = some (target, transition)

variable {call : Nat} {target : String} {transition : Int} {log new : FencingLog}

theorem mem_calls_of_outstanding {request : String × Int}
    (h : log.outstanding? call = some request) : call ∈ log.calls := by
  induction log with
  | nil => cases h
  | cons event older ih =>
    cases event with
    | accepted number =>
      simp only [outstanding?] at h
      split at h
      · rename_i hnumber
        exact hnumber ▸ List.mem_cons_self ..
      · exact List.mem_cons_of_mem _ (ih h)
    | reported number =>
      simp only [outstanding?] at h
      split at h
      · cases h
      · exact ih h
    | safe =>
      simp only [outstanding?] at h
      split at h
      · cases h
      · exact ih h

theorem awaits_iff : log.Awaits target transition ↔
    ∃ call ∈ log.calls, log.outstanding? call = some (target, transition) :=
  ⟨fun ⟨call, h⟩ => ⟨call, mem_calls_of_outstanding h, h⟩, fun ⟨call, _, h⟩ => ⟨call, h⟩⟩

instance (target : String) (transition : Int) (log : FencingLog) :
    Decidable (log.Awaits target transition) :=
  decidable_of_iff _ awaits_iff.symm

/-- How often the fencing of a target has failed in a row: the failures that were reported for its
outstanding requests, on graphs of their transitions, since a success was reported so, or the target
was said to be safe while a request was outstanding. -/
def failures (target : String) : FencingLog → Nat
  | [] => 0
  | .accepted .. :: older => failures target older
  | .reported call transition success :: older =>
    if outstanding? call older = some (target, transition) then
      if success then 0 else failures target older + 1
    else failures target older
  | .safe safeTarget transition :: older =>
    if safeTarget = target ∧ Awaits target transition older then 0 else failures target older

theorem calls_append : (new ++ log).calls = new.calls ++ log.calls := by
  induction new with
  | nil => rfl
  | cons event older ih => cases event <;> simp [calls, ih]

/-- What is not outstanding stays so unless the number is given again. -/
theorem outstanding?_append_eq_none (h : log.outstanding? call = none) (hnew : call ∉ new.calls) :
    (new ++ log).outstanding? call = none := by
  induction new with
  | nil => exact h
  | cons event older ih =>
    cases event with
    | accepted number =>
      simp only [calls, List.mem_cons, not_or] at hnew
      simp only [List.cons_append, outstanding?, if_neg (Ne.symm hnew.1), ih hnew.2]
    | reported | safe =>
      simp only [List.cons_append, outstanding?, ih hnew, ite_self]

end FencingLog

/-! ## The cluster that keeps the list -/

/-- The cluster, which writes down what it accepts on behalf of a graph of the transition. -/
def Cluster.chronicling {ε : Type} (c : Cluster ε) (transition : Int) :
    Cluster (ε × FencingLog) where
  send node q env := ((c.send node q env.1).1, (c.send node q env.1).2, env.2)
  storeStatus a status rc env :=
    ((c.storeStatus a status rc env.1).1, (c.storeStatus a status rc env.1).2, env.2)
  storeFenced target uuid env :=
    ((c.storeFenced target uuid env.1).1, (c.storeFenced target uuid env.1).2, env.2)
  fence target kind timeout env :=
    match c.fence target kind timeout env.1 with
    | (none, env₁) => (none, env₁, env.2)
    | (some call, env₁) => (some call, env₁, .accepted call target transition :: env.2)
  confirmSafe target env :=
    match c.confirmSafe target env.1 with
    | (.error err, env₁) => (.error err, env₁, env.2)
    | (.ok (), env₁) => (.ok (), env₁, .safe target transition :: env.2)

namespace Engine

variable {ε : Type}

/-- The part of an engine that is about fencing, with the list that the cluster writes. -/
structure Fencing where
  calls : Table Nat FenceCall
  failures : Table String Nat
  maxAttempts : Nat
  log : FencingLog

/-- What the engine keeps about fencing. -/
def fencing (e : Engine (ε × FencingLog)) : Fencing where
  calls := e.fenceCalls
  failures := e.fenceFailures
  maxAttempts := e.maxFenceAttempts
  log := e.env.2

/-! ## Steps that have nothing to do with fencing -/

section Frame

variable (c : Cluster ε) (transition : Int) (e : Engine (ε × FencingLog)) (g : Graph)

@[simp] theorem fencing_finishAction (id : ActionId) :
    (e.finishAction g id).2.fencing = e.fencing := by
  obtain ⟨ledger, h⟩ := exists_finishAction g e id
  rw [h]
  rfl

@[simp] theorem fencing_startActionTimer (id : ActionId) :
    (e.startActionTimer g id).2.fencing = e.fencing := by
  simp only [startActionTimer]
  split <;> rfl

@[simp] theorem fencing_resourceSent (a : Action) :
    (e.resourceSent g a).2.fencing = e.fencing := by
  simp only [resourceSent]
  split
  · rfl
  · split
    · rfl
    · exact fencing_startActionTimer ..

@[simp] theorem fencing_recordStatus (id : ActionId) (status : OpStatus) (rc : Int) :
    (e.recordStatus (c.chronicling transition) g id status rc).2.fencing = e.fencing := by
  simp only [recordStatus]
  split <;> rfl

@[simp] theorem fencing_sendRequest (a : Action) (target : String) :
    (e.sendRequest (c.chronicling transition) g a target).2.fencing = e.fencing := rfl

theorem fencing_expectDown (node : String) : (e.expectDown node).fencing = e.fencing := by
  simp only [expectDown]
  split <;> rfl

theorem fencing_actionConfirmed (id : ActionId) :
    (e.actionConfirmed g id).2.fencing = e.fencing := by
  simp only [actionConfirmed, release]
  split
  · rfl
  · split <;> rfl

theorem fencing_processResult (r : ActionResult) :
    (e.processResult g r).2.2.fencing = e.fencing := by
  simp only [processResult]
  split
  · rfl
  · split
    · rfl
    · exact fencing_finishAction ..

theorem fencing_actionTimedOut (id : ActionId) :
    (e.actionTimedOut (c.chronicling transition) g id).2.2.fencing = e.fencing := by
  simp only [actionTimedOut]
  split
  · rfl
  · split
    · rfl
    · refine (fencing_finishAction ..).trans ?_
      split
      · exact fencing_recordStatus ..
      · rfl

theorem fencing_dispatchResource (id : ActionId) :
    (dispatchResource (c.chronicling transition) id g e).2.2.fencing = e.fencing := by
  simp only [dispatchResource]
  split
  · rfl
  · rename_i a _
    split
    · rfl
    · rename_i target _
      have hsend := fencing_sendRequest c transition e g a target
      rcases hsent : e.sendRequest (c.chronicling transition) g a target with ⟨_ | _, e'⟩ <;>
        rw [hsent] at hsend
      · exact hsend
      · dsimp only
        split
        · rw [fencing_recordStatus, fencing_resourceSent]
          exact hsend
        · exact (fencing_resourceSent ..).trans hsend

theorem fencing_dispatchEvent (id : ActionId) :
    (dispatchEvent (c.chronicling transition) id g e).2.2.fencing = e.fencing := by
  simp only [dispatchEvent]
  split
  · rfl
  · rename_i a _
    split
    · rfl
    · rename_i target _
      split
      · exact fencing_finishAction ..
      · have hdown : (if a.task = some "do_shutdown" then
            e.expectDown (a.route.getD target) else e).fencing = e.fencing := by
          split
          · exact fencing_expectDown ..
          · rfl
        generalize (if a.task = some "do_shutdown" then
          e.expectDown (a.route.getD target) else e) = e₁ at hdown
        have hsend := (fencing_sendRequest c transition e₁ g a target).trans hdown
        rcases hsent : e₁.sendRequest (c.chronicling transition) g a target with ⟨_ | _, e'⟩ <;>
          rw [hsent] at hsend
        · exact hsend
        · dsimp only
          split
          · exact (fencing_finishAction ..).trans hsend
          · exact (fencing_startActionTimer ..).trans hsend

end Frame

/-! ## Requests -/

/-- The engine comes to `e'`, and may have asked for the fencing of one node on behalf of a graph of
the transition. -/
def MayAsk (transition : Int) (e e' : Engine (ε × FencingLog)) : Prop :=
  e'.fencing = e.fencing ∨ ∃ call fence, fence.transition = transition ∧ e'.fencing =
    { e.fencing with
      calls := e.fenceCalls.insert call fence
      log := .accepted call fence.target transition :: e.env.2 }

theorem dispatch_mayAsk (c : Cluster ε) {transition : Int} (channel : Channel) (id : ActionId)
    {g : Graph} (hg : g.id = transition) (e : Engine (ε × FencingLog)) :
    MayAsk transition e
      ((dispatcher (c.chronicling transition)).dispatch channel id g e).2.2 := by
  cases channel with
  | pseudo => exact .inl (fencing_finishAction ..)
  | resource => exact .inl (fencing_dispatchResource ..)
  | clusterEvent => exact .inl (fencing_dispatchEvent ..)
  | fencing =>
    simp only [dispatcher, dispatchFencing]
    split
    · exact .inl rfl
    · split
      · rename_i target uuid kind _ _ _
        simp only [Cluster.chronicling]
        rcases c.fence target kind g.stonithTimeout.toNat e.env.1 with ⟨_ | call, env⟩
        · exact .inl rfl
        · exact .inr ⟨call, _, hg, rfl⟩
      · exact .inl rfl

/-! ## Conclusions -/

section Conclusions

variable (c : Cluster ε) (transition : Int) (e : Engine (ε × FencingLog)) (g : Graph)

theorem fencing_nodeFenced (fence : FenceCall) :
    (e.nodeFenced (c.chronicling transition) g fence).2.fencing =
      { e.fencing with failures := e.fenceFailures.erase fence.target } :=
  fencing_finishAction ..

theorem fencing_fencingFailed (fence : FenceCall) :
    (e.fencingFailed g fence).2.fencing = { e.fencing with
      failures := e.fenceFailures.insert fence.target (e.fenceFailuresOf fence.target + 1) } :=
  fencing_finishAction ..

/-- What the report of an outcome comes to. -/
inductive Reported (e : Engine (ε × FencingLog)) (g : Graph) (call : Nat) (success : Bool) :
    Except Error Bool × Graph × Engine (ε × FencingLog) → Prop where
  | unknown (hget : e.fenceCalls.get? call = none) :
      Reported e g call success (.error (.unknownFenceCall call), g, e)
  /-- The request was for a graph of another transition.  It is dropped. -/
  | stale {fence : FenceCall} (hget : e.fenceCalls.get? call = some fence)
      (hother : fence.transition ≠ g.id) :
      Reported e g call success (.error (.staleResult g.id fence.transition), g,
        { e with fenceCalls := e.fenceCalls.erase call })
  | applied {fence : FenceCall} {g' : Graph} {e' : Engine (ε × FencingLog)}
      (hget : e.fenceCalls.get? call = some fence) (hsame : fence.transition = g.id)
      (hfencing : e'.fencing = { e.fencing with
        calls := e.fenceCalls.erase call
        failures := if success then e.fenceFailures.erase fence.target
          else e.fenceFailures.insert fence.target (e.fenceFailuresOf fence.target + 1) }) :
      Reported e g call success (.ok true, g', e')

theorem fencingResult_reported (call : Nat) (outcome : Except String Unit) :
    Reported e g call outcome.isOk
      (e.fencingResult (c.chronicling transition) g call outcome) := by
  simp only [fencingResult]
  split
  · rename_i hget
    exact .unknown hget
  · rename_i fence hget
    split
    · rename_i hother
      exact .stale hget hother
    · rename_i hsame
      split
      · exact .applied hget (not_not.mp hsame) (fencing_nodeFenced c transition ..)
      · exact .applied hget (not_not.mp hsame) (fencing_fencingFailed ..)

/-- Completing requests for one target takes them from the table, and forgets the failures of the
target if there is a request at all. -/
theorem fencing_completeFencing {target : String} (requests : List (Nat × FenceCall))
    (htarget : ∀ f ∈ requests, f.2.target = target) :
    let e' := (e.completeFencing (c.chronicling transition) g requests).2
    e'.env.2 = e.env.2 ∧ e'.maxFenceAttempts = e.maxFenceAttempts ∧
      (∀ call, e'.fenceCalls.get? call =
        if call ∈ requests.map (·.1) then none else e.fenceCalls.get? call) ∧
      ∀ node, e'.fenceFailures.get? node =
        if node = target ∧ requests ≠ [] then none else e.fenceFailures.get? node := by
  induction requests generalizing e g with
  | nil => simp [completeFencing]
  | cons head rest ih =>
    obtain ⟨hhead, hrest⟩ := List.forall_mem_cons.mp htarget
    let erased : Engine (ε × FencingLog) := { e with fenceCalls := e.fenceCalls.erase head.1 }
    have hfenced := fencing_nodeFenced c transition erased g head.2
    obtain ⟨hcalls, hfailures, hlimit, hlog⟩ : _ ∧ _ ∧ _ ∧ _ := by simpa [fencing] using hfenced
    obtain ⟨hlog', hlimit', hcalls', hfailures'⟩ :=
      ih (erased.nodeFenced (c.chronicling transition) g head.2).2
        (erased.nodeFenced (c.chronicling transition) g head.2).1 hrest
    refine ⟨hlog'.trans hlog, hlimit'.trans hlimit, fun call => ?_, fun node => ?_⟩
    · refine (hcalls' call).trans ?_
      rw [hcalls, Table.get?_erase]
      by_cases hcall : call = head.1
      · simp [hcall]
      · simp only [List.map_cons, List.mem_cons, hcall, false_or, if_false]
    · refine (hfailures' node).trans ?_
      rw [hfailures, Table.get?_erase, hhead]
      by_cases hnode : node = target
      · simp [hnode]
      · simp [hnode, erased]

end Conclusions

/-! ## What the engine keeps is what happened -/

/-- The tables of the engine are those that the list determines. -/
structure Chronicled (e : Engine (ε × FencingLog)) : Prop where
  calls : ∀ call, (e.fenceCalls.get? call).map (fun f => (f.target, f.transition)) =
    e.env.2.outstanding? call
  failures : ∀ target, e.fenceFailures.get? target =
    if e.env.2.failures target = 0 then none else some (e.env.2.failures target)

/-- The outstanding requests for a node on behalf of a transition. -/
def requestsFor (e : Engine (ε × FencingLog)) (target : String) (transition : Int) :
    List (Nat × FenceCall) :=
  e.fenceCalls.entries.filter fun f => f.2.target = target && f.2.transition = transition

/-- The engine, with something written down. -/
def note (e : Engine (ε × FencingLog)) (events : FencingLog) : Engine (ε × FencingLog) :=
  { e with env := (e.env.1, events ++ e.env.2) }

section Safety

variable {c : Cluster ε} {transition : Int} {e : Engine (ε × FencingLog)} {g : Graph}
  {target : String} {env : ε}

theorem confirmNodeSafe_of_refused {err : Error}
    (hrefused : c.confirmSafe target e.env.1 = (.error err, env)) :
    e.confirmNodeSafe (c.chronicling transition) g target =
      (.error err, g, { e with env := (env, e.env.2) }) := by
  have hlogged : (c.chronicling transition).confirmSafe target e.env =
      (.error err, env, e.env.2) := by simp only [Cluster.chronicling, hrefused]
  simp only [confirmNodeSafe, hlogged]

theorem confirmNodeSafe_of_taken (htaken : c.confirmSafe target e.env.1 = (.ok (), env)) :
    e.confirmNodeSafe (c.chronicling g.id) g target =
      (.ok !(e.requestsFor target g.id).isEmpty,
        completeFencing (c.chronicling g.id) { e with env := (env, .safe target g.id :: e.env.2) } g
          (e.requestsFor target g.id)) := by
  have hlogged : (c.chronicling g.id).confirmSafe target e.env =
      (.ok (), env, .safe target g.id :: e.env.2) := by simp only [Cluster.chronicling, htaken]
  simp only [confirmNodeSafe, hlogged, requestsFor]

theorem target_of_mem_requestsFor {transition : Int} {f : Nat × FenceCall}
    (hf : f ∈ e.requestsFor target transition) : f.2.target = target := by
  simp only [requestsFor, List.mem_filter, Bool.and_eq_true, decide_eq_true_eq] at hf
  exact hf.2.1

/-- A word of safety that is taken completes the requests for its target, and forgets the failures
of the target if there is a request. -/
theorem fencing_of_taken (htaken : c.confirmSafe target e.env.1 = (.ok (), env)) :
    let e' := (e.confirmNodeSafe (c.chronicling g.id) g target).2.2
    e'.env.2 = .safe target g.id :: e.env.2 ∧ e'.maxFenceAttempts = e.maxFenceAttempts ∧
      (∀ call, e'.fenceCalls.get? call =
        if call ∈ (e.requestsFor target g.id).map (·.1) then none else e.fenceCalls.get? call) ∧
      ∀ node, e'.fenceFailures.get? node =
        if node = target ∧ e.requestsFor target g.id ≠ [] then none
        else e.fenceFailures.get? node := by
  rw [confirmNodeSafe_of_taken htaken]
  exact fencing_completeFencing c g.id { e with env := (env, .safe target g.id :: e.env.2) } g
    (e.requestsFor target g.id) fun f hf => target_of_mem_requestsFor hf

end Safety

namespace Chronicled

variable {c : Cluster ε} {transition : Int} {e e' : Engine (ε × FencingLog)} {g : Graph}

theorem of_fencing (h : e.Chronicled) (hsame : e'.fencing = e.fencing) : e'.Chronicled := by
  obtain ⟨hcalls, hfailures, -, hlog⟩ : _ ∧ _ ∧ _ ∧ _ := by simpa [fencing] using hsame
  exact ⟨by rw [hcalls, hlog]; exact h.calls, by rw [hfailures, hlog]; exact h.failures⟩

theorem fenceFailuresOf (h : e.Chronicled) (target : String) :
    e.fenceFailuresOf target = e.env.2.failures target := by
  rw [Engine.fenceFailuresOf, h.failures]
  split
  · rename_i hzero
    exact hzero.symm
  · rfl

theorem mayAsk (h : e.Chronicled) (hask : MayAsk transition e e') : e'.Chronicled := by
  rcases hask with hsame | ⟨call, fence, htransition, hasked⟩
  · exact h.of_fencing hsame
  · obtain ⟨hcalls, hfailures, -, hlog⟩ : _ ∧ _ ∧ _ ∧ _ := by simpa [fencing] using hasked
    refine ⟨fun number => ?_, fun target => ?_⟩
    · rw [hcalls, hlog, Table.get?_insert, FencingLog.outstanding?, ← h.calls number]
      by_cases hnumber : number = call
      · simp [hnumber, htransition]
      · simp [hnumber, Ne.symm hnumber]
    · rw [hfailures, hlog]
      exact h.failures target

/-- A request is known by its number just if it is outstanding. -/
theorem get?_eq_none_iff (h : e.Chronicled) {call : Nat} :
    e.fenceCalls.get? call = none ↔ e.env.2.outstanding? call = none := by
  rw [← h.calls, Option.map_eq_none_iff]

theorem outstanding?_of_get? (h : e.Chronicled) {call : Nat} {fence : FenceCall}
    (hget : e.fenceCalls.get? call = some fence) :
    e.env.2.outstanding? call = some (fence.target, fence.transition) := by
  rw [← h.calls, hget]
  rfl

/-- After a report the request is no longer outstanding, whatever the report comes to. -/
theorem calls_of_report (h : e.Chronicled) {call : Nat} {success : Bool}
    (hcalls : ∀ number, e'.fenceCalls.get? number =
      if number = call then none else e.fenceCalls.get? number)
    (hlog : e'.env.2 = .reported call transition success :: e.env.2) (number : Nat) :
    (e'.fenceCalls.get? number).map (fun f => (f.target, f.transition)) =
      e'.env.2.outstanding? number := by
  rw [hcalls, hlog, FencingLog.outstanding?]
  by_cases hnumber : number = call
  · rw [if_pos hnumber, if_pos hnumber.symm]
    rfl
  · rw [if_neg hnumber, if_neg (Ne.symm hnumber), h.calls]

/-- **The outcome of a request is reported.** -/
theorem fencingResult (h : e.Chronicled) (call : Nat) (outcome : Except String Unit) :
    ((e.fencingResult (c.chronicling transition) g call outcome).2.2.note
      [.reported call g.id outcome.isOk]).Chronicled := by
  have hreported := fencingResult_reported c transition e g call outcome
  generalize e.fencingResult (c.chronicling transition) g call outcome = out at hreported ⊢
  have herase (number : Nat) : (e.fenceCalls.erase call).get? number =
      if number = call then none else e.fenceCalls.get? number := Table.get?_erase ..
  cases hreported with
  | unknown hget =>
    have hnone := h.get?_eq_none_iff.mp hget
    refine ⟨h.calls_of_report (fun number => ?_) rfl, fun target => ?_⟩
    · by_cases hnumber : number = call
      · rw [if_pos hnumber, hnumber]
        exact hget
      · rw [if_neg hnumber]
        rfl
    · have hsame : FencingLog.failures target (.reported call g.id outcome.isOk :: e.env.2) =
          e.env.2.failures target := by simp [FencingLog.failures, hnone]
      exact (h.failures target).trans (by rw [← hsame]; rfl)
  | stale hget hother =>
    have hrequest := h.outstanding?_of_get? hget
    refine ⟨h.calls_of_report herase rfl, fun target => ?_⟩
    have hsame : FencingLog.failures target (.reported call g.id outcome.isOk :: e.env.2) =
        e.env.2.failures target := by simp [FencingLog.failures, hrequest, hother]
    exact (h.failures target).trans (by rw [← hsame]; rfl)
  | @applied fence g' e' hget htransition hfencing =>
    have hrequest := h.outstanding?_of_get? hget
    obtain ⟨hcalls, hfailures, -, hlog⟩ : _ ∧ _ ∧ _ ∧ _ := by simpa [fencing] using hfencing
    refine ⟨h.calls_of_report (fun number => hcalls ▸ herase number)
      (congrArg (FencingEvent.reported call g.id outcome.isOk :: ·) hlog), fun target => ?_⟩
    have hfailures' : (e'.note [.reported call g.id outcome.isOk]).env.2.failures target =
        if fence.target = target then
          if outcome.isOk then 0 else e.env.2.failures target + 1
        else e.env.2.failures target := by
      simp [note, FencingLog.failures, hlog, hrequest, htransition]
    rw [hfailures']
    refine (congrArg (Table.get? · target) hfailures).trans ?_
    rw [h.fenceFailuresOf]
    have hkept := h.failures target
    by_cases htarget : target = fence.target
    · subst htarget
      cases outcome.isOk <;> simp [Table.get?_erase, Table.get?_insert]
    · cases outcome.isOk <;>
        simp [Table.get?_erase, Table.get?_insert, htarget, Ne.symm htarget, hkept]

/-- The requests that a word of safety completes are the outstanding ones for the target. -/
theorem mem_requestsFor (h : e.Chronicled) {target : String} {call : Nat} :
    call ∈ (e.requestsFor target transition).map (·.1) ↔
      e.env.2.outstanding? call = some (target, transition) := by
  rw [← h.calls, Option.map_eq_some_iff]
  simp only [requestsFor, List.mem_map, List.mem_filter, Bool.and_eq_true, decide_eq_true_eq,
    Prod.exists, ← Table.get?_eq_some_iff, Prod.mk.injEq]
  constructor
  · rintro ⟨number, fence, ⟨hget, hrequest⟩, rfl⟩
    exact ⟨fence, hget, hrequest⟩
  · rintro ⟨fence, hget, hrequest⟩
    exact ⟨call, fence, ⟨hget, hrequest⟩, rfl⟩

theorem requestsFor_ne_nil_iff (h : e.Chronicled) {target : String} :
    e.requestsFor target transition ≠ [] ↔ e.env.2.Awaits target transition := by
  constructor
  · intro hsome
    obtain ⟨head, hhead⟩ := List.exists_mem_of_ne_nil _ hsome
    exact ⟨head.1, h.mem_requestsFor.mp (List.mem_map_of_mem hhead)⟩
  · rintro ⟨call, hcall⟩ hnil
    have hmem := h.mem_requestsFor.mpr hcall
    rw [hnil] at hmem
    cases hmem

/-- **A node is said to be safe.** -/
theorem confirmNodeSafe (h : e.Chronicled) (target : String) :
    (e.confirmNodeSafe (c.chronicling g.id) g target).2.2.Chronicled := by
  rcases htold : c.confirmSafe target e.env.1 with ⟨_ | _, env⟩
  · rw [confirmNodeSafe_of_refused htold]
    exact h.of_fencing rfl
  · obtain ⟨hlog, -, hcalls, hfailures⟩ := fencing_of_taken htold
    refine ⟨fun call => ?_, fun node => ?_⟩
    · rw [hcalls, hlog, FencingLog.outstanding?]
      by_cases hmem : call ∈ (e.requestsFor target g.id).map (·.1)
      · rw [if_pos hmem, if_pos (h.mem_requestsFor.mp hmem)]
        rfl
      · rw [if_neg hmem, if_neg (mt h.mem_requestsFor.mpr hmem)]
        exact h.calls call
    · have hkept := h.failures node
      rw [hfailures, hlog, FencingLog.failures]
      by_cases hnode : node = target
      · subst hnode
        by_cases hawaits : e.env.2.Awaits node g.id
        · simp [hawaits, h.requestsFor_ne_nil_iff.mpr hawaits]
        · simp [hawaits, not_not.mp (mt h.requestsFor_ne_nil_iff.mp hawaits), hkept]
      · simp [hnode, Ne.symm hnode, hkept]

end Chronicled
end Engine
end ClusterTransition
