import ClusterTransition.Proofs.Engine.Once
import ClusterTransition.Proofs.Engine.Waiting
import ClusterTransition.Proofs.Fencing.Chronicle
import Mathlib.Data.List.Nodup

/-! # Fencing requests are settled once

An engine may work on several graphs, one after the other or by turns, and all fencing requests are
in one table.  A history lists what was done to the engine, each operation with the graph that it
was done on.  Whatever the history, the tables of the engine are those of the chronicle, so a
request is settled just if it is outstanding.  It is settled once, since the number of a request
that has left the table comes back only if the cluster gives it again.
-/

namespace ClusterTransition

namespace FencingLog

variable {call : Nat} {log new : FencingLog}

/-- The log tells of requests only. -/
def Asks (log : FencingLog) : Prop :=
  ∀ event ∈ log, ∃ call target transition, event = .accepted call target transition

/-- More requests conclude none. -/
theorem outstanding?_ne_none_append (hnew : new.Asks) (h : log.outstanding? call ≠ none) :
    (new ++ log).outstanding? call ≠ none := by
  induction new with
  | nil => exact h
  | cons event older ih =>
    obtain ⟨number, target, transition, rfl⟩ := hnew event (List.mem_cons_self ..)
    simp only [List.cons_append, outstanding?]
    split
    · simp
    · exact ih fun event hevent => hnew event (List.mem_cons_of_mem _ hevent)

end FencingLog

namespace Engine

variable {ε : Type}

/-! ## Operations -/

/-- Something that is done to an engine, on a graph or beside all graphs. -/
inductive Operation (ε : Type) where
  | turn (t : Turn)
  /-- One dispatch, outside a pass. -/
  | dispatch (channel : Channel) (id : ActionId)
  | start
  | requestPass
  | takePassRequest
  | timers (change : Timers → Timers)
  | policy (jobLimit : String → Int)
  /-- The surroundings change by themselves. -/
  | cluster (change : ε → ε)

namespace Operation

/-- What an operation does. -/
def act (c : Cluster (ε × FencingLog)) :
    Operation ε → Graph × Engine (ε × FencingLog) → Graph × Engine (ε × FencingLog)
  | turn t, s => t.make c s
  | dispatch channel id, (g, e) => ((dispatcher c).dispatch channel id g e).2
  | start, (g, e) => (g, e.startTransition)
  | requestPass, (g, e) => (g, e.requestPass)
  | takePassRequest, (g, e) => (g, e.takePassRequest.2)
  | timers change, (g, e) => (g, { e with timers := change e.timers })
  | policy jobLimit, (g, e) => (g, { e with jobLimit })
  | cluster change, (g, e) => (g, { e with env := (change e.env.1, e.env.2) })

/-- The outcome that an operation on a graph of the transition reports. -/
def reports (transition : Int) : Operation ε → FencingLog
  | turn (.move (.fencing call outcome)) => [.reported call transition outcome.isOk]
  | _ => []

/-- The operation on a graph, with everything written down that it means for fencing. -/
def perform (c : Cluster ε) (g : Graph) (op : Operation ε) (e : Engine (ε × FencingLog)) :
    Graph × Engine (ε × FencingLog) :=
  let s := op.act (c.chronicling g.id) (g, e)
  (s.1, s.2.note (op.reports g.id))

/-- The engine answers the operation with an error. -/
def isRefused (c : Cluster ε) (g : Graph) (e : Engine (ε × FencingLog)) : Operation ε → Bool
  | turn (.move (.result r)) => !(e.processResult g r).1.isOk
  | turn (.move (.fencing call outcome)) =>
    !(e.fencingResult (c.chronicling g.id) g call outcome).1.isOk
  | turn (.move (.nodeSafe target)) => !(e.confirmNodeSafe (c.chronicling g.id) g target).1.isOk
  | _ => false

/-- The requests that an operation settles: those that the engine takes from its table without
refusing the operation. -/
def settled (c : Cluster ε) (g : Graph) (op : Operation ε) (e : Engine (ε × FencingLog)) :
    List Nat :=
  if op.isRefused c g e then []
  else e.fenceCalls.keys.filter fun call => (op.perform c g e).2.fenceCalls.get? call = none

/-- The operation is about the outcome of the request, or gives word that its target is safe, which
the cluster takes. -/
def Concludes (c : Cluster ε) (e : Engine (ε × FencingLog)) (call : Nat) (target : String) :
    Operation ε → Prop
  | turn (.move (.fencing number _)) => number = call
  | turn (.move (.nodeSafe safeTarget)) =>
    safeTarget = target ∧ (c.confirmSafe target e.env.1).1.isOk = true
  | _ => False

/-- The engine after a history. -/
def performAll (c : Cluster ε) (history : List (Graph × Operation ε))
    (e : Engine (ε × FencingLog)) : Engine (ε × FencingLog) :=
  history.foldl (fun e done => (done.2.perform c done.1 e).2) e

/-- The requests that the operations of a history settle, in order. -/
def settlements (c : Cluster ε) : List (Graph × Operation ε) → Engine (ε × FencingLog) → List Nat
  | [], _ => []
  | (g, op) :: rest, e => op.settled c g e ++ settlements c rest (op.perform c g e).2

end Operation

/-! ## Operations that conclude nothing -/

/-- The engine comes to `e'` by steps that ask for fencing and conclude none. -/
structure Asked (e e' : Engine (ε × FencingLog)) : Prop where
  chronicled : e.Chronicled → e'.Chronicled
  limit : e'.maxFenceAttempts = e.maxFenceAttempts
  log : ∃ new : FencingLog, new.Asks ∧ e'.env.2 = new ++ e.env.2

namespace Asked

variable {e e₁ e' : Engine (ε × FencingLog)} {transition : Int} {call : Nat}

theorem of_mayAsk (h : MayAsk transition e e') : Asked e e' := by
  refine ⟨fun hchronicled => hchronicled.mayAsk h, ?_, ?_⟩
  · rcases h with hsame | ⟨call, fence, -, hasked⟩
    · exact congrArg Fencing.maxAttempts hsame
    · exact congrArg Fencing.maxAttempts hasked
  · rcases h with hsame | ⟨call, fence, -, hasked⟩
    · exact ⟨[], by simp [FencingLog.Asks], congrArg Fencing.log hsame⟩
    · exact ⟨[.accepted call fence.target transition], by simp [FencingLog.Asks],
        congrArg Fencing.log hasked⟩

theorem of_fencing (h : e'.fencing = e.fencing) : Asked e e' :=
  of_mayAsk (show MayAsk 0 e e' from .inl h)

theorem trans (h : Asked e e₁) (h' : Asked e₁ e') : Asked e e' := by
  obtain ⟨new, hnew, hlog⟩ := h.log
  obtain ⟨newer, hnewer, hlog'⟩ := h'.log
  refine ⟨h'.chronicled ∘ h.chronicled, h'.limit.trans h.limit, newer ++ new, ?_, ?_⟩
  · intro event hevent
    exact (List.mem_append.mp hevent).elim (hnewer event) (hnew event)
  · rw [hlog', hlog, List.append_assoc]

/-- Requests stay in the table. -/
theorem get?_ne_none (h : Asked e e') (hchronicled : e.Chronicled)
    (hget : e.fenceCalls.get? call ≠ none) : e'.fenceCalls.get? call ≠ none := by
  obtain ⟨new, hnew, hlog⟩ := h.log
  rw [ne_eq, (h.chronicled hchronicled).get?_eq_none_iff, hlog]
  exact FencingLog.outstanding?_ne_none_append hnew (mt hchronicled.get?_eq_none_iff.mpr hget)

end Asked

/-- The graph is one of the transition, and the engine has come there by asking. -/
structure AskedFor (transition : Int) (e : Engine (ε × FencingLog))
    (s : Graph × Engine (ε × FencingLog)) : Prop where
  id : s.1.id = transition
  asked : Asked e s.2

theorem AskedFor.step {c : Cluster ε} {transition : Int} {e : Engine (ε × FencingLog)}
    {x y : PassState (Engine (ε × FencingLog))} (h : AskedFor transition e (x.graph, x.state))
    (hstep : PassStep (dispatcher (c.chronicling transition)) x y) :
    AskedFor transition e (y.graph, y.state) := by
  have hid := (Graph.id_of_plan (hstep.plan (dispatcher_handles _))).trans h.id
  cases hstep with
  | @dispatch g g' e' e'' pos slot slots a channel _ _ _ hgoes =>
    have hask := dispatch_mayAsk c channel a.id (g := g.setStatusAt slot .executed) h.id e'
    rw [hgoes] at hask
    exact ⟨hid, h.asked.trans (.of_mayAsk hask)⟩
  | @refuse g g' e' e'' pos slot slots a channel _ _ _ hstays =>
    have hask := dispatch_mayAsk c channel a.id (g := g.setStatusAt slot .executed) h.id e'
    rw [hstays] at hask
    exact ⟨hid, h.asked.trans (.of_mayAsk hask)⟩
  | count | ready | skip | fire | unroutable | again | fired | conclude => exact ⟨hid, h.asked⟩

/-- **A pass concludes no request.** -/
theorem asked_pass (c : Cluster ε) (g : Graph) (e : Engine (ε × FencingLog)) :
    Asked e (g.run (dispatcher (c.chronicling g.id)) e).2.2 :=
  (Graph.run_induction (dispatcher_steady _)
    (P := fun x => AskedFor g.id e (x.graph, x.state)) (fun _ _ hstep hx => hx.step hstep)
    g e ⟨rfl, .of_fencing rfl⟩).asked

/-- The operation neither reports an outcome nor gives word of safety. -/
def Operation.Quiet : Operation ε → Prop
  | turn (.move (.fencing ..)) | turn (.move (.nodeSafe _)) => False
  | _ => True

theorem Operation.quiet_or (op : Operation ε) : op.Quiet ∨
    (∃ call outcome, op = .turn (.move (.fencing call outcome))) ∨
      ∃ target, op = .turn (.move (.nodeSafe target)) := by
  unfold Quiet
  split
  · exact .inr (.inl ⟨_, _, rfl⟩)
  · exact .inr (.inr ⟨_, rfl⟩)
  · exact .inl trivial

theorem Operation.Quiet.asked {op : Operation ε} (h : op.Quiet) (c : Cluster ε) (g : Graph)
    (e : Engine (ε × FencingLog)) : Asked e (op.perform c g e).2 := by
  cases op with
  | turn t =>
    cases t with
    | move m =>
      cases m with
      | pass => exact asked_pass c g e
      | result r => exact .of_fencing (fencing_processResult e g r)
      | timeout id => exact .of_fencing (fencing_actionTimedOut c g.id e g id)
      | fencing | nodeSafe => exact h.elim
      | abort => exact .of_fencing rfl
    | confirmed id => exact .of_fencing (fencing_actionConfirmed e g id)
    | dryPass => exact .of_fencing rfl
  | dispatch channel id => exact .of_mayAsk (dispatch_mayAsk c channel id rfl e)
  | start | requestPass | takePassRequest | timers | policy | cluster => exact .of_fencing rfl

/-! ## All operations -/

/-- The engine comes to `e'`, and what it keeps about fencing stays that of the list. -/
structure Follows (e e' : Engine (ε × FencingLog)) : Prop where
  chronicled : e.Chronicled → e'.Chronicled
  limit : e'.maxFenceAttempts = e.maxFenceAttempts
  grown : e.env.2 <:+ e'.env.2

theorem Asked.follows {e e' : Engine (ε × FencingLog)} (h : Asked e e') : Follows e e' := by
  obtain ⟨new, -, hlog⟩ := h.log
  exact ⟨h.chronicled, h.limit, new, hlog.symm⟩

theorem follows_fencingResult (c : Cluster ε) (g : Graph) (e : Engine (ε × FencingLog)) (call : Nat)
    (outcome : Except String Unit) :
    Follows e ((e.fencingResult (c.chronicling g.id) g call outcome).2.2.note
      [.reported call g.id outcome.isOk]) := by
  refine ⟨fun h => h.fencingResult call outcome, ?_, [.reported call g.id outcome.isOk], ?_⟩
  all_goals
    have hreported := fencingResult_reported c g.id e g call outcome
    generalize e.fencingResult (c.chronicling g.id) g call outcome = out at hreported ⊢
    cases hreported with
    | unknown | stale => rfl
    | applied hget hsame hfencing => ?_
  · exact congrArg Fencing.maxAttempts hfencing
  · exact congrArg (_ :: ·) (congrArg Fencing.log hfencing).symm

theorem follows_confirmNodeSafe (c : Cluster ε) (g : Graph) (e : Engine (ε × FencingLog))
    (target : String) : Follows e (e.confirmNodeSafe (c.chronicling g.id) g target).2.2 := by
  rcases htold : c.confirmSafe target e.env.1 with ⟨_ | _, env⟩
  · rw [confirmNodeSafe_of_refused htold]
    exact ⟨fun h => h.of_fencing rfl, rfl, List.suffix_rfl⟩
  · obtain ⟨hlog, hlimit, -⟩ := fencing_of_taken htold
    exact ⟨fun h => h.confirmNodeSafe target, hlimit, [.safe target g.id], hlog.symm⟩

namespace Operation

variable {c : Cluster ε} {g : Graph} {op : Operation ε} {e : Engine (ε × FencingLog)} {call : Nat}

/-- **Whatever is done, what the engine keeps about fencing is what happened.** -/
theorem perform_follows (c : Cluster ε) (g : Graph) (op : Operation ε)
    (e : Engine (ε × FencingLog)) : Follows e (op.perform c g e).2 := by
  rcases op.quiet_or with hquiet | ⟨call, outcome, rfl⟩ | ⟨target, rfl⟩
  · exact (hquiet.asked c g e).follows
  · exact follows_fencingResult c g e call outcome
  · exact follows_confirmNodeSafe c g e target

theorem performAll_follows (c : Cluster ε) (history : List (Graph × Operation ε))
    (e : Engine (ε × FencingLog)) : Follows e (performAll c history e) := by
  induction history generalizing e with
  | nil => exact ⟨id, rfl, List.suffix_rfl⟩
  | cons done rest ih =>
    have hfirst := perform_follows c done.1 done.2 e
    have hrest := ih (done.2.perform c done.1 e).2
    exact ⟨hrest.chronicled ∘ hfirst.chronicled, hrest.limit.trans hfirst.limit,
      hfirst.grown.trans hrest.grown⟩

/-! ## What is settled -/

theorem mem_settled : call ∈ op.settled c g e ↔ op.isRefused c g e = false ∧
    e.fenceCalls.get? call ≠ none ∧ (op.perform c g e).2.fenceCalls.get? call = none := by
  rw [settled]
  cases op.isRefused c g e
  · simp [Table.mem_keys]
  · simp

theorem mem_settled_fencing (h : e.Chronicled) {number : Nat} {outcome : Except String Unit} :
    call ∈ (turn (.move (.fencing number outcome))).settled c g e ↔
      ∃ target, e.env.2.outstanding? call = some (target, g.id) ∧ number = call := by
  have hreported := fencingResult_reported c g.id e g number outcome
  simp only [mem_settled, isRefused, perform, act, Turn.make, Move.make, note]
  generalize e.fencingResult (c.chronicling g.id) g number outcome = out at hreported ⊢
  cases hreported with
  | unknown hget =>
    refine iff_of_false (fun hsettled => Bool.noConfusion hsettled.1) ?_
    rintro ⟨target, houtstanding, rfl⟩
    rw [h.get?_eq_none_iff.mp hget] at houtstanding
    cases houtstanding
  | stale hget hother =>
    refine iff_of_false (fun hsettled => Bool.noConfusion hsettled.1) ?_
    rintro ⟨target, houtstanding, rfl⟩
    rw [h.outstanding?_of_get? hget] at houtstanding
    exact hother (congrArg Prod.snd (Option.some.inj houtstanding))
  | @applied fence g' e' hget hsame hfencing =>
    have hcalls : e'.fenceCalls = e.fenceCalls.erase number := congrArg Fencing.calls hfencing
    rw [hcalls, Table.get?_erase]
    constructor
    · rintro ⟨-, hknown, hgone⟩
      have hcall : call = number := by
        by_contra hne
        rw [if_neg hne] at hgone
        exact hknown hgone
      subst hcall
      exact ⟨fence.target, hsame ▸ h.outstanding?_of_get? hget, rfl⟩
    · rintro ⟨target, -, rfl⟩
      exact ⟨rfl, by simp [hget], if_pos rfl⟩

theorem mem_settled_nodeSafe (h : e.Chronicled) {target : String} :
    call ∈ (turn (.move (.nodeSafe target))).settled c g e ↔
      e.env.2.outstanding? call = some (target, g.id) ∧
        (c.confirmSafe target e.env.1).1.isOk = true := by
  rw [mem_settled, ← h.mem_requestsFor]
  rcases htold : c.confirmSafe target e.env.1 with ⟨_ | _, env⟩
  · refine iff_of_false (fun hsettled => ?_) (fun htaken => Bool.noConfusion htaken.2)
    have hrefused := hsettled.1
    rw [isRefused, confirmNodeSafe_of_refused htold] at hrefused
    cases hrefused
  · have hanswer : isRefused c g e (turn (.move (.nodeSafe target))) = false := by
      rw [isRefused, confirmNodeSafe_of_taken htold]
      rfl
    obtain ⟨-, -, hcalls, -⟩ := fencing_of_taken htold
    have hafter : ((turn (.move (.nodeSafe target))).perform c g e).2.fenceCalls.get? call =
        if call ∈ (e.requestsFor target g.id).map (·.1) then none
        else e.fenceCalls.get? call := hcalls call
    rw [hafter]
    constructor
    · rintro ⟨-, hknown, hgone⟩
      refine ⟨?_, rfl⟩
      by_contra hkept
      rw [if_neg hkept] at hgone
      exact hknown hgone
    · rintro ⟨hrequest, -⟩
      have houtstanding := h.mem_requestsFor.mp hrequest
      refine ⟨hanswer, fun hnone => ?_, if_pos hrequest⟩
      rw [h.get?_eq_none_iff.mp hnone] at houtstanding
      cases houtstanding

/-- **A request is settled just if it is outstanding for the transition of the graph, and the
operation concludes it.** -/
theorem mem_settled_iff (h : e.Chronicled) : call ∈ op.settled c g e ↔
    ∃ target, e.env.2.outstanding? call = some (target, g.id) ∧ op.Concludes c e call target := by
  rcases op.quiet_or with hquiet | ⟨number, outcome, rfl⟩ | ⟨target, rfl⟩
  · refine iff_of_false (fun hsettled => ?_) ?_
    · obtain ⟨-, hknown, hgone⟩ := mem_settled.mp hsettled
      exact (hquiet.asked c g e).get?_ne_none h hknown hgone
    · rintro ⟨target, -, hconcludes⟩
      revert hquiet hconcludes
      unfold Quiet Concludes
      split <;> simp_all
  · exact mem_settled_fencing h
  · rw [mem_settled_nodeSafe h]
    constructor
    · rintro ⟨houtstanding, htaken⟩
      exact ⟨target, houtstanding, rfl, htaken⟩
    · rintro ⟨_, houtstanding, rfl, htaken⟩
      exact ⟨houtstanding, htaken⟩

theorem settled_nodup : (op.settled c g e).Nodup := by
  rw [settled]
  split
  · exact List.nodup_nil
  · exact e.fenceCalls.keys_nodup.filter _

/-! ## Once -/

/-- The requests in the list were accepted, are no longer outstanding, and occur once. -/
structure SettledOnce (log : FencingLog) (settled : List Nat) : Prop where
  accepted : ∀ call ∈ settled, call ∈ log.calls
  concluded : ∀ call ∈ settled, log.outstanding? call = none
  once : settled.Nodup

theorem SettledOnce.perform {settled : List Nat} (h : SettledOnce e.env.2 settled)
    (hchronicled : e.Chronicled) (hnumbers : (op.perform c g e).2.env.2.calls.Nodup) :
    SettledOnce (op.perform c g e).2.env.2 (settled ++ op.settled c g e) := by
  have hfollows := perform_follows c g op e
  obtain ⟨new, hlog⟩ := hfollows.grown
  rw [← hlog, FencingLog.calls_append] at hnumbers
  -- what an operation settles was outstanding before it, and is not afterwards
  have hbefore : ∀ call ∈ op.settled c g e, e.env.2.outstanding? call ≠ none := fun call hcall =>
    mt hchronicled.get?_eq_none_iff.mpr (mem_settled.mp hcall).2.1
  have hafter : ∀ call ∈ op.settled c g e,
      (op.perform c g e).2.env.2.outstanding? call = none := fun call hcall =>
    (hfollows.chronicled hchronicled).get?_eq_none_iff.mp (mem_settled.mp hcall).2.2
  refine ⟨fun call hcall => ?_, fun call hcall => ?_, ?_⟩
  · rw [← hlog, FencingLog.calls_append]
    refine List.mem_append_right _ ?_
    rcases List.mem_append.mp hcall with hcall | hcall
    · exact h.accepted call hcall
    · obtain ⟨request, hrequest⟩ := Option.ne_none_iff_exists'.mp (hbefore call hcall)
      exact FencingLog.mem_calls_of_outstanding hrequest
  · rcases List.mem_append.mp hcall with hcall | hcall
    · rw [← hlog]
      refine FencingLog.outstanding?_append_eq_none (h.concluded call hcall) fun hnew => ?_
      exact List.disjoint_of_nodup_append hnumbers hnew (h.accepted call hcall)
    · exact hafter call hcall
  · refine h.once.append settled_nodup fun call hdone hsettled => ?_
    exact hbefore call hsettled (h.concluded call hdone)

theorem SettledOnce.performAll {history : List (Graph × Operation ε)} {settled : List Nat}
    (h : SettledOnce e.env.2 settled) (hchronicled : e.Chronicled)
    (hnumbers : (performAll c history e).env.2.calls.Nodup) :
    SettledOnce (performAll c history e).env.2 (settled ++ settlements c history e) := by
  induction history generalizing e settled with
  | nil => simpa [Operation.performAll, settlements] using h
  | cons done rest ih =>
    obtain ⟨g, op⟩ := done
    have hfollows := perform_follows c g op e
    obtain ⟨new, hlog⟩ := (performAll_follows c rest (op.perform c g e).2).grown
    have hearlier : (op.perform c g e).2.env.2.calls.Nodup := by
      have hall : (Operation.performAll c rest (op.perform c g e).2).env.2.calls.Nodup := hnumbers
      rw [← hlog, FencingLog.calls_append] at hall
      exact hall.of_append_right
    have hrest := ih (h.perform hchronicled hearlier) (hfollows.chronicled hchronicled) hnumbers
    rwa [List.append_assoc] at hrest

end Operation

/-! ## Reports -/

/-- The answer to a report says whether the request is outstanding for the graph. -/
theorem Chronicled.answer {c : Cluster ε} {e : Engine (ε × FencingLog)} (h : e.Chronicled)
    (g : Graph) (call : Nat) (outcome : Except String Unit) :
    let out := e.fencingResult (c.chronicling g.id) g call outcome
    (out.1 = match e.env.2.outstanding? call with
      | none => .error (.unknownFenceCall call)
      | some (_, transition) =>
        if transition = g.id then .ok true else .error (.staleResult g.id transition)) ∧
    (out.1 ≠ .ok true → out.2.1 = g) := by
  have hreported := fencingResult_reported c g.id e g call outcome
  generalize e.fencingResult (c.chronicling g.id) g call outcome = out at hreported ⊢
  cases hreported with
  | unknown hget => simp [h.get?_eq_none_iff.mp hget]
  | stale hget hother => simp [h.outstanding?_of_get? hget, hother]
  | applied hget hsame => simp [h.outstanding?_of_get? hget, hsame]

/-! ## Failures -/

theorem Chronicled.tooManyFenceFailures_iff {e : Engine (ε × FencingLog)} (h : e.Chronicled) :
    e.tooManyFenceFailures = true ↔
      ∃ target, max 1 e.maxFenceAttempts ≤ e.env.2.failures target := by
  simp only [tooManyFenceFailures, Table.values, List.any_map, List.any_eq_true, Prod.exists,
    Function.comp_apply, decide_eq_true_eq, ← Table.get?_eq_some_iff]
  refine exists_congr fun target => ?_
  rw [h.failures target]
  by_cases hzero : e.env.2.failures target = 0
  · simp [hzero]
  · simp [hzero]
    omega

/-! ## Histories -/

/-- **Fencing requests are settled once, and failures are counted.**  Take an engine that has asked
for no fencing yet, and anything that is done to it, on whatever graphs, with a cluster that gives
no call number twice.  No request is settled twice.  An operation on a graph settles the requests
that are outstanding for the transition of the graph and that the operation concludes, and no
others; a request is outstanding from its acceptance to the first report of its outcome or to the
first word of safety on a graph of its transition.  A report is answered with an error, and leaves
the graph as it is, unless the request is outstanding for the transition of the graph.  The failures
that the engine knows of a node are those applied since the last success or word of safety settled
a request for it, and there are too many just if some node has as many as the limit, and at least
one. -/
theorem settled_once_and_counted {ε : Type} (c : Cluster ε) (e : Engine (ε × FencingLog))
    (hcalls : e.fenceCalls = .empty) (hfailures : e.fenceFailures = .empty) (hlog : e.env.2 = [])
    (history : List (Graph × Operation ε))
    (hnumbers : (Operation.performAll c history e).env.2.calls.Nodup) :
    let e' := Operation.performAll c history e
    (Operation.settlements c history e).Nodup ∧
    (∀ g (op : Operation ε) call, call ∈ op.settled c g e' ↔
      ∃ target, e'.env.2.outstanding? call = some (target, g.id) ∧
        op.Concludes c e' call target) ∧
    (∀ (g : Graph) call outcome, let out := e'.fencingResult (c.chronicling g.id) g call outcome
      (out.1 = match e'.env.2.outstanding? call with
        | none => .error (.unknownFenceCall call)
        | some (_, transition) =>
          if transition = g.id then .ok true else .error (.staleResult g.id transition)) ∧
      (out.1 ≠ .ok true → out.2.1 = g)) ∧
    (∀ target, e'.fenceFailuresOf target = e'.env.2.failures target) ∧
    (e'.tooManyFenceFailures = true ↔
      ∃ target, max 1 e.maxFenceAttempts ≤ e'.env.2.failures target) := by
  have hstart : e.Chronicled := by
    refine ⟨fun call => ?_, fun target => ?_⟩
    · rw [hcalls, hlog]
      rfl
    · rw [hfailures, hlog]
      rfl
  have hfollows := Operation.performAll_follows c history e
  have hend := hfollows.chronicled hstart
  have honce : Operation.SettledOnce e.env.2 [] := ⟨by simp, by simp, List.nodup_nil⟩
  refine ⟨(honce.performAll hstart hnumbers).once, fun g op call => Operation.mem_settled_iff hend,
    fun g call outcome => hend.answer g call outcome, hend.fenceFailuresOf, ?_⟩
  rw [hend.tooManyFenceFailures_iff, hfollows.limit]

end Engine

/-- The fencing of several nodes, for a transition. -/
def GraphDocument.fencings (transition : Int) (targets : List String) : GraphDocument where
  transitionId := transition
  synapses := targets.mapIdx fun n target =>
    { id := n
      actions :=
        [{ id := n + 1, kind := .clusterEvent, task := some "stonith", target := some target
           targetUuid := some target, params := .ofList [("CRM_meta_stonith_action", "off")] }] }

/-- A pass over each of two graphs, and then: a failure on the second, a success that is reported on
the first although it is for the second, word that `node2` is safe, a success that comes after that,
and one more failure. -/
def Engine.Operation.fencings (g₁ g₂ : Graph) : List (Graph × Engine.Operation Nat) :=
  [(g₁, .turn (.move .pass)), (g₂, .turn (.move .pass)),
    (g₂, .turn (.move (.fencing 1 (.error "busy")))), (g₁, .turn (.move (.fencing 3 (.ok ())))),
    (g₁, .turn (.move (.nodeSafe "node2"))), (g₁, .turn (.move (.fencing 0 (.ok ())))),
    (g₂, .turn (.move (.fencing 2 (.error "busy"))))]

/-- A new engine that gives up on a target after one failure. -/
def Engine.impatient : Engine (Nat × FencingLog) :=
  .new { node := "node1", fencing := { maxAttempts := 1 } } (0, [])

/-- Call 0 is settled by the word of safety and calls 1 and 2 by their failures; call 3 is dropped.
The failure for `node2` is forgotten, and the one for `node3` is too many. -/
theorem fencings_settled : ∃ g₁ g₂, (GraphDocument.fencings 1 ["node2"]).toGraph = .ok g₁ ∧
    (GraphDocument.fencings 2 ["node2", "node3", "node4"]).toGraph = .ok g₂ ∧
    let history := Engine.Operation.fencings g₁ g₂
    let e' := Engine.Operation.performAll .willing history .impatient
    let settlements := Engine.Operation.settlements .willing history .impatient
    e'.env.2.calls = [3, 2, 1, 0] ∧ settlements = [1, 0, 2] ∧ settlements.Nodup ∧
      e'.fenceCalls.keys = [] ∧ e'.env.2.failures "node2" = 0 ∧ e'.env.2.failures "node3" = 1 ∧
      (∀ target, e'.fenceFailuresOf target = e'.env.2.failures target) ∧
      e'.tooManyFenceFailures = true := by
  have hfacts : ∀ g₁ g₂, (GraphDocument.fencings 1 ["node2"]).toGraph = .ok g₁ →
      (GraphDocument.fencings 2 ["node2", "node3", "node4"]).toGraph = .ok g₂ →
      let history := Engine.Operation.fencings g₁ g₂
      let e' := Engine.Operation.performAll .willing history .impatient
      e'.env.2.calls = [3, 2, 1, 0] ∧
        Engine.Operation.settlements .willing history .impatient = [1, 0, 2] ∧
        e'.fenceCalls.keys = [] ∧ e'.env.2.failures "node2" = 0 ∧
        e'.env.2.failures "node3" = 1 := by
    rintro _ _ ⟨⟩ ⟨⟩
    decide +kernel
  obtain ⟨g₁, hg₁⟩ : ∃ g, (GraphDocument.fencings 1 ["node2"]).toGraph = .ok g := ⟨_, rfl⟩
  obtain ⟨g₂, hg₂⟩ : ∃ g, (GraphDocument.fencings 2 ["node2", "node3", "node4"]).toGraph = .ok g :=
    ⟨_, rfl⟩
  obtain ⟨hcalls, hsettled, hgone, hsafe, hfailed⟩ := hfacts g₁ g₂ hg₁ hg₂
  obtain ⟨honce, -, -, hfailures, htooMany⟩ :=
    Engine.settled_once_and_counted Cluster.willing .impatient rfl rfl rfl
      (Engine.Operation.fencings g₁ g₂) (by rw [hcalls]; decide)
  exact ⟨g₁, g₂, hg₁, hg₂, hcalls, hsettled, honce, hgone, hsafe, hfailed, hfailures,
    htooMany.mpr ⟨"node3", Nat.le_of_eq hfailed.symm⟩⟩

end ClusterTransition
