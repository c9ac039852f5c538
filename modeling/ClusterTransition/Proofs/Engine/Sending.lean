import ClusterTransition.Proofs.Engine.Once
import ClusterTransition.Proofs.Engine.Waiting
import ClusterTransition.Proofs.TransitionKey

/-! # What an engine sends

Requests go out in dispatches only, and each has a key for the action that is dispatched.  To speak
of all requests of a run, the cluster is made to keep a list of them (`Cluster.logging`).  The log
only grows by requests for actions of the graph (`Sending.turn`), and what a key says of its action
is part of the plan of the graph, which no run changes.  So a result that comes back under the key
of a request is a result for the action that the request was about.
-/

namespace ClusterTransition

/-- The cluster with a list of the requests that it was asked to send. -/
def Cluster.logging {ε : Type} (c : Cluster ε) : Cluster (ε × List ActionRequest) where
  send node q env := ((c.send node q env.1).1, (c.send node q env.1).2, env.2 ++ [q])
  storeStatus a status rc env :=
    ((c.storeStatus a status rc env.1).1, (c.storeStatus a status rc env.1).2, env.2)
  storeFenced target uuid env :=
    ((c.storeFenced target uuid env.1).1, (c.storeFenced target uuid env.1).2, env.2)
  fence target kind timeout env :=
    ((c.fence target kind timeout env.1).1, (c.fence target kind timeout env.1).2, env.2)
  confirmSafe target env := ((c.confirmSafe target env.1).1, (c.confirmSafe target env.1).2, env.2)

namespace Engine

variable {ε : Type} (c : Cluster ε) (e : Engine (ε × List ActionRequest)) (g : Graph)

/-- The name of the engine and the requests that it has sent. -/
def traffic : String × List ActionRequest := (e.uuid, e.env.2)

/-! ## Steps that send nothing -/

@[simp] theorem traffic_finishAction (id : ActionId) :
    (e.finishAction g id).2.traffic = e.traffic := by
  simp only [finishAction, actionConfirmed, release]
  split
  · rfl
  · split <;> rfl

@[simp] theorem traffic_startActionTimer (id : ActionId) :
    (e.startActionTimer g id).2.traffic = e.traffic := by
  simp only [startActionTimer]
  split <;> rfl

@[simp] theorem traffic_resourceSent (a : Action) :
    (e.resourceSent g a).2.traffic = e.traffic := by
  simp only [resourceSent]
  split
  · rfl
  · split
    · rfl
    · exact traffic_startActionTimer ..

@[simp] theorem traffic_recordStatus (id : ActionId) (status : OpStatus) (rc : Int) :
    (e.recordStatus c.logging g id status rc).2.traffic = e.traffic := by
  simp only [recordStatus]
  split <;> rfl

theorem traffic_expectDown (node : String) : (e.expectDown node).traffic = e.traffic := by
  simp only [expectDown]
  split <;> rfl

/-! ## Dispatches -/

/-- The engine `e'` has sent at most one request more than `e`, for the action `id` of the graph. -/
def SentFor (e e' : Engine (ε × List ActionRequest)) (g : Graph) (id : ActionId) : Prop :=
  e'.traffic = e.traffic ∨
    ∃ a target, g.action? id = some a ∧
      e'.traffic = (e.uuid, e.env.2 ++ [e.requestFor g a target])

variable {e g} {id : ActionId}

theorem SentFor.of_traffic {e₁ e' : Engine (ε × List ActionRequest)}
    (h : SentFor e e₁ g id) (htraffic : e'.traffic = e₁.traffic) : SentFor e e' g id := by
  rw [SentFor, htraffic]
  exact h

/-- The request that is sent is the one for the action, also if the engine has noted before that a
node goes down. -/
theorem sentFor_sendRequest {e₁ : Engine (ε × List ActionRequest)} {a : Action}
    (ha : g.action? id = some a) (hsame : e₁.traffic = e.traffic) (target : String) :
    SentFor e (e₁.sendRequest c.logging g a target).2 g id := by
  obtain ⟨huuid, hlog⟩ := Prod.mk.inj hsame
  refine .inr ⟨a, target, ha, ?_⟩
  simp only [sendRequest, traffic, Cluster.logging, requestFor, huuid, hlog]

theorem sentFor_dispatchResource : SentFor e (dispatchResource c.logging id g e).2.2 g id := by
  simp only [dispatchResource]
  split
  · exact .inl rfl
  · rename_i a ha
    split
    · exact .inl rfl
    · rename_i target _
      have hsend := sentFor_sendRequest c ha (rfl : e.traffic = e.traffic) target
      rcases hsent : e.sendRequest c.logging g a target with ⟨_ | _, e'⟩ <;> rw [hsent] at hsend
      · exact hsend
      · dsimp only
        split
        · exact hsend.of_traffic (by simp)
        · exact hsend.of_traffic (by simp)

theorem sentFor_dispatchEvent : SentFor e (dispatchEvent c.logging id g e).2.2 g id := by
  simp only [dispatchEvent]
  split
  · exact .inl rfl
  · rename_i a ha
    split
    · exact .inl rfl
    · rename_i target _
      split
      · exact .inl (traffic_finishAction ..)
      · have hdown : (if a.task = some "do_shutdown" then
            e.expectDown (a.route.getD target) else e).traffic = e.traffic := by
          split
          · exact traffic_expectDown ..
          · rfl
        generalize (if a.task = some "do_shutdown" then
          e.expectDown (a.route.getD target) else e) = e₁ at hdown
        have hsend := sentFor_sendRequest c ha hdown target
        rcases hsent : e₁.sendRequest c.logging g a target with ⟨_ | _, e'⟩ <;> rw [hsent] at hsend
        · exact hsend
        · dsimp only
          split
          · exact hsend.of_traffic (by simp)
          · exact hsend.of_traffic (by simp)

theorem sentFor_dispatchFencing : SentFor e (dispatchFencing c.logging id g e).2.2 g id := by
  simp only [dispatchFencing]
  split
  · exact .inl rfl
  · split
    · rename_i target uuid kind _ _ _
      rcases hfence : c.logging.fence target kind g.stonithTimeout.toNat e.env with ⟨_ | call, env⟩
      all_goals
        have henv : env.2 = e.env.2 := (congrArg (fun out => out.2.2) hfence).symm
        exact .inl (by simp only [traffic, henv])
    · exact .inl rfl

/-- **A dispatch sends nothing but a request for the action that it dispatches.** -/
theorem sentFor_dispatch (channel : Channel) :
    SentFor e ((dispatcher c.logging).dispatch channel id g e).2.2 g id := by
  cases channel with
  | pseudo => exact .inl (traffic_finishAction ..)
  | resource => exact sentFor_dispatchResource c
  | clusterEvent => exact sentFor_dispatchEvent c
  | fencing => exact sentFor_dispatchFencing c

/-! ## Reports -/

variable (e g)

theorem traffic_processResult (r : ActionResult) :
    (e.processResult g r).2.2.traffic = e.traffic := by
  simp only [processResult]
  split
  · rfl
  · split
    · rfl
    · exact traffic_finishAction ..

theorem traffic_actionTimedOut (id : ActionId) :
    (e.actionTimedOut c.logging g id).2.2.traffic = e.traffic := by
  simp only [actionTimedOut]
  split
  · rfl
  · split
    · rfl
    · refine (traffic_finishAction ..).trans ?_
      split
      · exact traffic_recordStatus ..
      · rfl

theorem traffic_nodeFenced (fence : FenceCall) :
    (e.nodeFenced c.logging g fence).2.traffic = e.traffic :=
  traffic_finishAction ..

theorem traffic_fencingResult (call : Nat) (outcome : Except String Unit) :
    (e.fencingResult c.logging g call outcome).2.2.traffic = e.traffic := by
  simp only [fencingResult]
  split
  · rfl
  · split
    · rfl
    · split
      · exact traffic_nodeFenced ..
      · exact traffic_finishAction ..

theorem traffic_completeFencing (calls : List (Nat × FenceCall)) :
    (e.completeFencing c.logging g calls).2.traffic = e.traffic := by
  induction calls generalizing e g with
  | nil => rfl
  | cons head rest ih => exact (ih _ _).trans (traffic_nodeFenced c _ g head.2)

theorem traffic_confirmNodeSafe (target : String) :
    (e.confirmNodeSafe c.logging g target).2.2.traffic = e.traffic := by
  simp only [confirmNodeSafe]
  rcases hsafe : c.logging.confirmSafe target e.env with ⟨_ | _, env⟩
  all_goals have henv : env.2 = e.env.2 := (congrArg (fun out => out.2.2) hsafe).symm
  · simp only [traffic, henv]
  · refine (traffic_completeFencing ..).trans ?_
    simp only [traffic, henv]

end Engine

/-! ## Runs -/

/-- The request is for an action of the graph, under the key that the engine `uuid` writes. -/
def ActionRequest.IsFor (q : ActionRequest) (g : Graph) (uuid : String) : Prop :=
  ∃ a, g.action? q.action = some a ∧
    q.transitionKey = (TransitionKey.mk q.action g.id a.targetRc uuid).encode

namespace Graph

/-- What an id stands for is the same all along, but for what happens to it. -/
theorem action?_of_plan {g g' : Graph} (h : g'.plan = g.plan) {id : ActionId} {a' : Action}
    (ha : g'.action? id = some a') : ∃ a, g.action? id = some a ∧ a'.plan = a.plan := by
  obtain ⟨k, hk, hget, -⟩ := exists_slot_of_action? ha
  obtain ⟨a, ha, hplan⟩ := action_of_plan h hget
  exact ⟨a, (action?_eq_getElem? ((slotOf?_eq_of_plan h id).symm.trans hk)).trans ha, hplan⟩

end Graph

/-- The exit code that means success is part of the plan. -/
theorem Action.targetRc_eq_of_plan {a b : Action} (h : a.plan = b.plan) :
    a.targetRc = b.targetRc :=
  show a.plan.targetRc = b.plan.targetRc by rw [h]

/-- A request for an action of a graph is one for an action of the graph that was loaded. -/
theorem Engine.requestFor_isFor {ε : Type} {e : Engine ε} {g g' : Graph} (h : g'.plan = g.plan)
    {id : ActionId} {a : Action} (ha : g'.action? id = some a) (target : String) :
    (e.requestFor g' a target).IsFor g e.uuid := by
  obtain ⟨b, hb, hplan⟩ := Graph.action?_of_plan h ha
  obtain ⟨-, -, -, hid⟩ := Graph.exists_slot_of_action? ha
  refine ⟨b, by rwa [← hid] at hb, ?_⟩
  simp only [requestFor, Graph.id_of_plan h, Action.targetRc_eq_of_plan hplan]

/-- The graph has its plan and the engine its name, and all requests since the log was `log` were
for actions of the graph. -/
structure Sending {ε : Type} (g : Graph) (uuid : String) (log : List ActionRequest)
    (s : Graph × Engine (ε × List ActionRequest)) : Prop where
  plan : s.1.plan = g.plan
  name : s.2.uuid = uuid
  sent : ∃ sent, s.2.env.2 = log ++ sent ∧ ∀ q ∈ sent, q.IsFor g uuid

namespace Sending

variable {ε : Type} {c : Cluster ε} {g : Graph} {uuid : String} {log : List ActionRequest}
  {s s' : Graph × Engine (ε × List ActionRequest)}

theorem of_traffic (h : Sending g uuid log s) (hplan : s'.1.plan = s.1.plan)
    (htraffic : s'.2.traffic = s.2.traffic) : Sending g uuid log s' := by
  obtain ⟨hname, hlog⟩ := Prod.mk.inj htraffic
  exact ⟨hplan.trans h.plan, hname.trans h.name, hlog ▸ h.sent⟩

theorem of_sentFor (h : Sending g uuid log s) (hplan : s'.1.plan = s.1.plan) {g₁ : Graph}
    (hplan₁ : g₁.plan = s.1.plan) {id : ActionId} (hsent : s.2.SentFor s'.2 g₁ id) :
    Sending g uuid log s' := by
  rcases hsent with hnone | ⟨a, target, ha, hone⟩
  · exact h.of_traffic hplan hnone
  · obtain ⟨hname, hlog⟩ := Prod.mk.inj hone
    obtain ⟨sent, hbefore, hfor⟩ := h.sent
    refine ⟨hplan.trans h.plan, hname.trans h.name, sent ++ [s.2.requestFor g₁ a target], ?_, ?_⟩
    · rw [hlog, hbefore, List.append_assoc]
    · intro q hq
      rcases List.mem_append.mp hq with hq | hq
      · exact hfor q hq
      · rw [List.mem_singleton.mp hq, ← h.name]
        exact Engine.requestFor_isFor (hplan₁.trans h.plan) ha target

theorem step {x y : PassState (Engine (ε × List ActionRequest))}
    (h : Sending g uuid log (x.graph, x.state))
    (hstep : PassStep (Engine.dispatcher c.logging) x y) :
    Sending g uuid log (y.graph, y.state) := by
  have hplan := hstep.plan (Engine.dispatcher_handles c.logging)
  -- a dispatch may have sent its request even if it is refused afterwards
  cases hstep with
  | @dispatch g₀ g' e e' pos slot slots a channel _ _ _ hgoes =>
    have hsent : e.SentFor _ (g₀.setStatusAt slot .executed) a.id :=
      Engine.sentFor_dispatch c channel
    rw [hgoes] at hsent
    exact h.of_sentFor hplan (Graph.plan_setStatusAt ..) hsent
  | @refuse g₀ g' e e' pos slot slots a channel _ _ _ hstays =>
    have hsent : e.SentFor _ (g₀.setStatusAt slot .executed) a.id :=
      Engine.sentFor_dispatch c channel
    rw [hstays] at hsent
    exact h.of_sentFor hplan (Graph.plan_setStatusAt ..) hsent
  | count | ready | skip | fire | unroutable | again | fired | conclude =>
    exact h.of_traffic hplan rfl

/-- **Whatever happens, all requests are for actions of the graph.** -/
theorem turn (h : Sending g uuid log s) (t : Turn) : Sending g uuid log (t.make c.logging s) := by
  cases t with
  | move m =>
    have hplan := m.plan c.logging s
    cases m with
    | pass =>
      exact Graph.run_induction (Engine.dispatcher_steady c.logging)
        (P := fun x => Sending g uuid log (x.graph, x.state)) (fun _ _ hstep hx => hx.step hstep)
        s.1 s.2 h
    | result r => exact h.of_traffic hplan (Engine.traffic_processResult s.2 s.1 r)
    | timeout id => exact h.of_traffic hplan (Engine.traffic_actionTimedOut c s.2 s.1 id)
    | fencing call outcome =>
      exact h.of_traffic hplan (Engine.traffic_fencingResult c s.2 s.1 call outcome)
    | nodeSafe target => exact h.of_traffic hplan (Engine.traffic_confirmNodeSafe c s.2 s.1 target)
    | abort => exact h.of_traffic hplan rfl
  | confirmed id =>
    refine h.of_traffic (Engine.actionConfirmed_edits s.2 s.1 id).plan ?_
    simp only [Turn.make, Engine.actionConfirmed, Engine.release]
    split
    · rfl
    · split <;> rfl
  | dryPass st =>
    exact h.of_traffic (Graph.plan_run Simulator.dispatcher_steady Simulator.dispatcher_handles
      s.1 st) rfl

theorem turns (h : Sending g uuid log s) (turns : List Turn) :
    Sending g uuid log (Turn.makeAll c.logging turns s) := by
  induction turns generalizing s with
  | nil => exact h
  | cons t turns ih => exact ih (h.turn t)

end Sending

/-! ## Keys of requests -/

/-- The exit code that means success is a number of 32 bits. -/
theorem Action.isInt32_targetRc (a : Action) : Numeral.isInt32 a.targetRc = true := by
  simp only [targetRc]
  cases h : (a.metaParam "op_target_rc").bind fun text =>
      Numeral.parseInt32? (trimBlank text.toList) with
  | none => rfl
  | some n =>
    obtain ⟨text, -, hparse⟩ := Option.bind_eq_some_iff.mp h
    exact (Option.filter_eq_some_iff.mp hparse).2

/-- The numbers of the graph and of its actions are numbers of 32 bits. -/
structure Graph.InRange (g : Graph) : Prop where
  id : Numeral.isInt32 g.id = true
  actions : ∀ a ∈ g.actions, Numeral.isInt32 a.id = true

/-- **The key of a request comes back just if the uuid of the engine does.** -/
theorem ActionRequest.IsFor.decode_iff {q : ActionRequest} {g : Graph} {uuid : String}
    (h : q.IsFor g uuid) (hg : g.InRange) : ∃ a, g.action? q.action = some a ∧
      (TransitionKey.decode q.transitionKey = .ok ⟨q.action, g.id, a.targetRc, uuid⟩ ↔
        TransitionKey.Portable uuid) := by
  obtain ⟨a, ha, hkey⟩ := h
  obtain ⟨-, -, -, hid⟩ := Graph.exists_slot_of_action? ha
  refine ⟨a, ha, ?_⟩
  rw [hkey]
  refine TransitionKey.decode_encode_iff ⟨?_, hg.id, a.isInt32_targetRc⟩
  exact hid ▸ hg.actions a (List.mem_of_find?_eq_some ha)

/-- **What is written can be read, just if the uuid can.**  A key is read as it was written just if
its uuid is not empty, has at most 36 characters and does not end in a blank; and magic is read as
it was written just under the same condition.  Take any turns of an engine on a graph: each request
that it sends is for an action of the graph, and under the same condition, and no other, its key is
read as the id of the action, the id of the graph, the exit code that the action expects and the
uuid of the engine. -/
theorem decode_written_iff :
    (∀ k : TransitionKey, k.InRange →
      (TransitionKey.decode k.encode = .ok k ↔ TransitionKey.Portable k.uuid)) ∧
    (∀ m : TransitionMagic, m.InRange →
      (TransitionMagic.decode m.encode = .ok m ↔ TransitionKey.Portable m.key.uuid)) ∧
    ∀ {ε : Type} (c : Cluster ε) (turns : List Turn) (g : Graph)
      (e : Engine (ε × List ActionRequest)), g.InRange →
      ∃ sent, (Turn.makeAll c.logging turns (g, e)).2.env.2 = e.env.2 ++ sent ∧
        ∀ q ∈ sent, ∃ a, g.action? q.action = some a ∧
          (TransitionKey.decode q.transitionKey = .ok ⟨q.action, g.id, a.targetRc, e.uuid⟩ ↔
            TransitionKey.Portable e.uuid) := by
  refine ⟨fun k => TransitionKey.decode_encode_iff, fun m => TransitionMagic.decode_encode_iff, ?_⟩
  intro ε c turns g e hg
  have hstart : Sending g e.uuid e.env.2 (g, e) := ⟨rfl, rfl, [], by simp, by simp⟩
  obtain ⟨sent, hlog, hfor⟩ := (hstart.turns (c := c) turns).sent
  exact ⟨sent, hlog, fun q hq => (hfor q hq).decode_iff hg⟩

/-- A key and magic whose uuid looks like more fields come back, and so does the key of the one
request of a pass over a marker and a start. -/
theorem markedStart_key_comes_back : ∃ g, GraphDocument.markedStart.toGraph = .ok g ∧
    let k : TransitionKey := ⟨-1, 2147483647, 7, "1:2;3:ä"⟩
    let s := Turn.makeAll Cluster.willing.logging [.move .pass]
      (g, Engine.new { node := "node1" } (0, []))
    TransitionKey.decode k.encode = .ok k ∧
      TransitionMagic.decode (TransitionMagic.mk (-1) 193 k).encode = .ok ⟨-1, 193, k⟩ ∧
      ∃ q, s.2.env.2 = [q] ∧
        TransitionKey.decode q.transitionKey = .ok ⟨2, 1, 0, Engine.defaultUuid⟩ := by
  have hfacts : ∀ g, GraphDocument.markedStart.toGraph = .ok g →
      g.id = 1 ∧ g.actions.map (·.id) = [1, 2, 3] ∧ (g.action? 2).map (·.targetRc) = some 0 ∧
        (Turn.makeAll Cluster.willing.logging [.move .pass]
          (g, Engine.new { node := "node1" } (0, []))).2.env.2.map (·.action) = [2] := by
    rintro _ ⟨⟩
    decide +kernel
  obtain ⟨g, hg⟩ : ∃ g, GraphDocument.markedStart.toGraph = .ok g := ⟨_, rfl⟩
  obtain ⟨hid, hids, hrc, hlogged⟩ := hfacts g hg
  have hrange : g.InRange := by
    refine ⟨by rw [hid]; rfl, fun a ha => ?_⟩
    have hmem : a.id ∈ [1, 2, 3] := hids ▸ List.mem_map_of_mem ha
    simp only [List.mem_cons, List.not_mem_nil, or_false] at hmem
    rcases hmem with h | h | h <;> rw [h] <;> rfl
  let k : TransitionKey := ⟨-1, 2147483647, 7, "1:2;3:ä"⟩
  have hk : k.InRange := ⟨rfl, rfl, rfl⟩
  obtain ⟨sent, hlog, hsent⟩ := decode_written_iff.2.2 .willing [.move .pass] g
    (Engine.new { node := "node1" } (0, [])) hrange
  rw [show (Engine.new { node := "node1" } (0, []) :
    Engine (Nat × List ActionRequest)).env.2 = [] from rfl, List.nil_append] at hlog
  rw [hlog] at hlogged
  obtain ⟨q, rfl, hq⟩ := List.map_eq_singleton_iff.mp hlogged
  obtain ⟨a, ha, hkey⟩ := hsent q (List.mem_singleton_self q)
  rw [hq] at ha hkey
  rw [ha, Option.map_some, Option.some.injEq] at hrc
  rw [hid, hrc] at hkey
  exact ⟨g, hg, (decode_written_iff.1 k hk).mpr (by decide),
    (decode_written_iff.2.1 ⟨-1, 193, k⟩ ⟨rfl, rfl, hk⟩).mpr (by decide), q, hlog,
    hkey.mpr (by decide)⟩

end ClusterTransition
