import ClusterTransition.Engine.Dispatch
import ClusterTransition.Proofs.Graph.Handling

/-! # What a dispatch comes to

An engine that dispatches an action either refuses it, or carries it out in one of a few ways.
`Engine.Outcome` lists them with all that they change, so that what is kept by every dispatch is one
case analysis over the list (`Engine.dispatch_outcome`).

Whether an action is refused depends on what its document says, `Action.dispatchable`, and on the
cluster: a cluster that accepts requests leaves no other reason (`Engine.dispatch_iff`).
-/

namespace ClusterTransition

open ClusterTransition.Graph (Advances exists_slot_of_action?)

/-- The action has all that a request for it needs. -/
def Action.dispatchable (a : Action) : Bool :=
  match a.channel? with
  | none => false
  | some .pseudo => true
  | some .resource => a.target.isSome
  | some .clusterEvent => a.target.isSome
  | some .fencing =>
    a.target.isSome && (nonempty a.op.targetUuid).isSome && a.stonithAction.isSome

theorem Action.exists_channel {a : Action} (h : a.dispatchable = true) :
    ∃ channel, a.channel? = some channel := by
  cases hc : a.channel? with
  | none => simp [dispatchable, hc] at h
  | some channel => exact ⟨channel, rfl⟩

/-- The cluster accepts every request to carry out an action or to fence a node. -/
structure Cluster.Accepts {ε : Type} (c : Cluster ε) : Prop where
  send : ∀ node request env, (c.send node request env).1 = true
  fence : ∀ target kind timeout env, (c.fence target kind timeout env).1.isSome

/-- A cluster that accepts everything and numbers the fencing requests in order. -/
def Cluster.willing : Cluster Nat where
  send _ _ n := (true, n)
  storeStatus _ _ _ n := (true, n)
  storeFenced _ _ n := (true, n)
  fence _ _ _ n := (some n, n + 1)
  confirmSafe _ n := (.ok (), n)

theorem Cluster.willing_accepts : Cluster.willing.Accepts :=
  ⟨fun _ _ _ => rfl, fun _ _ _ _ => rfl⟩

namespace Engine

variable {ε : Type} (c : Cluster ε)

/-- What a dispatch of the action `a` over a channel comes to. -/
inductive Outcome (a : Action) (g : Graph) (e : Engine ε) :
    Channel → Bool × Graph × Engine ε → Prop where
  /-- Nothing is set going; a node may have been noted as going down. -/
  | refused (channel : Channel) (env : ε) (expectedDown : List String)
      (hwhy : c.Accepts → a.channel? = some channel → a.dispatchable = false) :
      Outcome a g e channel (false, g, { e with env, expectedDown })
  | marker : Outcome a g e .pseudo (true, e.finishAction g a.id)
  /-- The request for a resource operation went out. -/
  | sent (env : ε) (htarget : a.target.isSome) :
      Outcome a g e .resource (true, ({ e with env } : Engine ε).resourceSent g a)
  /-- The request went out, and a record of the pending operation was offered to the store. -/
  | recorded (env : ε) {g₁ : Graph} {e₁ : Engine ε} (htarget : a.target.isSome)
      (hsent : ({ e with env } : Engine ε).resourceSent g a = (g₁, e₁)) :
      Outcome a g e .resource (true, e₁.recordStatus c g₁ a.id .pending rcUnknown)
  /-- The event is the shutdown of the engine's own node. -/
  | shutdown (htarget : a.target.isSome) :
      Outcome a g e .clusterEvent (true, localShutdown a.id g e)
  /-- An event went out, and nobody waits for its result. -/
  | told (env : ε) (expectedDown : List String) (htarget : a.target.isSome)
      (hquiet : a.noWait = true) :
      Outcome a g e .clusterEvent
        (true, ({ e with env, expectedDown } : Engine ε).finishAction g a.id)
  /-- An event went out, and its result is awaited. -/
  | asked (env : ε) (expectedDown : List String) (htarget : a.target.isSome)
      (hquiet : a.noWait = false) :
      Outcome a g e .clusterEvent
        (true, ({ e with env, expectedDown } : Engine ε).startActionTimer g a.id)
  /-- The fencing was started under a call number. -/
  | fenced (env : ε) (call : Nat) {fence : FenceCall} (haction : fence.action = a.id)
      (htransition : fence.transition = g.id)
      (hfields : a.target.isSome ∧ (nonempty a.op.targetUuid).isSome ∧ a.stonithAction.isSome) :
      Outcome a g e .fencing (true, g, { e with env, fenceCalls := e.fenceCalls.insert call fence })

/-- A request changes nothing but the surroundings. -/
theorem exists_sendRequest (e : Engine ε) (g : Graph) (a : Action) (target : String) :
    ∃ ok env, c.send (a.route.getD target) (e.requestFor g a target) e.env = (ok, env) ∧
      e.sendRequest c g a target = (ok, { e with env }) :=
  ⟨_, _, rfl, rfl⟩

theorem dispatchResource_outcome {a : Action} {g : Graph} {e : Engine ε}
    (ha : g.action? a.id = some a) :
    Outcome c a g e .resource (dispatchResource c a.id g e) := by
  simp only [dispatchResource, ha]
  split
  · rename_i htarget
    refine .refused .resource e.env e.expectedDown fun _ hchannel => ?_
    simp [Action.dispatchable, hchannel, htarget]
  · rename_i target htarget
    obtain ⟨sent, env, hanswer, hsend⟩ := exists_sendRequest c e g a target
    rw [hsend]
    cases sent with
    | false =>
      refine .refused .resource env e.expectedDown fun haccepts _ => ?_
      have := haccepts.send (a.route.getD target) (e.requestFor g a target) e.env
      rw [hanswer] at this
      cases this
    | true =>
      have hsome : a.target.isSome := by rw [htarget]; rfl
      dsimp only
      split
      · exact .recorded env hsome rfl
      · exact .sent env hsome

theorem dispatchEvent_outcome {a : Action} {g : Graph} {e : Engine ε}
    (ha : g.action? a.id = some a) :
    Outcome c a g e .clusterEvent (dispatchEvent c a.id g e) := by
  simp only [dispatchEvent, ha]
  split
  · rename_i htarget
    refine .refused .clusterEvent e.env e.expectedDown fun _ hchannel => ?_
    simp [Action.dispatchable, hchannel, htarget]
  · rename_i target htarget
    have hsome : a.target.isSome := by rw [htarget]; rfl
    split
    · exact .shutdown hsome
    · obtain ⟨down, hdown⟩ : ∃ down, (if a.task = some "do_shutdown" then
          e.expectDown (a.route.getD target) else e) = { e with expectedDown := down } := by
        simp only [expectDown]
        split
        · split
          · exact ⟨e.expectedDown, rfl⟩
          · exact ⟨_, rfl⟩
        · exact ⟨e.expectedDown, rfl⟩
      rw [hdown]
      obtain ⟨sent, env, hanswer, hsend⟩ :=
        exists_sendRequest c { e with expectedDown := down } g a target
      rw [hsend]
      cases sent with
      | false =>
        refine .refused .clusterEvent env down fun haccepts _ => ?_
        have := haccepts.send (a.route.getD target)
          (({ e with expectedDown := down } : Engine ε).requestFor g a target) e.env
        rw [hanswer] at this
        cases this
      | true =>
        dsimp only
        split
        · rename_i hquiet
          exact .told env down hsome hquiet
        · rename_i hquiet
          exact .asked env down hsome (by simpa using hquiet)

theorem dispatchFencing_outcome {a : Action} {g : Graph} {e : Engine ε}
    (ha : g.action? a.id = some a) :
    Outcome c a g e .fencing (dispatchFencing c a.id g e) := by
  simp only [dispatchFencing, ha]
  split
  · rename_i target uuid kind htarget huuid hkind
    rcases hfence : c.fence target kind g.stonithTimeout.toNat e.env with ⟨_ | call, env⟩
    · refine .refused .fencing env e.expectedDown fun haccepts _ => ?_
      have := haccepts.fence target kind g.stonithTimeout.toNat e.env
      rw [hfence] at this
      cases this
    · exact .fenced env call rfl rfl (by simp [htarget, huuid, hkind])
  · rename_i hnone
    refine .refused .fencing e.env e.expectedDown fun _ hchannel => ?_
    refine Bool.eq_false_iff.mpr fun hfields => ?_
    simp only [Action.dispatchable, hchannel, Bool.and_eq_true, Option.isSome_iff_exists] at hfields
    obtain ⟨⟨⟨target, htarget⟩, uuid, huuid⟩, kind, hkind⟩ := hfields
    exact hnone target uuid kind htarget huuid hkind

/-- **Every dispatch of an action comes to one of the outcomes.** -/
theorem dispatch_outcome {a : Action} {g : Graph} (e : Engine ε) (ha : g.action? a.id = some a)
    (channel : Channel) :
    Outcome c a g e channel ((dispatcher c).dispatch channel a.id g e) := by
  cases channel with
  | pseudo => exact .marker
  | resource => exact dispatchResource_outcome c ha
  | clusterEvent => exact dispatchEvent_outcome c ha
  | fencing => exact dispatchFencing_outcome c ha

/-! ## The graph -/

theorem release_advances (e : Engine ε) (g : Graph) (id : ActionId) :
    Advances id g (e.release g id).1 := by
  simp only [release]
  split
  · exact .refl
  · split
    · exact .single (.note g (fun _ => rfl) fun _ => rfl)
    · exact .refl

/-- Finishing an action releases it, settles it and spreads its completion. -/
theorem finishAction_advances (e : Engine ε) (g : Graph) (id : ActionId) :
    Advances id g (e.finishAction g id).1 :=
  (e.release_advances g id).tail (.finish _)

theorem startActionTimer_advances (e : Engine ε) (g : Graph) (id : ActionId) :
    Advances id g (e.startActionTimer g id).1 := by
  simp only [startActionTimer]
  split
  · exact .refl
  · exact .single (.note g (fun _ => rfl) fun _ => rfl)

theorem recordStatus_advances (e : Engine ε) (g : Graph) (id : ActionId) (status : OpStatus)
    (rc : Int) : Advances id g (e.recordStatus c g id status rc).1 := by
  simp only [recordStatus]
  split
  · exact .refl
  · dsimp only
    split
    · exact .single (.note g (fun _ => rfl) fun _ => rfl)
    · exact .refl

theorem awaitResult_advances (e : Engine ε) (g : Graph) (a : Action) :
    Advances a.id g (e.awaitResult g a).1 :=
  .head (.note g (f := fun a => { a with counted := true }) (fun _ => rfl) fun _ => rfl)
    (startActionTimer_advances _ _ _)

theorem resourceSent_advances (e : Engine ε) (g : Graph) (a : Action) :
    Advances a.id g (e.resourceSent g a).1 := by
  simp only [resourceSent]
  split
  · exact .single (.finish g)
  · split
    · exact .refl
    · exact awaitResult_advances e g a

/-- **An engine only advances the action that it dispatches.** -/
theorem dispatcher_advances (channel : Channel) (id : ActionId) (g : Graph) (e : Engine ε) :
    Advances id g ((dispatcher c).dispatch channel id g e).2.1 := by
  cases hfind : g.action? id with
  | none =>
    cases channel with
    | pseudo => exact finishAction_advances e g id
    | resource => simp only [dispatcher, dispatchResource, hfind]; exact .refl
    | clusterEvent => simp only [dispatcher, dispatchEvent, hfind]; exact .refl
    | fencing => simp only [dispatcher, dispatchFencing, hfind]; exact .refl
  | some a =>
    obtain ⟨-, -, -, rfl⟩ := exists_slot_of_action? hfind
    have hout := dispatch_outcome c e hfind channel
    generalize (dispatcher c).dispatch channel a.id g e = out at hout ⊢
    cases hout with
    | refused => exact .refl
    | marker => exact finishAction_advances e g a.id
    | sent => exact resourceSent_advances _ g a
    | recorded env htarget hsent =>
      have hsent' := resourceSent_advances { e with env } g a
      rw [hsent] at hsent'
      exact hsent'.trans (recordStatus_advances c _ _ _ _ _)
    | shutdown => exact .head (.shutdown g _) (finishAction_advances _ _ a.id)
    | told => exact finishAction_advances _ g a.id
    | asked => exact startActionTimer_advances _ g a.id
    | fenced => exact .refl

/-! ## Refusals -/

/-- An engine allows what the ledger has room for. -/
theorem allowed_eq {g : Graph} (hw : g.WellFormed) (e : Engine ε) {k : Nat} {a : Action}
    (ha : g.actions[k]? = some a) :
    ((dispatcher c).allowed a.id g e).1 = e.ledger.mayFire e.jobLimit g a := by
  simp only [dispatcher, allows, hw.action?_id ha]

/-- Where the ledger has room for every action, each synapse at or above the abort level may
fire. -/
theorem allowed_of_mayFire {g : Graph} (hw : g.WellFormed) {e : Engine ε} {priority : Int}
    (hlevel : g.abortPriority ≤ priority)
    (hroom : ∀ a, e.ledger.mayFire e.jobLimit g a = true) (slots : List Nat) :
    ∀ slot ∈ slots, ∀ a, g.actions[slot]? = some a → a.isPseudo = false →
      g.abortPriority ≤ priority ∧ ((dispatcher c).allowed a.id g e).1 = true := by
  intro slot _ a ha _
  refine ⟨hlevel, ?_⟩
  rw [allowed_eq c hw e ha]
  exact hroom a

/-- Only what has all that its request needs can go. -/
theorem dispatchable_of_goes {a : Action} {g : Graph} {e : Engine ε} {channel : Channel}
    (ha : g.action? a.id = some a) (hchannel : a.channel? = some channel)
    (hgo : ((dispatcher c).dispatch channel a.id g e).1 = true) : a.dispatchable = true := by
  have hout := dispatch_outcome c e ha channel
  generalize (dispatcher c).dispatch channel a.id g e = out at hout hgo
  cases hout with
  | refused => cases hgo
  | marker => simp [Action.dispatchable, hchannel]
  | sent _ htarget => simp [Action.dispatchable, hchannel, htarget]
  | recorded _ htarget => simp [Action.dispatchable, hchannel, htarget]
  | shutdown htarget => simp [Action.dispatchable, hchannel, htarget]
  | told _ _ htarget => simp [Action.dispatchable, hchannel, htarget]
  | asked _ _ htarget => simp [Action.dispatchable, hchannel, htarget]
  | fenced _ _ _ _ hfields => simp [Action.dispatchable, hchannel, hfields]

/-- **A cluster that accepts requests refuses only what lacks something.** -/
theorem dispatch_iff (hc : c.Accepts) {a : Action} {g : Graph} (e : Engine ε)
    (ha : g.action? a.id = some a) {channel : Channel} (hchannel : a.channel? = some channel) :
    ((dispatcher c).dispatch channel a.id g e).1 = true ↔ a.dispatchable = true := by
  refine ⟨dispatchable_of_goes c ha hchannel, fun hd => ?_⟩
  have hout := dispatch_outcome c e ha channel
  generalize (dispatcher c).dispatch channel a.id g e = out at hout ⊢
  cases hout with
  | refused _ _ _ hwhy =>
    rw [hwhy hc hchannel] at hd
    cases hd
  | marker | sent | recorded | shutdown | told | asked | fenced => rfl

/-- A pass goes on after an action that can be dispatched, if the cluster accepts requests. -/
theorem fireActions_goes_on (hc : c.Accepts) {g : Graph} (hw : g.WellFormed) (e : Engine ε)
    (pos : Nat) {slot : Nat} (slots : List Nat) {a : Action} (ha : g.actions[slot]? = some a)
    (hpending : a.status = .pending) (hd : a.dispatchable = true) :
    ∃ channel g' e', a.channel? = some channel ∧
      (dispatcher c).dispatch channel a.id (g.setStatusAt slot .executed) e = (true, g', e') ∧
      Graph.fireActions (dispatcher c) pos (slot :: slots) g e =
        Graph.fireActions (dispatcher c) pos slots g' e' := by
  obtain ⟨channel, hchannel⟩ := Action.exists_channel hd
  obtain ⟨-, hfind⟩ := hw.action?_setStatusAt ha .executed
  have hok := (dispatch_iff c hc e (a := { a with status := .executed }) hfind hchannel).mpr hd
  dsimp only at hok
  obtain ⟨⟨ok, g', e'⟩, hgoes⟩ : ∃ out, (dispatcher c).dispatch channel a.id
    (g.setStatusAt slot .executed) e = out := ⟨_, rfl⟩
  obtain rfl : ok = true := by rw [← hok, hgoes]
  refine ⟨channel, g', e', hchannel, hgoes, ?_⟩
  have hopen : a.status.isExecuted = false := by rw [hpending]; rfl
  simp [Graph.fireActions, Graph.initiateAction, ha, hopen, hchannel, hgoes]

/-! ## The limits and the fencing requests -/

/-- The part of an engine that sending, timing and completing an action leaves alone: the job limits
and the outstanding fencing requests. -/
def frame (e : Engine ε) : (String → Int) × Table Nat FenceCall := (e.jobLimit, e.fenceCalls)

theorem jobLimit_of_frame {e e' : Engine ε} (h : e'.frame = e.frame) : e'.jobLimit = e.jobLimit :=
  congrArg Prod.fst h

theorem fenceCalls_of_frame {e e' : Engine ε} (h : e'.frame = e.frame) :
    e'.fenceCalls = e.fenceCalls :=
  congrArg Prod.snd h

@[simp] theorem frame_release (e : Engine ε) (g : Graph) (id : ActionId) :
    (e.release g id).2.frame = e.frame := by
  simp only [release]
  split
  · rfl
  · split <;> rfl

@[simp] theorem frame_finishAction (e : Engine ε) (g : Graph) (id : ActionId) :
    (e.finishAction g id).2.frame = e.frame :=
  frame_release e g id

@[simp] theorem frame_startActionTimer (e : Engine ε) (g : Graph) (id : ActionId) :
    (e.startActionTimer g id).2.frame = e.frame := by
  simp only [startActionTimer]
  split <;> rfl

@[simp] theorem frame_recordStatus (e : Engine ε) (g : Graph) (id : ActionId)
    (status : OpStatus) (rc : Int) :
    (e.recordStatus c g id status rc).2.frame = e.frame := by
  simp only [recordStatus]
  split <;> rfl

@[simp] theorem frame_resourceSent (e : Engine ε) (g : Graph) (a : Action) :
    (e.resourceSent g a).2.frame = e.frame := by
  simp only [resourceSent]
  split
  · rfl
  · split
    · rfl
    · exact frame_startActionTimer ..

/-- **A dispatch leaves the limits and the fencing requests alone**, but for the request that it may
start. -/
theorem dispatch_frame (channel : Channel) (id : ActionId) (g : Graph) (e : Engine ε) :
    ((dispatcher c).dispatch channel id g e).2.2.frame = e.frame ∨
      ∃ call fence, fence.action = id ∧ ((dispatcher c).dispatch channel id g e).2.2.frame =
        (e.jobLimit, e.fenceCalls.insert call fence) := by
  cases hfind : g.action? id with
  | none =>
    refine .inl ?_
    cases channel with
    | pseudo => exact frame_finishAction e g id
    | resource => simp only [dispatcher, dispatchResource, hfind]
    | clusterEvent => simp only [dispatcher, dispatchEvent, hfind]
    | fencing => simp only [dispatcher, dispatchFencing, hfind]
  | some a =>
    obtain ⟨-, -, -, rfl⟩ := exists_slot_of_action? hfind
    have hout := dispatch_outcome c e hfind channel
    generalize (dispatcher c).dispatch channel a.id g e = out at hout ⊢
    cases hout with
    | refused => exact .inl rfl
    | marker => exact .inl (frame_finishAction e g a.id)
    | sent env => exact .inl (frame_resourceSent { e with env } g a)
    | recorded env _ hsent =>
      have hsent' := frame_resourceSent { e with env } g a
      rw [hsent] at hsent'
      exact .inl ((frame_recordStatus ..).trans hsent')
    | shutdown => exact .inl (frame_finishAction e _ a.id)
    | told env down =>
      exact .inl (frame_finishAction ({ e with env, expectedDown := down } : Engine ε) g a.id)
    | asked env down =>
      exact .inl (frame_startActionTimer ({ e with env, expectedDown := down } : Engine ε) g a.id)
    | fenced env call haction => exact .inr ⟨call, _, haction, rfl⟩

/-- A dispatch changes no job limit. -/
theorem jobLimit_dispatch (channel : Channel) (id : ActionId) (g : Graph) (e : Engine ε) :
    ((dispatcher c).dispatch channel id g e).2.2.jobLimit = e.jobLimit := by
  rcases dispatch_frame c channel id g e with h | ⟨call, fence, -, h⟩
  · exact jobLimit_of_frame h
  · exact congrArg Prod.fst h

end Engine
end ClusterTransition
