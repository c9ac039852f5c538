import ClusterTransition.Proofs.Ledger.Charges
import ClusterTransition.Proofs.Pass.Ownership

/-! # The job accounts are exact

An action holds job slots from the moment its request is sent until its result is known, and then
gives them back.  It does so on many ways: through a result, a failure, a timeout, a fencing, an
administrator's word, and in the middle of a pass.  `Accounted` says what all of them keep, that
exactly the running resource operations are counted, and that the ledger holds the sums of their
charges.

While something is done on behalf of one action, the accounts are kept but for the flag of that
action, which every way sets right before it ends.  The one way on which a flag could be left behind
is a pass that fails an action which still runs; that never happens, since a pass only comes upon
actions of a synapse that has not fired before (`PassState.Orderly`).
-/

namespace ClusterTransition

open ClusterTransition.Graph
  (Edits exists_slot_of_action? exists_action_of_slotOf? action?_eq_none_iff)

/-! ## Actions -/

namespace Action

/-- The action without the notes that are made on it. -/
def standing (a : Action) : Action :=
  { a with sentUpdate := false, op := { a.op with timeoutMs := 0 } }

/-- The action is counted exactly while it is a resource operation that runs. -/
def Counts (a : Action) : Prop :=
  a.counted = true ↔ a.isResourceOp = true ∧ a.status = .executed

theorem counts_of_uncounted {a : Action} (hcounted : a.counted = false)
    (hstatus : a.status ≠ .executed) : a.Counts := by
  simp [Counts, hcounted, hstatus]

theorem Counts.uncounted {a : Action} (h : a.Counts) (hstatus : a.status ≠ .executed) :
    a.counted = false := by
  by_contra hcounted
  exact hstatus (h.mp (by simpa using hcounted)).2

/-- The channel of an action tells whether it is a resource operation. -/
theorem isResourceOp_of_channel {a : Action} {channel : Channel} (h : a.channel? = some channel) :
    a.isResourceOp = true ↔ channel = .resource := by
  simp only [channel?] at h
  cases hkind : a.kind with
  | pseudo =>
    rw [hkind] at h
    obtain rfl := Option.some.inj h
    simp [isResourceOp, hkind]
  | resource =>
    rw [hkind] at h
    obtain rfl := Option.some.inj h
    simp [isResourceOp, hkind]
  | clusterEvent =>
    have hne : channel ≠ .resource := by
      rintro rfl
      rw [hkind] at h
      dsimp only at h
      split at h <;> cases h
    simp [isResourceOp, hkind, hne]

end Action

/-! ## Accounts -/

/-- The accounts are exact, but for the flag of the action at the slot `except` if there is one. -/
structure Accounted (except : Option Nat) (g : Graph) (l : Ledger) : Prop where
  counted : ∀ (k : Nat) (a : Action), g.actions[k]? = some a → some k ≠ except → a.Counts
  counts : ∀ node, l.get node = g.charged node

namespace Accounted

variable {g g' : Graph} {l l' : Ledger} {except : Option Nat}

/-- A new graph and an empty ledger. -/
theorem of_fresh (hg : g.Fresh) (hl : ∀ node, l.get node = {}) : Accounted none g l where
  counted k a ha _ := by
    obtain ⟨hstatus, hcounted⟩ := hg.actions a (List.mem_of_getElem? ha)
    exact Action.counts_of_uncounted hcounted (by rw [hstatus]; simp)
  counts node := by
    rw [hl, Graph.charged_of_uncounted fun a ha => (hg.actions a ha).2]

theorem weaken (h : Accounted none g l) (except : Option Nat) : Accounted except g l :=
  ⟨fun k a ha _ => h.counted k a ha (by simp), h.counts⟩

/-- The exception ends once the flag of its action is right. -/
theorem close {k : Nat} (h : Accounted (some k) g l)
    (hk : ∀ a, g.actions[k]? = some a → a.Counts) : Accounted none g l := by
  refine ⟨fun j a ha _ => ?_, h.counts⟩
  by_cases hj : j = k
  · subst hj
    exact hk a ha
  · exact h.counted j a ha (by simpa using hj)

/-- Notes on actions do not touch the accounts. -/
theorem of_standing (h : Accounted except g l)
    (hs : g'.actions.map Action.standing = g.actions.map Action.standing) :
    Accounted except g' l := by
  constructor
  · intro k a' ha' hk
    have := congrArg (·[k]?) hs
    simp only [List.getElem?_map, ha', Option.map_some] at this
    obtain ⟨a, ha, heq⟩ := Option.map_eq_some_iff.mp this.symm
    have hcounts : a.standing.Counts := h.counted k a ha hk
    rw [heq] at hcounts
    exact hcounts
  · intro node
    have hmap (u : Graph) : u.charged node =
        ({ u with actions := u.actions.map Action.standing } : Graph).charged node := by
      simp only [Graph.charged_eq, List.map_map]
      rfl
    rw [h.counts, hmap g, hmap g', hs]
    rfl

/-- Where no resource operation runs, nothing is charged. -/
theorem eq_zero_of_idle (h : Accounted none g l)
    (hidle : ∀ a ∈ g.actions, a.isResourceOp = true → a.status ≠ .executed) (node : String) :
    l.get node = {} := by
  rw [h.counts]
  refine Graph.charged_of_uncounted (fun a ha => ?_) node
  obtain ⟨k, hk⟩ := List.getElem?_of_mem ha
  by_contra hcounted
  obtain ⟨hresource, hexec⟩ := (h.counted k a hk (by simp)).mp (by simpa using hcounted)
  exact hidle a ha hresource hexec

theorem of_actions (h : Accounted except g l) (hs : g'.actions = g.actions) :
    Accounted except g' l :=
  h.of_standing (by rw [hs])

/-- The action at the exception may change, if the ledger follows its flag. -/
theorem modify {k : Nat} {a : Action} {f : Action → Action} (h : Accounted (some k) g l)
    (ha : g.actions[k]? = some a) (hplan : (f a).plan = a.plan)
    (hl : ∀ node, l'.get node =
      { jobs := (l.get node).jobs + ((if (f a).counted then (a.charge node).jobs else 0) -
          if a.counted then (a.charge node).jobs else 0)
        migrateJobs := (l.get node).migrateJobs +
          ((if (f a).counted then (a.charge node).migrateJobs else 0) -
            if a.counted then (a.charge node).migrateJobs else 0) }) :
    Accounted (some k) { g with actions := g.actions.modify k f } l' := by
  constructor
  · intro j b hb hj
    have hne : k ≠ j := fun hk => hj (by rw [hk])
    simp only [List.getElem?_modify, if_neg hne, Option.map_eq_map, Option.map_id_fun',
      id_eq] at hb
    exact h.counted j b hb hj
  · intro node
    rw [hl, Graph.charged_modify ha, h.counts, Action.charge_eq_of_plan hplan]

/-- The action at the exception may change while its flag stays. -/
theorem keep {k : Nat} {f : Action → Action} (h : Accounted (some k) g l)
    (hplan : ∀ a, (f a).plan = a.plan) (hcounted : ∀ a, (f a).counted = a.counted) :
    Accounted (some k) { g with actions := g.actions.modify k f } l := by
  cases ha : g.actions[k]? with
  | none =>
    have hsame : g.actions.modify k f = g.actions := modify_of_eq fun a h => by simp [ha] at h
    exact h.of_actions hsame
  | some a => exact h.modify ha (hplan a) fun node => by simp [hcounted]

theorem setStatusAt {slot : Nat} (h : Accounted (some slot) g l) (status : ActionStatus) :
    Accounted (some slot) (g.setStatusAt slot status) l :=
  h.keep (fun _ => rfl) fun _ => rfl

/-- A synapse that could not be fired leaves the accounts exact, if its action holds no slots. -/
theorem failFiring {slot : Nat} (h : Accounted (some slot) g l)
    (huncounted : ∀ a, g.actions[slot]? = some a → a.counted = false) (pos : Nat) :
    Accounted none (g.failFiring pos slot) l := by
  have hset := (h.setStatusAt (.failed .initiation)).close fun a ha => by
    simp only [Graph.setStatusAt, List.getElem?_modify_eq] at ha
    obtain ⟨b, hb, rfl⟩ := Option.map_eq_some_iff.mp ha
    exact Action.counts_of_uncounted (huncounted b hb) (by simp)
  exact hset.of_actions rfl

/-! ### Settling -/

theorem settle {id : ActionId} (h : Accounted (g.slotOf? id) g l) (status : ActionStatus) :
    Accounted (g.slotOf? id) (g.settle id status).2 l := by
  cases hk : g.slotOf? id with
  | none =>
    rw [hk] at h
    simpa only [Graph.settle, action?_eq_none_iff.mpr hk] using h
  | some k =>
    rw [hk] at h
    rw [Graph.settle_eq hk]
    refine h.keep (fun a => ?_) fun a => ?_ <;> split <;> rfl

/-- Completing an action that holds no slots leaves the accounts exact. -/
theorem finish {id : ActionId} (h : Accounted (g.slotOf? id) g l)
    (huncounted : ∀ a, g.action? id = some a → a.counted = false) :
    Accounted none ((g.settle id .confirmed).2.update id).2 l := by
  refine Accounted.of_actions ?_ (Graph.actions_update_settle g id rfl)
  have hset := h.settle .confirmed
  cases hk : g.slotOf? id with
  | none => rwa [hk] at hset
  | some k =>
    rw [hk] at hset
    refine hset.close fun a ha => ?_
    rw [Graph.settle_eq hk] at ha
    simp only [List.getElem?_modify_eq] at ha
    obtain ⟨b, hb, rfl⟩ := Option.map_eq_some_iff.mp ha
    have hb' := huncounted b ((Graph.action?_eq_getElem? hk).trans hb)
    split
    · rename_i hc
      refine Action.counts_of_uncounted hb' fun hexec => ?_
      rw [hexec] at hc
      cases hc
    · exact Action.counts_of_uncounted hb' (by simp)

end Accounted

/-! ## The engine -/

namespace Engine

variable {ε : Type} (c : Cluster ε) {g : Graph} {e : Engine ε} {id : ActionId}

/-- Releasing an action takes its flag and its charge back together. -/
theorem release_accounted (h : Accounted (g.slotOf? id) g e.ledger) :
    Accounted (g.slotOf? id) (e.release g id).1 (e.release g id).2.ledger ∧
      ∀ a, (e.release g id).1.action? id = some a → a.counted = false := by
  simp only [release]
  split
  · rename_i hnone
    exact ⟨h, fun a ha => by simp [hnone] at ha⟩
  · rename_i a ha
    obtain ⟨k, hk, hget, -⟩ := exists_slot_of_action? ha
    split
    · rename_i hcounted
      constructor
      · rw [hk] at h ⊢
        dsimp only
        rw [Graph.modifyAction_eq hk]
        refine h.modify hget rfl fun node => ?_
        rw [Ledger.get_recordAction]
        simp only [hcounted, if_true, Bool.false_eq_true, if_false, PeerJobs.mk.injEq]
        omega
      · intro b hb
        have hfind := Graph.action?_modifyAction ha
          (f := fun a => { a with counted := false }) fun _ => rfl
        obtain rfl := Option.some.inj (hfind.symm.trans hb)
        rfl
    · rename_i hcounted
      refine ⟨h, fun b hb => ?_⟩
      rw [ha, Option.some.injEq] at hb
      rw [← hb]
      simpa using hcounted

/-- **Finishing an action leaves the accounts exact**, whatever its flag was. -/
theorem finishAction_accounted (h : Accounted (g.slotOf? id) g e.ledger) :
    Accounted none (e.finishAction g id).1 (e.finishAction g id).2.ledger := by
  obtain ⟨hrelease, huncounted⟩ := release_accounted h
  have hslot := Graph.slotOf?_eq_of_plan (release_advances e g id).edits.plan id
  rw [← hslot] at hrelease
  exact hrelease.finish huncounted

theorem standing_modifyAction (g : Graph) (id : ActionId) {f : Action → Action}
    (hf : ∀ a, (f a).standing = a.standing) :
    (g.modifyAction id f).actions.map Action.standing = g.actions.map Action.standing := by
  simp only [Graph.modifyAction]
  split
  · rfl
  · exact map_modify_of_eq hf ..

/-- Arming a timer is a note. -/
theorem startActionTimer_accounted (h : Accounted none g e.ledger) (id : ActionId) :
    Accounted none (e.startActionTimer g id).1 (e.startActionTimer g id).2.ledger := by
  simp only [startActionTimer]
  split
  · exact h
  · exact h.of_standing (standing_modifyAction g id fun _ => rfl)

/-- Storing a status record is a note. -/
theorem recordStatus_accounted {except : Option Nat} (h : Accounted except g e.ledger)
    (id : ActionId) (status : OpStatus) (rc : Int) :
    Accounted except (e.recordStatus c g id status rc).1
      (e.recordStatus c g id status rc).2.ledger := by
  simp only [recordStatus]
  split
  · exact h
  · dsimp only
    split
    · exact h.of_standing (standing_modifyAction g id fun _ => rfl)
    · exact h

/-! ### Dispatch -/

/-- Awaiting the result of a resource operation takes the flag and the charge together. -/
theorem awaitResult_accounted {a : Action} (h : Accounted (g.slotOf? a.id) g e.ledger)
    (ha : g.action? a.id = some a) (hresource : a.isResourceOp) (hexec : a.status = .executed)
    (huncounted : a.counted = false) :
    Accounted none (e.awaitResult g a).1 (e.awaitResult g a).2.ledger := by
  obtain ⟨k, hk, hget, -⟩ := exists_slot_of_action? ha
  refine startActionTimer_accounted (Accounted.close (k := k) ?_ fun b hb => ?_) a.id
  · rw [hk] at h
    rw [Graph.modifyAction_eq hk]
    refine h.modify hget rfl fun node => ?_
    rw [Ledger.get_recordAction]
    simp only [huncounted, if_true, Bool.false_eq_true, if_false, PeerJobs.mk.injEq]
    omega
  · rw [Graph.modifyAction_eq hk] at hb
    simp only [List.getElem?_modify_eq, hget] at hb
    obtain rfl := Option.some.inj hb
    exact ⟨fun _ => ⟨hresource, hexec⟩, fun _ => rfl⟩

theorem resourceSent_accounted {a : Action} (h : Accounted (g.slotOf? a.id) g e.ledger)
    (ha : g.action? a.id = some a) (hresource : a.isResourceOp) (hexec : a.status = .executed)
    (huncounted : a.counted = false) :
    Accounted none (e.resourceSent g a).1 (e.resourceSent g a).2.ledger := by
  simp only [resourceSent]
  split
  · refine h.finish fun b hb => ?_
    rw [ha, Option.some.injEq] at hb
    exact hb ▸ huncounted
  · split
    · rename_i hc
      rw [hexec] at hc
      cases hc
    · exact awaitResult_accounted h ha hresource hexec huncounted

/-- What a dispatch may leave of the accounts: they are exact if the action goes, and else the graph
and the ledger are as they were. -/
def KeepsAccounts (g : Graph) (e : Engine ε) (out : Bool × Graph × Engine ε) : Prop :=
  if out.1 then Accounted none out.2.1 out.2.2.ledger else out.2.1 = g ∧ out.2.2.ledger = e.ledger

/-- **A dispatch of an action that was just marked executed keeps the accounts.** -/
theorem dispatch_accounted {a : Action} {channel : Channel}
    (h : Accounted (g.slotOf? a.id) g e.ledger) (ha : g.action? a.id = some a)
    (hchannel : a.channel? = some channel) (hexec : a.status = .executed)
    (huncounted : a.counted = false) :
    KeepsAccounts g e ((dispatcher c).dispatch channel a.id g e) := by
  obtain ⟨k, hk, hget, -⟩ := exists_slot_of_action? ha
  have hkind := Action.isResourceOp_of_channel hchannel
  -- an action that is no resource operation is rightly uncounted while it runs
  have hclosed (hne : channel ≠ .resource) : Accounted none g e.ledger := by
    rw [hk] at h
    refine h.close fun b hb => ?_
    rw [hget, Option.some.injEq] at hb
    subst hb
    simp [Action.Counts, huncounted, mt hkind.mp hne]
  have hout := dispatch_outcome c e ha channel
  generalize (dispatcher c).dispatch channel a.id g e = out at hout ⊢
  cases hout with
  | refused => exact ⟨rfl, rfl⟩
  | marker => exact finishAction_accounted h
  | sent env =>
    exact resourceSent_accounted (e := { e with env }) h ha (hkind.mpr rfl) hexec huncounted
  | recorded env _ hsent =>
    have hsent' := resourceSent_accounted (e := { e with env }) h ha (hkind.mpr rfl) hexec
      huncounted
    rw [hsent] at hsent'
    exact recordStatus_accounted c hsent' a.id .pending rcUnknown
  | shutdown => exact finishAction_accounted (h.of_actions rfl)
  | told env down =>
    exact finishAction_accounted (e := { e with env, expectedDown := down }) h
  | asked env down =>
    have hclosed' : Accounted none g ({ e with env, expectedDown := down } : Engine ε).ledger :=
      hclosed (by simp)
    exact startActionTimer_accounted hclosed' a.id
  | fenced => exact hclosed (by simp)

/-! ### Reports -/

theorem failExecuted_accounted {l : Ledger} (h : Accounted (g.slotOf? id) g l) (reason : String) :
    Accounted ((failExecuted g id reason).slotOf? id) (failExecuted g id reason) l := by
  have hslot := Graph.slotOf?_eq_of_plan (failExecuted_edits g id reason).plan id
  rw [hslot]
  exact (h.settle (.failed .execution)).of_actions rfl

theorem processResult_accounted (h : Accounted none g e.ledger) (r : ActionResult) :
    Accounted none (e.processResult g r).2.1 (e.processResult g r).2.2.ledger := by
  simp only [processResult]
  split
  · exact h
  · rename_i key a _
    split
    · exact h
    · have hfail := failExecuted_accounted (h.weaken (g.slotOf? a.id)) "Event failed"
      refine finishAction_accounted ?_
      split
      · exact hfail
      · exact h.weaken _

theorem actionTimedOut_accounted (h : Accounted none g e.ledger) (id : ActionId) :
    Accounted none (e.actionTimedOut c g id).2.1 (e.actionTimedOut c g id).2.2.ledger := by
  simp only [actionTimedOut]
  split
  · exact h
  · split
    · exact h
    · have hplan := Graph.plan_settle g id (.failed .timedOut)
      have hset := (h.weaken (g.slotOf? id)).settle (.failed .timedOut)
      rw [← Graph.slotOf?_eq_of_plan hplan id] at hset
      refine finishAction_accounted ?_
      split
      · have hrecord := recordStatus_accounted c hset id .timedOut rcUnknown
        have hplan' := (recordStatus_advances c e (g.settle id (.failed .timedOut)).2 id
          .timedOut rcUnknown).edits.plan
        rwa [← Graph.slotOf?_eq_of_plan hplan' id] at hrecord
      · exact hset

theorem nodeFenced_accounted (h : Accounted none g e.ledger) (fence : FenceCall) :
    Accounted none (e.nodeFenced c g fence).1 (e.nodeFenced c g fence).2.ledger :=
  finishAction_accounted (h.weaken _)

theorem fencingFailed_accounted (h : Accounted none g e.ledger) (fence : FenceCall) :
    Accounted none (e.fencingFailed g fence).1 (e.fencingFailed g fence).2.ledger :=
  finishAction_accounted (failExecuted_accounted (h.weaken _) "Stonith failed")

theorem fencingResult_accounted (h : Accounted none g e.ledger) (call : Nat)
    (outcome : Except String Unit) :
    Accounted none (e.fencingResult c g call outcome).2.1
      (e.fencingResult c g call outcome).2.2.ledger := by
  simp only [fencingResult]
  split
  · exact h
  · rename_i fence _
    have herased : Accounted none g ({ e with fenceCalls := e.fenceCalls.erase call } :
      Engine ε).ledger := h
    split
    · exact h
    · split
      · exact nodeFenced_accounted c herased fence
      · exact fencingFailed_accounted herased fence

theorem completeFencing_accounted (h : Accounted none g e.ledger)
    (calls : List (Nat × FenceCall)) :
    Accounted none (e.completeFencing c g calls).1 (e.completeFencing c g calls).2.ledger := by
  induction calls generalizing e g with
  | nil => exact h
  | cons head rest ih =>
    have herased : Accounted none g ({ e with fenceCalls := e.fenceCalls.erase head.1 } :
      Engine ε).ledger := h
    exact ih (nodeFenced_accounted c herased head.2)

theorem confirmNodeSafe_accounted (h : Accounted none g e.ledger) (target : String) :
    Accounted none (e.confirmNodeSafe c g target).2.1
      (e.confirmNodeSafe c g target).2.2.ledger := by
  simp only [confirmNodeSafe]
  rcases c.confirmSafe target e.env with ⟨_ | _, env⟩
  · exact h
  · have hsafe : Accounted none g ({ e with env } : Engine ε).ledger := h
    exact completeFencing_accounted c hsafe _

end Engine

/-! ## Runs -/

/-- Where a pass of an engine stands with respect to the accounts. -/
structure PassState.Exact {ε : Type} (x : PassState (Engine ε)) : Prop where
  orderly : x.Orderly
  accounted : Accounted none x.graph x.state.ledger

/-- An action that was just marked executed is the exception, and holds no slots yet. -/
theorem Accounted.mark {g : Graph} {l : Ledger} {slot : Nat} {a : Action}
    (h : Accounted none g l) (hw : g.WellFormed) (ha : g.actions[slot]? = some a)
    (hpending : a.status = .pending) :
    a.counted = false ∧
      (g.setStatusAt slot .executed).actions[slot]? = some { a with status := .executed } ∧
      (g.setStatusAt slot .executed).slotOf? a.id = some slot ∧
      Accounted (some slot) (g.setStatusAt slot .executed) l := by
  have huncounted := (h.counted slot a ha (by simp)).uncounted (by rw [hpending]; simp)
  exact ⟨huncounted, Graph.getElem?_setStatusAt ha .executed,
    (hw.action?_setStatusAt ha .executed).1, (h.weaken _).setStatusAt _⟩

theorem Engine.dispatch_marked {ε : Type} (c : Cluster ε) {g : Graph} {e : Engine ε} {slot : Nat}
    {a : Action} {channel : Channel} (h : Accounted none g e.ledger) (hw : g.WellFormed)
    (ha : g.actions[slot]? = some a) (hpending : a.status = .pending)
    (hchannel : a.channel? = some channel) :
    KeepsAccounts (g.setStatusAt slot .executed) e
      ((dispatcher c).dispatch channel a.id (g.setStatusAt slot .executed) e) := by
  obtain ⟨huncounted, hget, hslot, hmark⟩ := h.mark hw ha hpending
  have hfind := (Graph.action?_eq_getElem? hslot).trans hget
  exact dispatch_accounted c (a := { a with status := .executed }) (hslot ▸ hmark) hfind hchannel
    rfl huncounted

theorem PassState.Exact.step {ε : Type} (c : Cluster ε) {x y : PassState (Engine ε)}
    (hx : x.Exact) (h : PassStep (Engine.dispatcher c) x y) : y.Exact := by
  refine ⟨hx.orderly.step (Engine.dispatcher_handles c) h, ?_⟩
  have hw := hx.orderly.wellFormed
  cases h with
  | count | ready | skip | fire | fired | conclude => exact hx.accounted.of_actions rfl
  | dispatch pos slots ha hpending hchannel hgoes =>
    have hkeeps := Engine.dispatch_marked c hx.accounted hw ha hpending hchannel
    rw [hgoes] at hkeeps
    exact hkeeps
  | refuse pos slots ha hpending hchannel hstays =>
    obtain ⟨huncounted, hget, hslot, hmark⟩ := hx.accounted.mark hw ha hpending
    have hkeeps := Engine.dispatch_marked c hx.accounted hw ha hpending hchannel
    rw [hstays] at hkeeps
    obtain ⟨rfl, hledger⟩ := hkeeps
    dsimp only at hledger ⊢
    rw [hledger]
    refine hmark.failFiring (fun b hb => ?_) pos
    rw [hget, Option.some.injEq] at hb
    exact hb ▸ huncounted
  | unroutable st pos slots ha hpending hchannel =>
    obtain ⟨huncounted, hget, hslot, hmark⟩ := hx.accounted.mark hw ha hpending
    refine hmark.failFiring (fun b hb => ?_) pos
    rw [hget, Option.some.injEq] at hb
    exact hb ▸ huncounted
  | again st pos slots hslot =>
    -- the action is not pending, and it cannot run since its synapse has only just fired
    obtain ⟨-, hidle, -⟩ := hx.orderly.firing pos _ rfl
    refine (hx.accounted.weaken _).failFiring (fun b hb => ?_) pos
    refine (hx.accounted.counted _ b hb (by simp)).uncounted fun hexec => ?_
    exact hidle _ (List.mem_cons_self ..) (by simp [Graph.statusAt, hb, hexec])

/-- A graph and a ledger between the moves of a run. -/
structure Graph.Settled (g : Graph) (l : Ledger) : Prop where
  wellFormed : g.WellFormed
  untouched : g.Untouched
  accounted : Accounted none g l

/-- **Every move keeps the accounts exact.** -/
theorem Move.settled {ε : Type} (c : Cluster ε) (m : Move) {s : Graph × Engine ε}
    (h : s.1.Settled s.2.ledger) : (m.make c s).1.Settled (m.make c s).2.ledger := by
  have hw := h.wellFormed.of_plan (m.plan c s)
  by_cases hm : m = .pass
  · subst hm
    have hstart : PassState.Exact ⟨.visiting, s.1, s.2⟩ :=
      ⟨⟨h.wellFormed, h.untouched, by simp⟩, h.accounted⟩
    have hend := Graph.run_induction (Engine.dispatcher_steady c)
      (fun _ _ hstep hx => PassState.Exact.step c hx hstep) s.1 s.2 hstart
    exact ⟨hw, hend.orderly.untouched, hend.accounted⟩
  · refine ⟨hw, h.untouched.reported (m.reported c hm s), ?_⟩
    cases m with
    | pass => exact absurd rfl hm
    | result r => exact Engine.processResult_accounted h.accounted r
    | timeout id => exact Engine.actionTimedOut_accounted c h.accounted id
    | fencing call outcome => exact Engine.fencingResult_accounted c h.accounted call outcome
    | nodeSafe target => exact Engine.confirmNodeSafe_accounted c h.accounted target
    | abort => exact h.accounted.of_actions rfl

theorem Graph.settled_of_toGraph {d : GraphDocument} {g : Graph} (h : d.toGraph = .ok g)
    {ε : Type} (e : Engine ε) : g.Settled e.startTransition.ledger :=
  have hloaded := GraphDocument.loadedAs_of_toGraph h
  ⟨hloaded.wellFormed, hloaded.fresh.untouched,
    .of_fresh hloaded.fresh fun _ => Ledger.get_reset ..⟩

theorem Move.makeAll_settled {ε : Type} (c : Cluster ε) (moves : List Move)
    {s : Graph × Engine ε} (h : s.1.Settled s.2.ledger) :
    (makeAll c moves s).1.Settled (makeAll c moves s).2.ledger :=
  makeAll_induction (P := fun s => s.1.Settled s.2.ledger) c (fun m _ hs => m.settled c hs) moves h

/-- **The job accounts are exact.**  After any run of an engine on a graph of the loader, the
counted actions are the resource operations that run, and the ledger holds the sums of their
charges.  So no count is negative, none exceeds twice the number of actions, which leaves room in 32
bits for fewer than 2^30 actions, and all are zero while no resource operation runs. -/
theorem accounts_exact {d : GraphDocument} {g : Graph} (h : d.toGraph = .ok g) {ε : Type}
    (c : Cluster ε) (e : Engine ε) (moves : List Move) {g' : Graph} {e' : Engine ε}
    (hrun : Move.makeAll c moves (g, e.startTransition) = (g', e')) :
    (∀ a ∈ g'.actions, a.counted = true ↔ a.isResourceOp = true ∧ a.status = .executed) ∧
    (∀ node, e'.ledger.get node = g'.charged node) ∧
    (∀ node, 0 ≤ (e'.ledger.get node).jobs ∧ 0 ≤ (e'.ledger.get node).migrateJobs ∧
      (e'.ledger.get node).jobs ≤ 2 * g.actions.length ∧
      (e'.ledger.get node).migrateJobs ≤ 2 * g.actions.length) ∧
    ((∀ a ∈ g'.actions, a.isResourceOp = true → a.status ≠ .executed) →
      ∀ node, e'.ledger.get node = {}) := by
  have hend := Move.makeAll_settled c moves (s := (g, e.startTransition))
    (Graph.settled_of_toGraph h e)
  have hplan : (Move.makeAll c moves (g, e.startTransition)).1.plan = g.plan :=
    Move.plan_makeAll c moves _
  rw [hrun] at hend hplan
  have hcounted : ∀ a ∈ g'.actions, a.Counts := by
    intro a ha
    obtain ⟨k, hk⟩ := List.getElem?_of_mem ha
    exact hend.accounted.counted k a hk (by simp)
  have hcounts : ∀ node, e'.ledger.get node = g'.charged node := hend.accounted.counts
  refine ⟨hcounted, hcounts, fun node => ?_, hend.accounted.eq_zero_of_idle⟩
  have hbounds := g'.charged_bounds node
  rw [Graph.actions_length_of_plan hplan] at hbounds
  rw [hcounts]
  omega

/-- A migration and a start, with nothing to wait for. -/
def GraphDocument.migrationAndStart : GraphDocument where
  transitionId := 1
  synapses :=
    [{ id := 0
       actions :=
         [{ id := 1, kind := .resource, task := some "migrate_to", target := some "node1"
            params := .ofList [("CRM_meta_migrate_source", "node1"),
              ("CRM_meta_migrate_target", "node2")] }] },
     { id := 1
       actions := [{ id := 2, kind := .resource, task := some "start", target := some "node1" }] }]

/-- Both are charged in the first pass; the expiry of the migration's timer gives its slots back. -/
theorem migrationAndStart_exact : ∃ g, GraphDocument.migrationAndStart.toGraph = .ok g ∧
    let after moves :=
      Move.makeAll .willing moves (g, (Engine.new { node := "node1" } 0).startTransition)
    (∀ node, (after [.pass]).2.ledger.get node = (after [.pass]).1.charged node) ∧
    (∀ node, (after [.pass, .timeout 1]).2.ledger.get node =
      (after [.pass, .timeout 1]).1.charged node) ∧
    (after [.pass]).2.ledger.get "node1" = { jobs := 2, migrateJobs := 1 } ∧
    (after [.pass]).2.ledger.get "node2" = { jobs := 1, migrateJobs := 1 } ∧
    (after [.pass, .timeout 1]).2.ledger.get "node1" = { jobs := 1 } ∧
    (after [.pass, .timeout 1]).2.ledger.get "node2" = {} := by
  refine ⟨_, rfl, ?_, ?_, rfl, rfl, rfl, rfl⟩
  · exact (accounts_exact (d := .migrationAndStart) rfl .willing (Engine.new { node := "node1" } 0)
      [.pass] rfl).2.1
  · exact (accounts_exact (d := .migrationAndStart) rfl .willing (Engine.new { node := "node1" } 0)
      [.pass, .timeout 1] rfl).2.1

end ClusterTransition
