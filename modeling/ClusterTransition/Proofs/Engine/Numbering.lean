import ClusterTransition.Proofs.Engine.Moves

/-! # The numbers of fencing requests

The engine keeps its outstanding fencing requests under the numbers that the cluster gives to them.
A cluster that never gives a number twice (`Cluster.NumbersOnce`) gives a new request a number under
which nothing is outstanding, whatever the engine has done since its start
(`Engine.Renumbered`, `Move.renumbered`).
-/

namespace ClusterTransition

/-- The cluster gives no number to two fencing requests.  `used env call` says that the number
`call` was given in the past of the surroundings `env`. -/
structure Cluster.NumbersOnce {ε : Type} (c : Cluster ε) (used : ε → Nat → Prop) : Prop where
  fresh : ∀ {target kind : String} {timeout : Nat} {env env' : ε} {call : Nat},
    c.fence target kind timeout env = (some call, env') → ¬ used env call ∧ used env' call
  fence : ∀ target kind timeout env call,
    used env call → used (c.fence target kind timeout env).2 call
  send : ∀ node request env call, used env call → used (c.send node request env).2 call
  storeStatus : ∀ a status rc env call,
    used env call → used (c.storeStatus a status rc env).2 call
  storeFenced : ∀ target uuid env call, used env call → used (c.storeFenced target uuid env).2 call
  confirmSafe : ∀ target env call, used env call → used (c.confirmSafe target env).2 call

theorem Cluster.willing_numbersOnce : Cluster.willing.NumbersOnce fun n call => call < n where
  fresh h := by
    simp only [willing, Prod.mk.injEq, Option.some.injEq] at h
    omega
  fence _ _ _ _ _ h := Nat.lt_succ_of_lt h
  send _ _ _ _ h := h
  storeStatus _ _ _ _ _ h := h
  storeFenced _ _ _ _ h := h
  confirmSafe _ _ _ h := h

namespace Engine

variable {ε : Type} {used : ε → Nat → Prop} {e e' : Engine ε}

/-- All outstanding requests have numbers that were given. -/
def Numbered (used : ε → Nat → Prop) (e : Engine ε) : Prop :=
  ∀ call fence, e.fenceCalls.get? call = some fence → used e.env call

/-- The engine comes to `e'`, with new requests only under numbers that were not given before. -/
structure Renumbered (used : ε → Nat → Prop) (e e' : Engine ε) : Prop where
  kept : ∀ call, used e.env call → used e'.env call
  calls : ∀ call fence, e'.fenceCalls.get? call = some fence →
    e.fenceCalls.get? call = some fence ∨ ¬ used e.env call ∧ used e'.env call

namespace Renumbered

theorem of_calls (hkept : ∀ call, used e.env call → used e'.env call)
    (hcalls : e'.fenceCalls = e.fenceCalls) : Renumbered used e e' :=
  ⟨hkept, fun _ _ hget => .inl (hcalls ▸ hget)⟩

theorem of_eq (henv : e'.env = e.env) (hcalls : e'.fenceCalls = e.fenceCalls) :
    Renumbered used e e' :=
  .of_calls (fun _ h => henv ▸ h) hcalls

theorem refl (e : Engine ε) : Renumbered used e e := .of_eq rfl rfl

theorem trans {e'' : Engine ε} (h : Renumbered used e e') (h' : Renumbered used e' e'') :
    Renumbered used e e'' := by
  refine ⟨fun call hused => h'.kept call (h.kept call hused), fun call fence hget => ?_⟩
  rcases h'.calls call fence hget with hold | ⟨hnew, hused⟩
  · rcases h.calls call fence hold with hold | ⟨hnew, hused⟩
    · exact .inl hold
    · exact .inr ⟨hnew, h'.kept call hused⟩
  · exact .inr ⟨fun hbefore => hnew (h.kept call hbefore), hused⟩

/-- A request may be taken from the table. -/
theorem erase (e : Engine ε) (call : Nat) :
    Renumbered used e ({ e with fenceCalls := e.fenceCalls.erase call } : Engine ε) := by
  refine ⟨fun _ h => h, fun n fence hget => .inl ?_⟩
  rw [Table.get?_erase] at hget
  split at hget
  · cases hget
  · exact hget

theorem numbered (h : Renumbered used e e') (he : e.Numbered used) : e'.Numbered used := by
  intro call fence hget
  rcases h.calls call fence hget with hold | ⟨-, hused⟩
  · exact h.kept call (he call fence hold)
  · exact hused

end Renumbered

/-! ## Shared steps -/

variable (g : Graph)

/-- Finishing an action changes nothing of the engine but its accounts. -/
theorem exists_finishAction (e : Engine ε) (id : ActionId) :
    ∃ ledger, (e.finishAction g id).2 = { e with ledger, passRequested := true } := by
  simp only [finishAction, actionConfirmed, release]
  split
  · exact ⟨e.ledger, rfl⟩
  · split
    · exact ⟨_, rfl⟩
    · exact ⟨e.ledger, rfl⟩

theorem timers_finishAction (e : Engine ε) (id : ActionId) :
    (e.finishAction g id).2.timers = e.timers := by
  obtain ⟨ledger, h⟩ := exists_finishAction g e id
  rw [h]

theorem fenceCalls_finishAction (e : Engine ε) (id : ActionId) :
    (e.finishAction g id).2.fenceCalls = e.fenceCalls := by
  obtain ⟨ledger, h⟩ := exists_finishAction g e id
  rw [h]

theorem finishAction_renumbered (e : Engine ε) (id : ActionId) :
    Renumbered used e (e.finishAction g id).2 := by
  obtain ⟨ledger, h⟩ := exists_finishAction g e id
  rw [h]
  exact .of_eq rfl rfl

theorem startActionTimer_renumbered (e : Engine ε) (id : ActionId) :
    Renumbered used e (e.startActionTimer g id).2 := by
  simp only [startActionTimer]
  split
  · exact .refl e
  · exact .of_eq rfl rfl

theorem resourceSent_renumbered (e : Engine ε) (a : Action) :
    Renumbered used e (e.resourceSent g a).2 := by
  simp only [resourceSent]
  split
  · exact .of_eq rfl rfl
  · split
    · exact .refl e
    · let charged : Engine ε := { e with ledger := e.ledger.recordAction a 1 }
      have hcharged : Renumbered used e charged := .of_eq rfl rfl
      exact hcharged.trans (startActionTimer_renumbered _ charged a.id)

variable {c : Cluster ε}

theorem recordStatus_renumbered (hc : c.NumbersOnce used) (e : Engine ε) (id : ActionId)
    (status : OpStatus) (rc : Int) : Renumbered used e (e.recordStatus c g id status rc).2 := by
  simp only [recordStatus]
  split
  · exact .refl e
  · exact .of_calls (fun call h => hc.storeStatus _ status rc e.env call h) rfl

theorem sendRequest_renumbered (hc : c.NumbersOnce used) (e : Engine ε) (a : Action)
    (target : String) : Renumbered used e (e.sendRequest c g a target).2 :=
  .of_calls (fun call h => hc.send _ _ e.env call h) rfl

/-! ## Dispatches -/

theorem dispatchResource_renumbered (hc : c.NumbersOnce used) (e : Engine ε) (id : ActionId) :
    Renumbered used e (dispatchResource c id g e).2.2 := by
  simp only [dispatchResource]
  split
  · exact .refl e
  · rename_i a _
    split
    · exact .refl e
    · rename_i target _
      have hsend := sendRequest_renumbered g hc e a target
      rcases hsent : e.sendRequest c g a target with ⟨_ | _, e'⟩ <;> rw [hsent] at hsend
      · exact hsend
      · have hrest := hsend.trans (resourceSent_renumbered g e' a)
        dsimp only
        split
        · exact hrest.trans (recordStatus_renumbered _ hc _ id _ _)
        · exact hrest

theorem dispatchEvent_renumbered (hc : c.NumbersOnce used) (e : Engine ε) (id : ActionId) :
    Renumbered used e (dispatchEvent c id g e).2.2 := by
  simp only [dispatchEvent]
  split
  · exact .refl e
  · rename_i a _
    split
    · exact .refl e
    · rename_i target _
      split
      · exact finishAction_renumbered _ e id
      · have hdown : Renumbered used e (if a.task = some "do_shutdown" then
            e.expectDown (a.route.getD target) else e) := by
          split
          · simp only [expectDown]
            split
            · exact .refl e
            · exact .of_eq rfl rfl
          · exact .refl e
        generalize (if a.task = some "do_shutdown" then
          e.expectDown (a.route.getD target) else e) = e₁ at hdown
        have hsend := hdown.trans (sendRequest_renumbered g hc e₁ a target)
        rcases hsent : e₁.sendRequest c g a target with ⟨_ | _, e'⟩ <;> rw [hsent] at hsend
        · exact hsend
        · dsimp only
          split
          · exact hsend.trans (finishAction_renumbered g e' id)
          · exact hsend.trans (startActionTimer_renumbered g e' id)

theorem dispatchFencing_renumbered (hc : c.NumbersOnce used) (e : Engine ε) (id : ActionId) :
    Renumbered used e (dispatchFencing c id g e).2.2 := by
  simp only [dispatchFencing]
  split
  · exact .refl e
  · split
    · rename_i target uuid kind _ _ _
      have hkept := hc.fence target kind g.stonithTimeout.toNat e.env
      rcases hfence : c.fence target kind g.stonithTimeout.toNat e.env with ⟨_ | call, env⟩ <;>
        rw [hfence] at hkept
      · exact .of_calls hkept rfl
      · refine ⟨hkept, fun n fence hget => ?_⟩
        rw [Table.get?_insert] at hget
        split at hget
        · rename_i hn
          subst hn
          exact .inr (hc.fresh hfence)
        · exact .inl hget
    · exact .refl e

/-- **A dispatch makes new requests under new numbers only.** -/
theorem dispatch_renumbered (hc : c.NumbersOnce used) (channel : Channel) (id : ActionId)
    (e : Engine ε) : Renumbered used e ((dispatcher c).dispatch channel id g e).2.2 := by
  cases channel with
  | pseudo => exact finishAction_renumbered g e id
  | resource => exact dispatchResource_renumbered g hc e id
  | clusterEvent => exact dispatchEvent_renumbered g hc e id
  | fencing => exact dispatchFencing_renumbered g hc e id

/-! ## Reports -/

theorem processResult_renumbered (e : Engine ε) (r : ActionResult) :
    Renumbered used e (e.processResult g r).2.2 := by
  simp only [processResult]
  split
  · exact .refl e
  · split
    · exact .of_eq rfl rfl
    · rename_i a _ _
      let quiet : Engine ε := { e with timers := e.timers.cancel a.id }
      have hquiet : Renumbered used e quiet := .of_eq rfl rfl
      exact hquiet.trans (finishAction_renumbered _ quiet a.id)

theorem actionTimedOut_renumbered (hc : c.NumbersOnce used) (e : Engine ε) (id : ActionId) :
    Renumbered used e (e.actionTimedOut c g id).2.2 := by
  simp only [actionTimedOut]
  split
  · exact .refl e
  · split
    · exact .refl e
    · refine .trans ?_ (finishAction_renumbered _ _ id)
      split
      · exact recordStatus_renumbered _ hc e id _ _
      · exact .refl e

theorem nodeFenced_renumbered (hc : c.NumbersOnce used) (e : Engine ε) (fence : FenceCall) :
    Renumbered used e (e.nodeFenced c g fence).2 := by
  let fenced : Engine ε := { e with
    env := (c.storeFenced fence.target fence.uuid e.env).2
    fenceFailures := e.fenceFailures.erase fence.target
    expectedDown := e.expectedDown.filter (· ≠ fence.target) }
  have hfenced : Renumbered used e fenced :=
    .of_calls (fun call h => hc.storeFenced fence.target fence.uuid e.env call h) rfl
  exact hfenced.trans (finishAction_renumbered g fenced fence.action)

theorem fencingFailed_renumbered (e : Engine ε) (fence : FenceCall) :
    Renumbered used e (e.fencingFailed g fence).2 := by
  let failed : Engine ε := { e with
    fenceFailures := e.fenceFailures.insert fence.target (e.fenceFailuresOf fence.target + 1) }
  have hfailed : Renumbered used e failed := .of_eq rfl rfl
  exact hfailed.trans (finishAction_renumbered _ failed fence.action)

theorem fencingResult_renumbered (hc : c.NumbersOnce used) (e : Engine ε) (call : Nat)
    (outcome : Except String Unit) :
    Renumbered used e (e.fencingResult c g call outcome).2.2 := by
  simp only [fencingResult]
  split
  · exact .refl e
  · rename_i fence _
    have herase : Renumbered used e { e with fenceCalls := e.fenceCalls.erase call } :=
      .erase e call
    split
    · exact herase
    · split
      · exact herase.trans (nodeFenced_renumbered g hc _ fence)
      · exact herase.trans (fencingFailed_renumbered g _ fence)

theorem completeFencing_renumbered (hc : c.NumbersOnce used) (e : Engine ε)
    (calls : List (Nat × FenceCall)) : Renumbered used e (e.completeFencing c g calls).2 := by
  induction calls generalizing e g with
  | nil => exact .refl e
  | cons head rest ih =>
    have hhead := (Renumbered.erase e head.1).trans (nodeFenced_renumbered g hc _ head.2)
    exact hhead.trans (ih _ _)

theorem confirmNodeSafe_renumbered (hc : c.NumbersOnce used) (e : Engine ε) (target : String) :
    Renumbered used e (e.confirmNodeSafe c g target).2.2 := by
  have hkept := hc.confirmSafe target e.env
  simp only [confirmNodeSafe]
  rcases hsafe : c.confirmSafe target e.env with ⟨_ | _, env⟩ <;> rw [hsafe] at hkept
  · exact .of_calls hkept rfl
  · have hsafe : Renumbered used e ({ e with env } : Engine ε) := .of_calls hkept rfl
    exact hsafe.trans (completeFencing_renumbered g hc _ _)

end Engine

/-- A step of a pass makes new requests under new numbers only. -/
theorem PassStep.renumbered {ε : Type} {used : ε → Nat → Prop} {c : Cluster ε}
    (hc : c.NumbersOnce used) {x y : PassState (Engine ε)}
    (h : PassStep (Engine.dispatcher c) x y) : Engine.Renumbered used x.state y.state := by
  cases h with
  | count | ready | skip | fire | unroutable | again | fired | conclude => exact .refl _
  | @dispatch g g' e e' pos slot slots a channel _ _ _ hgoes =>
    have hdispatch := Engine.dispatch_renumbered (g.setStatusAt slot .executed) hc channel a.id e
    rwa [hgoes] at hdispatch
  | @refuse g g' e e' pos slot slots a channel _ _ _ hstays =>
    have hdispatch := Engine.dispatch_renumbered (g.setStatusAt slot .executed) hc channel a.id e
    rwa [hstays] at hdispatch

/-- **No move makes two requests under one number.** -/
theorem Move.renumbered {ε : Type} {used : ε → Nat → Prop} {c : Cluster ε}
    (hc : c.NumbersOnce used) (m : Move) (s : Graph × Engine ε) :
    Engine.Renumbered used s.2 (m.make c s).2 := by
  cases m with
  | pass =>
    exact Graph.run_induction (Engine.dispatcher_steady c)
      (P := fun x => Engine.Renumbered used s.2 x.state)
      (fun _ _ hstep hx => hx.trans (hstep.renumbered hc)) s.1 s.2 (.refl s.2)
  | result r => exact Engine.processResult_renumbered s.1 s.2 r
  | timeout id => exact Engine.actionTimedOut_renumbered s.1 hc s.2 id
  | fencing call outcome => exact Engine.fencingResult_renumbered s.1 hc s.2 call outcome
  | nodeSafe target => exact Engine.confirmNodeSafe_renumbered s.1 hc s.2 target
  | abort => exact .refl s.2

end ClusterTransition
