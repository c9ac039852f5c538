import ClusterTransition.Proofs.Engine.Moves
import ClusterTransition.Proofs.Graph.Commuting
import ClusterTransition.Proofs.Ledger.Charges

/-! # What a result does

A result is for the action that its key names, if the key names this engine and this transition
(`Engine.resultAction_eq_ok_iff`).  What it does to the graph and the engine is done in several
steps, through the functions that other reports use too.  Put together they are one replacement:
the action gets its final status and gives back its job slots, and its completion is spread
(`Engine.takeResult_of_ok`).
-/

namespace ClusterTransition

/-- The action after its result came in. -/
def Action.concluded (a : Action) (failed : Bool) : Action :=
  { a with status := if failed then .failed .execution else .confirmed, counted := false }

/-- The ledger once an action holds no job slots. -/
def Ledger.released (l : Ledger) (a : Action) : Ledger :=
  if a.counted then l.recordAction a (-1) else l

theorem Ledger.released_comm (l : Ledger) (a b : Action) :
    (l.released a).released b = (l.released b).released a := by
  simp only [released]
  split <;> split <;> first | rfl | exact l.recordAction_comm a b (-1) (-1)

/-- The graph after a result that may be a failure: a failure asks for an abort. -/
def Graph.upset (g : Graph) (failed : Bool) : Graph :=
  if failed then g.abort infinity .restart "Event failed" else g

theorem Action.isConfirmed_concluded (a : Action) (failed : Bool) :
    (a.concluded failed).status.isConfirmed = true := by
  cases failed <;> rfl

theorem Action.plan_concluded (a : Action) (failed : Bool) :
    (a.concluded failed).plan = a.plan := rfl

/-- Changing the action at a slot puts another in its place. -/
theorem modify_eq_set {actions : List Action} {k : Nat} {a : Action} (ha : actions[k]? = some a)
    (f : Action → Action) : actions.modify k f = actions.set k (f a) := by
  rw [List.modify_eq_set_getElem?, ha]
  rfl

namespace Engine

variable {ε : Type} {e e' : Engine ε} {g g' : Graph} {r : ActionResult} {key : TransitionKey}
  {a : Action} {k : Nat}

/-! ## What a result is for -/

/-- A result is for the action that its key names, if the key names this engine and this
transition. -/
theorem resultAction_eq_ok_iff : e.resultAction g r = .ok (key, a) ↔
    TransitionKey.decode r.transitionKey = .ok key ∧ key.uuid = e.uuid ∧ key.transition = g.id ∧
      g.action? key.action = some a := by
  simp only [resultAction]
  cases TransitionKey.decode r.transitionKey with
  | error err => simp
  | ok key' =>
    simp only [Except.ok.injEq]
    split
    · rename_i hne
      simp only [reduceCtorEq, false_iff, not_and]
      rintro rfl heq
      exact absurd heq hne
    · split
      · rename_i hne
        simp only [reduceCtorEq, false_iff, not_and]
        rintro rfl - heq
        exact absurd heq hne
      · rename_i huuid htransition
        simp only [not_not] at huuid htransition
        cases ha : g.action? key'.action with
        | none =>
          simp only [reduceCtorEq, false_iff, not_and]
          rintro rfl - -
          simp [ha]
        | some b =>
          simp only [Except.ok.injEq, Prod.mk.injEq]
          constructor
          · rintro ⟨rfl, rfl⟩
            exact ⟨rfl, huuid, htransition, ha⟩
          · rintro ⟨rfl, -, -, hb⟩
            exact ⟨rfl, Option.some.inj (ha.symm.trans hb)⟩

/-- The action that a result is for is found under its own id. -/
theorem action?_of_resultAction (h : e.resultAction g r = .ok (key, a)) :
    g.action? a.id = some a := by
  obtain ⟨-, -, -, ha⟩ := resultAction_eq_ok_iff.mp h
  obtain ⟨-, -, -, hid⟩ := Graph.exists_slot_of_action? ha
  rwa [hid]

theorem id_of_resultAction (h : e.resultAction g r = .ok (key, a)) : a.id = key.action := by
  obtain ⟨-, -, -, ha⟩ := resultAction_eq_ok_iff.mp h
  obtain ⟨-, -, -, hid⟩ := Graph.exists_slot_of_action? ha
  exact hid

/-- The action that a result is for stands at some slot. -/
theorem exists_slot_of_resultAction (h : e.resultAction g r = .ok (key, a)) :
    ∃ k, g.slotOf? a.id = some k ∧ g.actions[k]? = some a := by
  obtain ⟨k, hk, hget, -⟩ := Graph.exists_slot_of_action? (action?_of_resultAction h)
  exact ⟨k, hk, hget⟩

/-- What a result is for depends on little. -/
theorem resultAction_congr (huuid : e'.uuid = e.uuid) (hid : g'.id = g.id)
    (haction : ∀ key, TransitionKey.decode r.transitionKey = .ok key →
      g'.action? key.action = g.action? key.action) :
    e'.resultAction g' r = e.resultAction g r := by
  simp only [resultAction, huuid, hid]
  split
  · rfl
  · rename_i key hkey
    rw [haction key hkey]

/-! ## Shared steps in one -/

/-- Giving back the job slots of an action. -/
theorem release_eq (hk : g.slotOf? a.id = some k) (ha : g.actions[k]? = some a) :
    e.release g a.id =
      ({ g with actions := g.actions.set k { a with counted := false } },
       { e with ledger := e.ledger.released a }) := by
  have hfind : g.action? a.id = some a := (Graph.action?_eq_getElem? hk).trans ha
  have hset := modify_eq_set ha fun a => { a with counted := false }
  simp only [release, hfind, Ledger.released]
  split
  · rw [Graph.modifyAction_eq hk, hset]
  · rename_i hcounted
    have hsame : g.actions.modify k (fun a => { a with counted := false }) = g.actions := by
      refine modify_of_eq fun b hb => ?_
      obtain rfl : a = b := Option.some.inj (ha.symm.trans hb)
      simp only [Bool.not_eq_true] at hcounted
      rw [← hcounted]
    rw [← hset, hsame]

/-- Settling an open action puts it in its place with the final status. -/
theorem settle_eq_set (hk : g.slotOf? a.id = some k) (ha : g.actions[k]? = some a)
    (status : ActionStatus) :
    (g.settle a.id status).2 = { g with
      actions := g.actions.set k <| if a.status.isConfirmed then a else { a with status } } := by
  rw [Graph.settle_eq hk, modify_eq_set ha]

/-- Finishing an action: it is confirmed, unless its result is known. -/
theorem finishAction_eq (hk : g.slotOf? a.id = some k) (ha : g.actions[k]? = some a)
    {b : Action} (hb : b = { a with
      status := if a.status.isConfirmed then a.status else .confirmed, counted := false }) :
    e.finishAction g a.id =
      (g.conclude k b, { e with ledger := e.ledger.released a, passRequested := true }) := by
  let idle : Action := { a with counted := false }
  let released : Graph := { g with actions := g.actions.set k idle }
  have hslot (b : Action) (hb : b.plan = a.plan) :
      ({ g with actions := g.actions.set k b } : Graph).slotOf? a.id = some k :=
    (Graph.slotOf?_eq_of_plan (Graph.plan_set ha hb) a.id).trans hk
  have hget (b : Action) : (g.actions.set k b)[k]? = some b := by
    obtain ⟨hlt, -⟩ := List.getElem?_eq_some_iff.mp ha
    simp [hlt]
  have hfinal : (if idle.status.isConfirmed then idle else { idle with status := .confirmed }) =
      b := by
    rw [hb]
    by_cases hc : a.status.isConfirmed = true <;> simp [idle, hc]
  have hsettle : (released.settle a.id .confirmed).2 =
      { g with actions := g.actions.set k b } := by
    have hset := settle_eq_set (g := released) (a := idle) (hslot idle rfl) (hget idle) .confirmed
    rw [hfinal] at hset
    simp only [released, List.set_set] at hset
    exact hset
  have hknown : b.status.isConfirmed = true := by
    rw [hb]
    by_cases hc : a.status.isConfirmed = true
    · simp [hc]
    · simp only [hc]
      rfl
  have hupdate := Graph.update_of_confirmed (hslot b (by rw [hb]; rfl)) (hget b) hknown
  simp only [finishAction, actionConfirmed, release_eq hk ha, Graph.confirmAction]
  rw [hsettle, hupdate]
  rfl

/-- Failing an open action and finishing it: an abort is asked for. -/
theorem finishAction_failExecuted (hk : g.slotOf? a.id = some k) (ha : g.actions[k]? = some a)
    (hopen : a.status.isConfirmed = false) :
    e.finishAction (failExecuted g a.id "Event failed") a.id =
      ((g.conclude k (a.concluded true)).upset true,
       { e with ledger := e.ledger.released a, passRequested := true }) := by
  let failed : Action := { a with status := .failed .execution }
  have hfail : failExecuted g a.id "Event failed" =
      { g.abort infinity .restart "Event failed" with actions := g.actions.set k failed } := by
    have hset := settle_eq_set hk ha (.failed .execution)
    simp only [hopen, Bool.false_eq_true, if_false] at hset
    simp only [failExecuted, Graph.failAction, hset]
    rfl
  have hslot : (failExecuted g a.id "Event failed").slotOf? a.id = some k :=
    (Graph.slotOf?_eq_of_plan (failExecuted_edits g a.id _).plan a.id).trans hk
  have hget : (failExecuted g a.id "Event failed").actions[k]? = some failed := by
    obtain ⟨hlt, -⟩ := List.getElem?_eq_some_iff.mp ha
    simp [hfail, hlt]
  rw [finishAction_eq (a := failed) hslot hget (b := a.concluded true) rfl, hfail]
  simp only [Graph.conclude, List.set_set]
  rfl

/-! ## Taking a result -/

/-- The graph and the engine after a result. -/
def takeResult (s : Graph × Engine ε) (r : ActionResult) : Graph × Engine ε :=
  (s.2.processResult s.1 r).2

/-- The graph and the engine after the action `a`, which stands at the slot `k`, got a result. -/
def take (k : Nat) (a : Action) (failed : Bool) (s : Graph × Engine ε) : Graph × Engine ε :=
  if a.status.isConfirmed then (s.1, { s.2 with timers := s.2.timers.cancel a.id })
  else
    ((s.1.conclude k (a.concluded failed)).upset failed,
     { s.2 with
       timers := s.2.timers.cancel a.id
       ledger := s.2.ledger.released a
       passRequested := true })

variable {s : Graph × Engine ε}

theorem takeResult_of_error {err : Error} (h : s.2.resultAction s.1 r = .error err) :
    takeResult s r = s := by
  simp only [takeResult, processResult, h]

/-- **What a result does.** -/
theorem takeResult_of_ok (h : s.2.resultAction s.1 r = .ok (key, a))
    (hk : s.1.slotOf? a.id = some k) :
    takeResult s r = take k a (resultFailed a key r && !a.canFail) s := by
  have ha : s.1.actions[k]? = some a := by
    obtain ⟨j, hj, hget⟩ := exists_slot_of_resultAction h
    obtain rfl : j = k := Option.some.inj (hj.symm.trans hk)
    exact hget
  simp only [takeResult, processResult, h, take]
  split
  · rfl
  · rename_i hopen
    split
    · rename_i hfailed
      rw [finishAction_failExecuted hk ha (Bool.eq_false_iff.mpr hopen), hfailed]
    · rename_i hfailed
      rw [finishAction_eq hk ha (b := a.concluded false) (by simp [Action.concluded, hopen]),
        Bool.eq_false_iff.mpr hfailed]
      rfl

end Engine
end ClusterTransition
