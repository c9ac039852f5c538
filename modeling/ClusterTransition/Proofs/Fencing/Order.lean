import ClusterTransition.Proofs.Engine.Results
import ClusterTransition.Proofs.Graph.Spreading

/-! # Requests that complete together

When a node is declared safe, the outstanding requests to fence it complete, one after the other.
They are kept in a table, and which of them comes first says nothing about the cluster.  Nothing
depends on it either (`Engine.confirmNodeSafe_of_perm`).

Each completion finishes an action.  To finish an action is not to fail it, so the inputs of a
synapse are open or not whether the action is finished before another one or after it
(`Graph.finished_comm`).  This holds in any graph, also if several requests are for one action.  The
rest of the engine forgets the requests and their targets, in whatever order.

Only the surroundings can tell, as the records of the fencings come to them one by one.
-/

namespace ClusterTransition

/-! ## Finished actions -/

namespace Action

variable (a : Action)

/-- The action once it is finished: its result is known, and it holds no job slots. -/
def finished : Action := { a.known with counted := false }

theorem plan_finished : a.finished.plan = a.plan := by
  unfold finished known
  split <;> rfl

theorem isConfirmed_finished : a.finished.status.isConfirmed = true := a.isConfirmed_known

theorem finished_eq : a.finished =
    { a with
      status := if a.status.isConfirmed then a.status else .confirmed
      counted := false } := by
  unfold finished known
  split <;> rfl

end Action

/-- An action that is finished holds up the same synapses as before. -/
theorem Synapse.readied_set_finished {actions : List Action} {k : Nat} {a : Action}
    (ha : actions[k]? = some a) (s : Synapse) :
    s.readied (actions.set k a.finished) = s.readied actions := by
  have hfailures (b : Action) :
      b.finished.status.isFailed = b.status.isFailed ∧ b.finished.canFail = b.canFail :=
    ⟨b.isFailed_known, b.canFail_known⟩
  rw [← modify_eq_set ha Action.finished]
  simp only [readied, inputsSatisfied_modify hfailures]

namespace Graph

variable {id : ActionId} {k k' : Nat} {a a' : Action}

/-- Two actions are finished in either order. -/
theorem conclude_finished_comm {g : Graph} (hne : k ≠ k') (ha : g.actions[k]? = some a)
    (ha' : g.actions[k']? = some a') :
    (g.conclude k a.finished).conclude k' a'.finished =
      (g.conclude k' a'.finished).conclude k a.finished := by
  have hother : (g.actions.set k a.finished)[k']? = some a' := by
    rw [List.getElem?_set_ne hne, ha']
  have hother' : (g.actions.set k' a'.finished)[k]? = some a := by
    rw [List.getElem?_set_ne hne.symm, ha]
  exact conclude_comm_of_readied hne a.isConfirmed_finished a'.isConfirmed_finished
    (fun _ _ => Synapse.readied_set_finished hother _)
    fun _ _ => Synapse.readied_set_finished hother' _

/-- The graph and the ledger once an action is finished. -/
def finished (s : Graph × Ledger) (id : ActionId) : Graph × Ledger :=
  match s.1.slotOf? id with
  | none => s
  | some k =>
    match s.1.actions[k]? with
    | none => s
    | some a => (s.1.conclude k a.finished, s.2.released a)

variable {s : Graph × Ledger}

theorem finished_of_unknown (h : s.1.slotOf? id = none) : finished s id = s := by
  simp only [finished, h]

theorem finished_of_slot (hk : s.1.slotOf? id = some k) (ha : s.1.actions[k]? = some a) :
    finished s id = (s.1.conclude k a.finished, s.2.released a) := by
  simp only [finished, hk, ha]

theorem slotOf?_finished (s : Graph × Ledger) (id id' : ActionId) :
    (finished s id).1.slotOf? id' = s.1.slotOf? id' := by
  cases hk : s.1.slotOf? id with
  | none => rw [finished_of_unknown hk]
  | some k =>
    obtain ⟨a, ha, -⟩ := exists_action_of_slotOf? hk
    rw [finished_of_slot hk ha]
    exact slotOf?_eq_of_plan (plan_conclude ha a.plan_finished) id'

/-- **Actions are finished in any order**, in every graph. -/
theorem finished_comm (s : Graph × Ledger) (id id' : ActionId) :
    finished (finished s id) id' = finished (finished s id') id := by
  cases hk : s.1.slotOf? id with
  | none => rw [finished_of_unknown hk, finished_of_unknown ((slotOf?_finished s id' id).trans hk)]
  | some k =>
    cases hk' : s.1.slotOf? id' with
    | none =>
      rw [finished_of_unknown hk', finished_of_unknown ((slotOf?_finished s id id').trans hk')]
    | some k' =>
      obtain ⟨a, ha, -, hid⟩ := exists_action_of_slotOf? hk
      obtain ⟨a', ha', -, hid'⟩ := exists_action_of_slotOf? hk'
      by_cases hne : k = k'
      · subst hne
        obtain rfl : a = a' := Option.some.inj (ha.symm.trans ha')
        rw [← hid, ← hid']
      · have hother : (s.1.conclude k a.finished).actions[k']? = some a' := by
          simpa only [conclude, List.getElem?_set_ne hne] using ha'
        have hother' : (s.1.conclude k' a'.finished).actions[k]? = some a := by
          simpa only [conclude, List.getElem?_set_ne (Ne.symm hne)] using ha
        have hslot := (slotOf?_finished s id id').trans hk'
        have hslot' := (slotOf?_finished s id' id).trans hk
        rw [finished_of_slot hk ha] at hslot ⊢
        rw [finished_of_slot hk' ha'] at hslot' ⊢
        rw [finished_of_slot hslot hother, finished_of_slot hslot' hother',
          conclude_finished_comm hne ha ha', s.2.released_comm]

end Graph

/-! ## Completed requests -/

namespace Engine

variable {ε : Type}

/-- Finishing an action changes the graph and the ledger, and asks for a pass. -/
theorem finishAction_eq_finished (e : Engine ε) (g : Graph) (id : ActionId) :
    e.finishAction g id = ((Graph.finished (g, e.ledger) id).1,
      { e with ledger := (Graph.finished (g, e.ledger) id).2, passRequested := true }) := by
  cases hk : g.slotOf? id with
  | none =>
    have haction : g.action? id = none := Graph.action?_eq_none_iff.mpr hk
    rw [Graph.finished_of_unknown hk]
    simp only [finishAction, actionConfirmed, release, haction, Graph.confirmAction, Graph.settle,
      Graph.update_of_unknown hk, requestPass]
  | some k =>
    obtain ⟨a, ha, -, rfl⟩ := Graph.exists_action_of_slotOf? hk
    rw [Graph.finished_of_slot hk ha, finishAction_eq hk ha a.finished_eq]

variable (c : Cluster ε)

/-- The surroundings once some fencings have been recorded. -/
def recorded (env : ε) (calls : List (Nat × FenceCall)) : ε :=
  calls.foldl (fun env f => (c.storeFenced f.2.target f.2.uuid env).2) env

/-- **What the completion of some requests does.** -/
theorem completeFencing_eq (e : Engine ε) (g : Graph) (calls : List (Nat × FenceCall)) :
    e.completeFencing c g calls =
      let done := calls.foldl (fun s f => Graph.finished s f.2.action) (g, e.ledger)
      (done.1, { e with
        env := recorded c e.env calls
        ledger := done.2
        fenceCalls := calls.foldl (fun t f => t.erase f.1) e.fenceCalls
        fenceFailures := calls.foldl (fun t f => t.erase f.2.target) e.fenceFailures
        expectedDown := calls.foldl (fun l f => l.filter (· ≠ f.2.target)) e.expectedDown
        passRequested := e.passRequested || !calls.isEmpty }) := by
  induction calls generalizing e g with
  | nil => simp [completeFencing, recorded]
  | cons f rest ih =>
    simp only [completeFencing, nodeFenced, finishAction_eq_finished, ih]
    simp [recorded]

/-- **Requests may complete in any order**: the graph and the engine come out the same, but for the
surroundings. -/
theorem completeFencing_perm (e : Engine ε) (g : Graph) {calls calls' : List (Nat × FenceCall)}
    (h : calls.Perm calls') :
    e.completeFencing c g calls' =
      ((e.completeFencing c g calls).1,
        { (e.completeFencing c g calls).2 with env := recorded c e.env calls' }) := by
  have hdone := h.foldl_eq' (f := fun s f => Graph.finished s f.2.action)
    (fun _ _ _ _ s => Graph.finished_comm s _ _) (g, e.ledger)
  have hcalls := h.foldl_eq' (f := fun t f => t.erase f.1)
    (fun _ _ _ _ t => t.erase_comm _ _) e.fenceCalls
  have hfailures := h.foldl_eq' (f := fun t f => t.erase f.2.target)
    (fun _ _ _ _ t => t.erase_comm _ _) e.fenceFailures
  have hdown := h.foldl_eq' (f := fun l f => l.filter (· ≠ f.2.target))
    (fun _ _ _ _ l => List.filter_comm _ _ l) e.expectedDown
  simp only [completeFencing_eq, hdone, hcalls, hfailures, hdown, h.isEmpty_eq]

/-- **A node is declared safe**, and the outstanding requests for it complete in any order.  The
order of the table, in which the engine goes through them, is as good as any other. -/
theorem confirmNodeSafe_of_perm (e : Engine ε) (g : Graph) {target : String} {env : ε}
    (htaken : c.confirmSafe target e.env = (.ok (), env)) {calls : List (Nat × FenceCall)}
    (h : calls.Perm (e.fenceCalls.entries.filter fun f =>
      f.2.target = target && f.2.transition = g.id)) :
    let out := e.confirmNodeSafe c g target
    ({ e with env } : Engine ε).completeFencing c g calls =
      (out.2.1, { out.2.2 with env := recorded c env calls }) := by
  simp only [confirmNodeSafe, htaken]
  exact completeFencing_perm c { e with env } g h.symm

end Engine
end ClusterTransition
