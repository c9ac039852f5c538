import ClusterTransition.Proofs.Graph.Edits

/-! # Graphs that differ in their notes of stored records

An action carries a note whether a status record of it is in the store.  Nothing that happens to a
graph depends on these notes: whatever they are set to, each change of the graph comes to the same,
and leaves the notes as they are (`Graph.update_filedAs` and its siblings).  So a graph and the
notes of its actions can be looked at apart.
-/

namespace ClusterTransition

/-- The action with the note that is given for its id. -/
def Action.filedAs (stored : ActionId → Bool) (a : Action) : Action :=
  { a with sentUpdate := stored a.id }

/-- The graph with the notes that are given for its actions. -/
def Graph.filedAs (g : Graph) (stored : ActionId → Bool) : Graph :=
  { g with actions := g.actions.map (Action.filedAs stored) }

/-- The graph without its notes. -/
def Graph.unfiled (g : Graph) : Graph := g.filedAs fun _ => false

variable (stored : ActionId → Bool)

/-! ## One action -/

namespace Action

variable (a : Action)

-- not by `rfl`, so that `simp` rewrites in a condition and in the decision of it alike
@[simp] theorem id_filedAs : (a.filedAs stored).id = a.id := (rfl)
@[simp] theorem op_filedAs : (a.filedAs stored).op = a.op := (rfl)
@[simp] theorem status_filedAs : (a.filedAs stored).status = a.status := (rfl)
@[simp] theorem canFail_filedAs : (a.filedAs stored).canFail = a.canFail := (rfl)
@[simp] theorem counted_filedAs : (a.filedAs stored).counted = a.counted := (rfl)
@[simp] theorem sentUpdate_filedAs : (a.filedAs stored).sentUpdate = stored a.id := (rfl)
@[simp] theorem isPseudo_filedAs : (a.filedAs stored).isPseudo = a.isPseudo := (rfl)
@[simp] theorem isResourceOp_filedAs : (a.filedAs stored).isResourceOp = a.isResourceOp := (rfl)
@[simp] theorem task_filedAs : (a.filedAs stored).task = a.task := (rfl)
@[simp] theorem target_filedAs : (a.filedAs stored).target = a.target := (rfl)
@[simp] theorem route_filedAs : (a.filedAs stored).route = a.route := (rfl)
@[simp] theorem noWait_filedAs : (a.filedAs stored).noWait = a.noWait := (rfl)
@[simp] theorem recordPending_filedAs : (a.filedAs stored).recordPending = a.recordPending := (rfl)
@[simp] theorem stonithAction_filedAs : (a.filedAs stored).stonithAction = a.stonithAction := (rfl)
@[simp] theorem channel?_filedAs : (a.filedAs stored).channel? = a.channel? := (rfl)

end Action

/-! ## One synapse -/

namespace Synapse

variable (actions : List Action) (s : Synapse) (slot : Nat) (a : Action)

theorem inputsSatisfied_filedAs :
    s.inputsSatisfied (actions.map (Action.filedAs stored)) = s.inputsSatisfied actions := by
  have hopen : Input.isOpen (actions.map (Action.filedAs stored)) s.priority =
      Input.isOpen actions s.priority := by
    funext i
    simp only [Input.isOpen, List.getElem?_map]
    cases actions[i.slot]? <;> rfl
  simp only [inputsSatisfied, hopen]

theorem satisfyInputs_filedAs :
    s.satisfyInputs (actions.map (Action.filedAs stored)) slot = s.satisfyInputs actions slot := by
  simp only [satisfyInputs, inputsSatisfied_filedAs]

theorem confirmMember_filedAs :
    s.confirmMember (actions.map (Action.filedAs stored)) slot =
      ((s.confirmMember actions slot).1,
        (s.confirmMember actions slot).2.map (Action.filedAs stored)) := by
  simp only [confirmMember, List.getElem?_map]
  cases actions[slot]? with
  | none => rfl
  | some a =>
    simp only [Option.map_some, Action.status_filedAs]
    split
    · rw [modify_map _ _ fun _ => by rfl]
    · rfl

theorem othersConfirmed_filedAs :
    s.othersConfirmed (actions.map (Action.filedAs stored)) slot =
      s.othersConfirmed actions slot := by
  simp only [othersConfirmed, List.getElem?_map, Option.map_map]
  rfl

theorem absorb_filedAs :
    s.absorb slot (a.filedAs stored) (actions.map (Action.filedAs stored)) =
      ((s.absorb slot a actions).1, (s.absorb slot a actions).2.1,
        (s.absorb slot a actions).2.2.map (Action.filedAs stored)) := by
  have haccepts : s.accepts (a.filedAs stored) = s.accepts a := rfl
  simp only [absorb]
  split
  · rfl
  · rfl
  · rfl
  · simp only [confirmMember_filedAs, othersConfirmed_filedAs]
    split <;> rfl
  all_goals
    simp only [haccepts, satisfyInputs_filedAs]
    split <;> rfl

end Synapse

theorem absorbAll_filedAs (slot : Nat) (a : Action) (actions : List Action)
    (synapses : List Synapse) :
    absorbAll slot (a.filedAs stored) (actions.map (Action.filedAs stored)) synapses =
      ((absorbAll slot a actions synapses).1, (absorbAll slot a actions synapses).2.1,
        (absorbAll slot a actions synapses).2.2.map (Action.filedAs stored)) := by
  induction synapses generalizing actions with
  | nil => rfl
  | cons s rest ih => simp only [absorbAll, Synapse.absorb_filedAs, ih]

/-! ## The graph -/

namespace Graph

variable (g : Graph) {stored : ActionId → Bool}

theorem filedAs_filedAs (stored' : ActionId → Bool) :
    (g.filedAs stored).filedAs stored' = g.filedAs stored' := by
  simp only [filedAs, List.map_map]
  rfl

@[simp] theorem id_filedAs : (g.filedAs stored).id = g.id := (rfl)

@[simp] theorem getElem?_filedAs (k : Nat) :
    (g.filedAs stored).actions[k]? = g.actions[k]?.map (Action.filedAs stored) :=
  List.getElem?_map

@[simp] theorem slotOf?_filedAs (id : ActionId) : (g.filedAs stored).slotOf? id = g.slotOf? id := by
  simp only [slotOf?, filedAs, List.findIdx?_map]
  rfl

@[simp] theorem action?_filedAs (id : ActionId) :
    (g.filedAs stored).action? id = (g.action? id).map (Action.filedAs stored) := by
  simp only [action?, filedAs, List.find?_map]
  rfl

theorem modifyAction_filedAs (id : ActionId) (f : Action → Action)
    (hf : ∀ a, f (a.filedAs stored) = (f a).filedAs stored) :
    (g.filedAs stored).modifyAction id f = (g.modifyAction id f).filedAs stored := by
  simp only [modifyAction, slotOf?_filedAs]
  split
  · rfl
  · simp only [filedAs, modify_map _ f hf]

@[simp] theorem setStatusAt_filedAs (slot : Nat) (status : ActionStatus) :
    (g.filedAs stored).setStatusAt slot status = (g.setStatusAt slot status).filedAs stored := by
  simp only [setStatusAt, filedAs]
  rw [modify_map _ _ fun _ => by rfl]

@[simp] theorem settle_filedAs (id : ActionId) (status : ActionStatus) :
    (g.filedAs stored).settle id status =
      ((g.settle id status).1, (g.settle id status).2.filedAs stored) := by
  simp only [settle, action?_filedAs]
  cases g.action? id with
  | none => rfl
  | some a =>
    simp only [Option.map_some, Action.status_filedAs]
    split
    · rfl
    · rw [modifyAction_filedAs g id _ fun _ => by rfl]

/-- **Completions spread as they would with other notes.** -/
@[simp] theorem update_filedAs (id : ActionId) :
    (g.filedAs stored).update id = ((g.update id).1, (g.update id).2.filedAs stored) := by
  simp only [update, slotOf?_filedAs, getElem?_filedAs]
  cases g.slotOf? id with
  | none => rfl
  | some slot =>
    cases ha : g.actions[slot]? with
    | none => simp only [ha, Option.map_none]
    | some a =>
      simp only [ha, Option.map_some]
      simp only [filedAs, absorbAll_filedAs]

end Graph
end ClusterTransition
