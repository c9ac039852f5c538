import ClusterTransition.Proofs.Graph.Edits
import Mathlib.Logic.Relation

/-! # What is done on behalf of one action

A dispatcher that carries an action out, and an engine that takes in a report about it, change the
graph by a few kinds of edits, all about that one action: a note on it, its settling, the spreading
of its completion once it is settled, and the abort fields.  `Graph.Edit` lists them.  Nothing that
is done on behalf of an action changes the plan (`Edits.plan`) or a result that is known
(`Edits.keeps_confirmed`), and statuses of other actions stay (`Edits.statusAt_other`).
-/

namespace ClusterTransition
namespace Graph

/-- One edit on behalf of the action with this id. -/
inductive Edit (id : ActionId) : Graph → Graph → Prop where
  /-- Something is noted on the action, which has nothing to do with its plan or its status. -/
  | note (g : Graph) {f : Action → Action} (hplan : ∀ a, (f a).plan = a.plan)
      (hstatus : ∀ a, (f a).status = a.status) : Edit id g (g.modifyAction id f)
  /-- The result of the action becomes known, unless it is. -/
  | settle (g : Graph) (status : ActionStatus) (hstatus : status.isConfirmed) :
      Edit id g (g.settle id status).2
  /-- The known result of the action is spread. -/
  | spread {g : Graph} {a : Action} (ha : g.action? id = some a) (hc : a.status.isConfirmed) :
      Edit id g (g.update id).2
  | abort (g : Graph) (priority : Int) (action : CompletionAction) (reason : String) :
      Edit id g (g.abort priority action reason)
  /-- The engine's own node shuts down. -/
  | shutdown (g : Graph) (reason : String) :
      Edit id g { g with completionAction := .shutdown, abortReason := some reason }

/-- Several edits on behalf of one action. -/
abbrev Edits (id : ActionId) : Graph → Graph → Prop := Relation.ReflTransGen (Edit id)

variable {id : ActionId} {g g' : Graph}

/-- An edit keeps the plan. -/
theorem Edit.plan (h : Edit id g g') : g'.plan = g.plan := by
  cases h with
  | note hplan _ => exact plan_modifyAction g id hplan
  | settle status _ => exact plan_settle g id status
  | spread => exact plan_update g id
  | abort => rfl
  | shutdown => rfl

theorem Edits.plan (h : Edits id g g') : g'.plan = g.plan := by
  induction h with
  | refl => rfl
  | tail _ step ih => exact step.plan.trans ih

/-- Edits count nothing. -/
theorem Edits.counters (h : Edits id g g') : g'.counters = g.counters := by
  induction h with
  | refl => rfl
  | tail _ step ih =>
    refine Eq.trans ?_ ih
    cases step with
    | note => exact counters_modifyAction ..
    | settle => exact counters_settle ..
    | spread => exact counters_update ..
    | abort | shutdown => rfl

/-- An edit changes at most the status of its own action, and only from open to known. -/
theorem Edit.statusAt (h : Edit id g g') (k : Nat) :
    g'.statusAt k = g.statusAt k ∨
      g.slotOf? id = some k ∧ ∃ old new, g.statusAt k = some old ∧ old.isConfirmed = false ∧
        g'.statusAt k = some new ∧ new.isConfirmed = true := by
  cases h with
  | note _ hstatus => exact .inl (statusAt_modifyAction g id hstatus k)
  | settle status hstatus =>
    have hset := statusAt_settle g id status k
    split at hset
    · rename_i hk
      cases hold : g.statusAt k with
      | none => exact .inl (by simpa [hold] using hset)
      | some old =>
        cases hc : old.isConfirmed with
        | true => exact .inl (by simpa [hold, hc] using hset)
        | false => exact .inr ⟨hk, old, status, rfl, hc, by simpa [hold, hc] using hset, hstatus⟩
    · exact .inl hset
  | spread ha hc => exact .inl (statusAt_update_of_confirmed ha hc k)
  | abort => exact .inl rfl
  | shutdown => exact .inl rfl

/-- A known result stays. -/
theorem Edits.keeps_confirmed (h : Edits id g g') {k : Nat} {status : ActionStatus}
    (hk : g.statusAt k = some status) (hc : status.isConfirmed) :
    g'.statusAt k = some status := by
  induction h with
  | refl => exact hk
  | tail _ step ih =>
    rcases step.statusAt k with heq | ⟨-, old, new, hold, hopen, -, -⟩
    · exact heq.trans ih
    · rw [ih, Option.some.injEq] at hold
      simp [← hold, hc] at hopen

/-- The statuses of other actions stay. -/
theorem Edits.statusAt_other (h : Edits id g g') {k : Nat} (hk : g.slotOf? id ≠ some k) :
    g'.statusAt k = g.statusAt k := by
  induction h with
  | refl => rfl
  | tail steps step ih =>
    rcases step.statusAt k with heq | ⟨hslot, -⟩
    · exact heq.trans ih
    · exact absurd (slotOf?_eq_of_plan (Edits.plan steps) id ▸ hslot) hk

/-- An edit leaves the status of its action or makes it a known result; it never makes an action
pending or executed. -/
theorem Edits.statusAt_self (h : Edits id g g') (k : Nat) :
    g'.statusAt k = g.statusAt k ∨ ∃ new, g'.statusAt k = some new ∧ new.isConfirmed = true := by
  induction h with
  | refl => exact .inl rfl
  | tail _ step ih =>
    rcases step.statusAt k with heq | ⟨-, _, new, -, -, hnew, hc⟩
    · rw [heq]
      exact ih
    · exact .inr ⟨new, hnew, hc⟩

/-- An edit leaves a synapse as it is, or lets it absorb the completion of the action. -/
theorem Edit.synapse (h : Edit id g g') {p : Nat} {s' : Synapse}
    (hs' : g'.synapses[p]? = some s') :
    ∃ s, g.synapses[p]? = some s ∧ (s' = s ∨ ∃ k a, g.slotOf? id = some k ∧
      g.actions[k]? = some a ∧ a.status.isConfirmed ∧ g'.actions = g.actions ∧
      s' = s.absorbed k a g.actions) := by
  cases h with
  | note => exact ⟨s', by rwa [synapses_modifyAction] at hs', .inl rfl⟩
  | settle => exact ⟨s', by rwa [synapses_settle] at hs', .inl rfl⟩
  | spread ha hc =>
    obtain ⟨k, hslot, hget, -⟩ := exists_slot_of_action? ha
    rw [update_of_confirmed hslot hget hc] at hs' ⊢
    obtain ⟨s, hs, rfl⟩ := Option.map_eq_some_iff.mp (List.getElem?_map ▸ hs')
    exact ⟨s, hs, .inr ⟨k, _, hslot, hget, hc, rfl, rfl⟩⟩
  | abort | shutdown => exact ⟨s', hs', .inl rfl⟩

/-- Edits do not make a synapse fire, nor unfire. -/
theorem Edits.isExecuted (h : Edits id g g') {p : Nat} {s' : Synapse}
    (hs' : g'.synapses[p]? = some s') : ∃ s, g.synapses[p]? = some s ∧ s'.plan = s.plan ∧
      s'.status.isExecuted = s.status.isExecuted := by
  induction h generalizing s' with
  | refl => exact ⟨s', hs', rfl, rfl⟩
  | tail _ step ih =>
    obtain ⟨s₁, hs₁, hstep⟩ := step.synapse hs'
    obtain ⟨s, hs, hplan, hexec⟩ := ih hs₁
    refine ⟨s, hs, ?_⟩
    rcases hstep with rfl | ⟨k, a, -, -, -, -, rfl⟩
    · exact ⟨hplan, hexec⟩
    · exact ⟨(Synapse.plan_absorbed ..).trans hplan, Synapse.isExecuted_absorbed.trans hexec⟩

/-! ## Settling and spreading -/

/-- After an action is settled its result is known. -/
theorem exists_confirmed_of_settle {status : ActionStatus} (hstatus : status.isConfirmed)
    {a : Action} (ha : g.action? id = some a) :
    ∃ b, (g.settle id status).2.action? id = some b ∧ b.status.isConfirmed := by
  obtain ⟨k, hslot, hget, -⟩ := exists_slot_of_action? ha
  have hslot' := (slotOf?_eq_of_plan (plan_settle g id status) id).trans hslot
  obtain ⟨b, hb, hb', -⟩ := exists_action_of_slotOf? hslot'
  refine ⟨b, hb', ?_⟩
  have hset := statusAt_settle g id status k
  simp only [statusAt, hslot, hget, hb, if_true, Option.map_some, Option.some.injEq] at hset
  rw [hset]
  split
  · assumption
  · exact hstatus

/-- Spreading the completion of an action that was settled changes no action. -/
theorem actions_update_settle (g : Graph) (id : ActionId) {status : ActionStatus}
    (hstatus : status.isConfirmed) :
    ((g.settle id status).2.update id).2.actions = (g.settle id status).2.actions := by
  cases ha : g.action? id with
  | none => simp only [settle, ha, update, action?_eq_none_iff.mp ha]
  | some a =>
    obtain ⟨b, hb, hc⟩ := exists_confirmed_of_settle hstatus ha
    obtain ⟨k, hslot, hget, -⟩ := exists_slot_of_action? hb
    rw [update_of_confirmed hslot hget hc]

/-- Settling an action and spreading its completion. -/
theorem Edits.finish (g : Graph) {status : ActionStatus} (hstatus : status.isConfirmed) :
    Edits id g ((g.settle id status).2.update id).2 := by
  cases ha : g.action? id with
  | none =>
    have hsame : ((g.settle id status).2.update id).2 = g := by
      simp only [settle, ha, update, action?_eq_none_iff.mp ha]
    rw [hsame]
  | some a =>
    obtain ⟨b, hb, hc⟩ := exists_confirmed_of_settle hstatus ha
    exact .tail (.single (.settle g status hstatus)) (.spread hb hc)

/-! ## Advances -/

/-- One advance on behalf of an action: something is noted on it, it is completed, or its
completion is that the engine's own node shuts down.  Nothing fails in an advance. -/
inductive Advance (id : ActionId) : Graph → Graph → Prop where
  | note (g : Graph) {f : Action → Action} (hplan : ∀ a, (f a).plan = a.plan)
      (hstatus : ∀ a, (f a).status = a.status) : Advance id g (g.modifyAction id f)
  | finish (g : Graph) : Advance id g ((g.settle id .confirmed).2.update id).2
  | shutdown (g : Graph) (reason : String) :
      Advance id g { g with completionAction := .shutdown, abortReason := some reason }

/-- Several advances on behalf of one action. -/
abbrev Advances (id : ActionId) : Graph → Graph → Prop := Relation.ReflTransGen (Advance id)

theorem Advances.edits (h : Advances id g g') : Edits id g g' := by
  induction h with
  | refl => exact .refl
  | tail _ step ih =>
    refine ih.trans ?_
    cases step with
    | note hplan hstatus => exact .single (.note _ hplan hstatus)
    | finish => exact Edits.finish _ rfl
    | shutdown => exact .single (.shutdown ..)

end Graph
end ClusterTransition
