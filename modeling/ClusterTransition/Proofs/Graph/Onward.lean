import ClusterTransition.Proofs.Graph.Handling
import Mathlib.Data.List.Forall2

/-! # Synapses go forward

The statuses of a synapse are ordered by how far it has come: unfired, ready, executing, and the
three at its end.  `SynapseStatus.Leads s t` says that a synapse which is at `s` may be at `t`
later: it has not gone back, it was vetoed only before it fired, and a veto stays.  `Graph.Onward`
says so of all synapses of a graph.

What is done on behalf of an action lets every synapse go forward (`Graph.Edits.onward`).
-/

namespace ClusterTransition

/-- How far a synapse with this status has come. -/
def SynapseStatus.rank : SynapseStatus → Nat
  | unfired => 0
  | ready => 1
  | executing => 2
  | confirmed | failed | skipped => 3

/-- A synapse with the status `s` may come to the status `t`. -/
def SynapseStatus.Leads (s t : SynapseStatus) : Prop :=
  s.rank ≤ t.rank ∧ (t = skipped → s = skipped ∨ s.rank ≤ 1) ∧ (s = skipped → t = skipped)

namespace SynapseStatus

instance (s t : SynapseStatus) : Decidable (s.Leads t) := inferInstanceAs (Decidable (_ ∧ _ ∧ _))

theorem Leads.refl (s : SynapseStatus) : s.Leads s := ⟨Nat.le_refl _, .inl, id⟩

theorem Leads.trans {s t u : SynapseStatus} (h : s.Leads t) (h' : t.Leads u) : s.Leads u := by
  obtain ⟨hrank, hvetoed, hstays⟩ := h
  obtain ⟨hrank', hvetoed', hstays'⟩ := h'
  refine ⟨Nat.le_trans hrank hrank', fun hu => ?_, fun hs => hstays' (hstays hs)⟩
  rcases hvetoed' hu with ht | ht
  · exact hvetoed ht
  · exact .inr (Nat.le_trans hrank ht)

/-- A synapse that has fired may fail. -/
theorem Leads.failed {s : SynapseStatus} (h : s.isExecuted) : s.Leads failed := by
  cases s with
  | executing | confirmed | failed => decide
  | unfired | ready | skipped => cases h

end SynapseStatus

/-- The completion of an action lets a synapse go forward. -/
theorem Synapse.leads_absorbed (slot : Nat) (a : Action) (actions : List Action) (s : Synapse) :
    s.status.Leads (s.absorbed slot a actions).status := by
  have hwaits (h : s.status = .unfired ∨ s.status = .ready) :
      s.status.Leads (s.absorbed slot a actions).status := by
    rw [absorbed_of_waiting h]
    split
    · rcases status_satisfyInputs slot actions s with heq | heq
      · rw [heq]
        exact .refl _
      · rw [heq]
        rcases h with h | h <;> rw [h] <;> decide
    · exact .refl _
  cases h : s.status with
  | unfired => exact h ▸ hwaits (.inl h)
  | ready => exact h ▸ hwaits (.inr h)
  | executing =>
    simp only [absorbed, absorb, h]
    split
    · exact (by decide : SynapseStatus.executing.Leads .confirmed)
    · rw [h]
      exact .refl _
  | confirmed | failed | skipped =>
    rw [absorbed_of_isSettled (by rw [h]; rfl), h]
    exact .refl _

namespace Graph

/-- Every synapse of `g` has come to where it is in `g'` without going back. -/
def Onward (g g' : Graph) : Prop :=
  List.Forall₂ (fun s s' => s.status.Leads s'.status) g.synapses g'.synapses

variable {g g' : Graph}

theorem Onward.of_eq (h : g'.synapses = g.synapses) : g.Onward g' := by
  rw [Onward, h]
  exact List.forall₂_same.mpr fun s _ => .refl _

theorem Onward.refl (g : Graph) : g.Onward g := .of_eq rfl

theorem Onward.trans {g'' : Graph} (h : g.Onward g') (h' : g'.Onward g'') : g.Onward g'' := by
  have htrans {l m n : List Synapse}
      (h : List.Forall₂ (fun s s' => s.status.Leads s'.status) l m)
      (h' : List.Forall₂ (fun s s' => s.status.Leads s'.status) m n) :
      List.Forall₂ (fun s s' => s.status.Leads s'.status) l n := by
    induction h generalizing n with
    | nil => exact h'
    | cons hhead _ ih =>
      cases h' with
      | cons hhead' htail' => exact .cons (hhead.trans hhead') (ih htail')
  exact htrans h h'

/-- The synapse at a position may be given a status that it leads to. -/
theorem onward_setSynapseStatus {pos : Nat} {status : SynapseStatus}
    (h : ∀ s, g.synapses[pos]? = some s → s.status.Leads status) :
    g.Onward (g.setSynapseStatus pos status) := by
  have hmodify {l : List Synapse} {pos : Nat}
      (h : ∀ s, l[pos]? = some s → s.status.Leads status) :
      List.Forall₂ (fun s s' => s.status.Leads s'.status) l
        (l.modify pos fun s => { s with status }) := by
    induction l generalizing pos with
    | nil => simp
    | cons s rest ih =>
      cases pos with
      | zero => exact .cons (h s rfl) (List.forall₂_same.mpr fun _ _ => .refl _)
      | succ pos => exact .cons (.refl _) (ih h)
  exact hmodify h

/-- **What is done on behalf of an action lets the synapses go forward.** -/
theorem Edits.onward {id : ActionId} (h : Edits id g g') : g.Onward g' := by
  induction h with
  | refl => exact .refl g
  | tail _ step ih =>
    refine ih.trans ?_
    cases step with
    | note => exact .of_eq (synapses_modifyAction ..)
    | settle => exact .of_eq (synapses_settle ..)
    | spread ha hc =>
      obtain ⟨k, hslot, hget, -⟩ := exists_slot_of_action? ha
      rw [update_of_confirmed hslot hget hc, Onward, List.forall₂_map_right_iff]
      exact List.forall₂_same.mpr fun s _ => s.leads_absorbed ..
    | abort | shutdown => exact .of_eq rfl

end Graph
end ClusterTransition
