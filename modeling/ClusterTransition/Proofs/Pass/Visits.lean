import ClusterTransition.Proofs.Pass.Steps

/-! # Which synapses a pass fires

A pass goes by the synapses that it has nothing to do with: those that have fired and have not
failed, and those whose inputs are not all satisfied.  So it reaches the first synapse that may fire
with the graph that it began with, but for the counters (`visitAll_reaches`), and fires it if each
of its actions may go (`visit_fires`).
-/

namespace ClusterTransition

/-- A visit has nothing to do with the synapse. -/
def Synapse.PassedBy (actions : List Action) (s : Synapse) : Prop :=
  s.status = .executing ∨ s.status = .confirmed ∨
    (s.status = .unfired ∨ s.status = .ready) ∧ s.inputsSatisfied actions = false

namespace Graph

variable {σ : Type} {d : Dispatcher σ}

/-! ## Going by -/

/-- Going by a synapse changes nothing but the counters, and not those of fired and pending
synapses. -/
theorem visit_passedBy (pos : Nat) {s : Synapse} {g : Graph} (h : s.PassedBy g.actions) (st : σ) :
    ∃ n : PassCounters, n.fired = g.counters.fired ∧ n.pending = g.counters.pending ∧
      visit d pos s g st = ({ g with counters := n }, st) := by
  rcases h with h | h | ⟨hwaits, hinputs⟩
  · exact ⟨g.counters, rfl, rfl, by simp only [visit, h]⟩
  · exact ⟨g.counters, rfl, rfl, by simp only [visit, h]⟩
  · refine ⟨{ g.counters with incomplete := g.counters.incomplete + 1 }, rfl, rfl, ?_⟩
    rw [visit_of_waiting hwaits]
    simp only [shouldFire, hinputs, Bool.false_eq_true, if_false]
    rfl

theorem visitAll_passedBy (positions : List Nat) {g : Graph}
    (h : ∀ p ∈ positions, ∀ s, g.synapses[p]? = some s → s.PassedBy g.actions) (st : σ) :
    ∃ n : PassCounters, n.fired = g.counters.fired ∧ n.pending = g.counters.pending ∧
      visitAll d positions g st = ({ g with counters := n }, st) := by
  induction positions generalizing g with
  | nil => exact ⟨g.counters, rfl, rfl, rfl⟩
  | cons p rest ih =>
    have hrest : ∀ q ∈ rest, ∀ s, g.synapses[q]? = some s → s.PassedBy g.actions :=
      fun q hq => h q (List.mem_cons_of_mem _ hq)
    simp only [visitAll]
    split
    · exact ⟨g.counters, rfl, rfl, rfl⟩
    · cases hs : g.synapses[p]? with
      | none => exact ih hrest
      | some s =>
        obtain ⟨n, hfired, hpending, hvisit⟩ :=
          visit_passedBy (d := d) p (h p (List.mem_cons_self ..) s hs) st
        obtain ⟨n', hfired', hpending', hall⟩ := ih (g := { g with counters := n }) hrest
        refine ⟨n', hfired'.trans hfired, hpending'.trans hpending, ?_⟩
        simp only [hvisit, hall]

theorem visitAll_append (before after : List Nat) (g : Graph) (st : σ) :
    visitAll d (before ++ after) g st =
      visitAll d after (visitAll d before g st).1 (visitAll d before g st).2 := by
  induction before generalizing g st with
  | nil => rfl
  | cons p before ih =>
    simp only [List.cons_append, visitAll]
    split
    · rename_i hfull
      cases after with
      | nil => rfl
      | cons q after => simp [visitAll, hfull]
    · cases g.synapses[p]? with
      | none => exact ih g st
      | some s => exact ih _ _

/-- **A pass reaches the first synapse that it does not go by.** -/
theorem visitAll_reaches {pos : Nat} {s : Synapse} {g : Graph} (hs : g.synapses[pos]? = some s)
    (hbefore : ∀ p < pos, ∀ s, g.synapses[p]? = some s → s.PassedBy g.actions)
    (hroom : g.batchFull = false) (st : σ) :
    ∃ (n : PassCounters) (rest : List Nat), n.fired = g.counters.fired ∧
      n.pending = g.counters.pending ∧ visitAll d (List.range g.synapses.length) g st =
        visitAll d rest (visit d pos s { g with counters := n } st).1
          (visit d pos s { g with counters := n } st).2 := by
  obtain ⟨hpos, -⟩ := List.getElem?_eq_some_iff.mp hs
  obtain ⟨before, rest, hsplit⟩ := List.append_of_mem (List.mem_range.mpr hpos)
  have hlt : ∀ p ∈ before, p < pos := by
    have hsorted := List.pairwise_lt_range (n := g.synapses.length)
    rw [hsplit] at hsorted
    exact fun p hp => (List.pairwise_append.mp hsorted).2.2 p hp pos (List.mem_cons_self ..)
  obtain ⟨n, hfired, hpending, hall⟩ := visitAll_passedBy (d := d) before
    (fun p hp => hbefore p (hlt p hp)) st
  refine ⟨n, rest, hfired, hpending, ?_⟩
  have hroom' : ({ g with counters := n } : Graph).batchFull = false := by
    simpa [batchFull, hpending] using hroom
  rw [hsplit, visitAll_append, hall]
  simp only [visitAll, hroom', Bool.false_eq_true, if_false, hs]

/-! ## Firing -/

/-- A synapse with satisfied inputs fires if each of its actions may go. -/
theorem visit_fires (hd : d.Steady) {pos : Nat} {s : Synapse} {g : Graph} {st : σ}
    (hwaits : s.status = .unfired ∨ s.status = .ready) (hinputs : s.inputsSatisfied g.actions)
    (hallowed : ∀ slot ∈ s.actions, ∀ a, g.actions[slot]? = some a → a.isPseudo = false →
      g.abortPriority ≤ s.priority ∧
        (d.allowed a.id (g.setSynapseStatus pos .ready) st).1 = true) :
    visit d pos s g st = fireCounted d pos s.actions (g.setSynapseStatus pos .ready) st := by
  obtain ⟨decision, g', heq, hout⟩ :=
    checkActions_outcome hd pos s.priority s.actions (g.setSynapseStatus pos .ready) st
  rw [visit_of_waiting hwaits]
  simp only [shouldFire, hinputs, if_true, heq]
  cases hout with
  | fire => rfl
  | defer hslot ha hpseudo _ hask =>
    have := (hallowed _ hslot _ ha hpseudo).2
    rw [hask] at this
    cases this
  | skip hslot ha hpseudo hlevel =>
    have := (hallowed _ hslot _ ha hpseudo).1
    exact absurd hlevel (Int.not_lt.mpr this)

end Graph
end ClusterTransition
