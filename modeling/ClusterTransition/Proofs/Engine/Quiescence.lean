import ClusterTransition.Proofs.Document.Executable
import ClusterTransition.Proofs.Engine.Throttle
import ClusterTransition.Proofs.Pass.Counting

/-! # A second pass after the end

A pass that ends the transition has started nothing for good.  A second pass with nothing in between
does not always leave it at that.  Firing a synapse can fail after some of its actions were done,
and an earlier synapse that waits for one of those has been visited already: the pass ends the
transition, and the next one fires it (`markerThenStart_resumes`).

This is the only way (`quiescent_or_overtaken`).  For every other synapse that waits after the first
pass, what put it off still does: a closed input, or an action for which there was no room
(`Graph.Delayed`).  So the second pass starts nothing.  Its outcome is that of the first, but for a
terminated transition in which the first pass has vetoed all that waited: now it has stopped.
-/

namespace ClusterTransition

/-- Each action of the synapse that is not a marker may go now. -/
def Engine.Admits {ε : Type} (e : Engine ε) (g : Graph) (s : Synapse) : Prop :=
  ∀ slot ∈ s.actions, ∀ a, g.actions[slot]? = some a → a.isPseudo = false →
    g.abortPriority ≤ s.priority ∧ e.ledger.mayFire e.jobLimit g a = true

/-- Where there was no room for an action there is none when the ledger has only filled. -/
theorem Engine.crowded_of_le {ε : Type} {e e' : Engine ε} {g g' : Graph} {a a' : Action}
    (hplan : g'.plan = g.plan) (hkept : a'.plan = a.plan) (hledger : e.ledger.Le e'.ledger)
    (hlimit : e'.jobLimit = e.jobLimit) (hroom : e.ledger.mayFire e.jobLimit g a = false) :
    e'.ledger.mayFire e'.jobLimit g' a' = false := by
  refine Bool.eq_false_iff.mpr fun hmay => ?_
  rw [hlimit, Ledger.mayFire_eq_of_plan hplan hkept] at hmay
  rw [Ledger.mayFire_of_le hledger hmay] at hroom
  cases hroom

instance (s : Synapse) : Decidable s.Waits := inferInstanceAs (Decidable (_ ∨ _))

/-- The synapse will not fire any more, and has not been confirmed. -/
def Synapse.Lost (s : Synapse) : Prop := s.status = .failed ∨ s.status = .skipped

instance (s : Synapse) : Decidable s.Lost := inferInstanceAs (Decidable (_ ∨ _))

namespace Graph

/-- The synapse `s` at `p` waits for an action of a later one, which waited in `g₀` and has failed
in `g`. -/
def Overtaken (g₀ g : Graph) (p : Nat) (s : Synapse) : Prop :=
  ∃ slot ∈ s.inputs.map Input.slot, ∃ (q : Nat) (t₀ t : Synapse), p < q ∧
    g₀.synapses[q]? = some t₀ ∧ t₀.Waits ∧ g.synapses[q]? = some t ∧ t.status = .failed ∧
      slot ∈ t.actions

variable {ε : Type} {c : Cluster ε}

/-! ## What put a synapse off -/

/-- Why the synapse `s` at `p` still waits after the pass that began with `g₀` has visited it. -/
inductive Delayed (g₀ g : Graph) (e : Engine ε) (p : Nat) (s : Synapse) : Prop where
  | closed (hinputs : s.inputsSatisfied g.actions = false)
  | refused {slot : Nat} {a : Action} (hslot : slot ∈ s.actions) (ha : g.actions[slot]? = some a)
      (hpseudo : a.isPseudo = false) (hroom : e.ledger.mayFire e.jobLimit g a = false)
      (hlevel : s.priority < g.abortPriority → g.counters.skipped ≠ 0)
  | overtaken (hovertaken : g₀.Overtaken g p s)

/-- A synapse that has all it waits for was delayed for lack of room, or overtaken. -/
theorem Delayed.of_satisfied {g₀ g : Graph} {e : Engine ε} {p : Nat} {s : Synapse}
    (h : g₀.Delayed g e p s) (hinputs : s.inputsSatisfied g.actions = true) :
    (¬ e.Admits g s ∧ (s.priority < g.abortPriority → g.counters.skipped ≠ 0)) ∨
      g₀.Overtaken g p s := by
  cases h with
  | closed hclosed =>
    rw [hclosed] at hinputs
    cases hinputs
  | refused hslot ha hpseudo hroom hlevel =>
    refine .inl ⟨fun hadmits => ?_, hlevel⟩
    have := (hadmits _ hslot _ ha hpseudo).2
    rw [hroom] at this
    cases this
  | overtaken hovertaken => exact .inr hovertaken

/-- Where all inputs have become open there is a new mark among them. -/
theorem exists_marked_of_satisfied {g g' : Graph} {s s' : Synapse} {slots : List Nat}
    (hplan : g'.plan = g.plan) (hsame : s'.plan = s.plan)
    (hfailed : ∀ k, g.FailedAt k → g'.FailedAt k) (hmarks : s.MarkedFor slots s')
    (hclosed : s.inputsSatisfied g.actions = false)
    (hopen : s'.inputsSatisfied g'.actions = true) :
    ∃ slot ∈ s'.inputs.map Input.slot, slot ∈ slots := by
  by_contra hnone
  have hall : s.inputsSatisfied g.actions = true := by
    refine List.all_eq_true.mpr fun i hi => ?_
    obtain ⟨j, hj⟩ := List.getElem?_of_mem hi
    have hslots := congrArg (·[j]?) (Synapse.inputs_eq_of_plan hsame)
    simp only [List.getElem?_map, hj, Option.map_some] at hslots
    obtain ⟨i', hi', -⟩ := Option.map_eq_some_iff.mp hslots
    obtain ⟨i₁, hi₁, hslot, hmark⟩ := hmarks j i' hi'
    obtain rfl : i = i₁ := Option.some.inj (hj.symm.trans hi₁)
    have hmem := List.mem_of_getElem? hi'
    have hopen' := List.all_eq_true.mp hopen i' hmem
    -- the mark is not new, and a failure that closed the input would close it still
    have hsatisfied (h : i'.satisfied = true) : i.satisfied = true :=
      (hmark h).resolve_right fun hnew => hnone ⟨i'.slot, List.mem_map_of_mem hmem, hslot ▸ hnew⟩
    unfold Input.isOpen at hopen' ⊢
    rw [hslot]
    cases ha : g.actions[i'.slot]? with
    | none =>
      cases ha' : g'.actions[i'.slot]? with
      | none =>
        rw [ha'] at hopen'
        exact hsatisfied hopen'
      | some a' =>
        obtain ⟨a, hsome, -⟩ := action_of_plan hplan ha'
        rw [ha] at hsome
        cases hsome
    | some a =>
      obtain ⟨a', ha', hkept⟩ := action_of_plan hplan.symm ha
      rw [ha'] at hopen'
      simp only [Bool.and_eq_true, Bool.not_eq_eq_eq_not, Bool.not_true, Bool.and_eq_false_imp,
        decide_eq_false_iff_not, and_imp] at hopen' ⊢
      refine ⟨hsatisfied hopen'.1, fun hafailed hmatters => ?_⟩
      have hfails : g'.FailedAt i'.slot := by
        refine hfailed _ ?_
        cases hstatus : a.status with
        | failed reason => exact ⟨reason, hstatus ▸ statusAt_eq ha⟩
        | pending | executed | confirmed => simp [hstatus, ActionStatus.isFailed] at hafailed
      obtain ⟨reason, hfails⟩ := hfails
      rw [statusAt_eq ha', Option.some.injEq] at hfails
      have hlevel := hopen'.2 (by rw [hfails]; rfl) (by
        rwa [← Action.canFail_eq_of_plan hkept])
      rwa [Synapse.priority_eq_of_plan hsame] at hlevel
  rw [hclosed] at hall
  cases hall

/-! ## One visit -/

section Visit

variable {g₀ g : Graph} {e : Engine ε} {k : Nat} {s : Synapse} {out : Graph × Engine ε}

/-- What a visit that fires nothing for good makes of its synapse `s`, and counts. -/
structure Tallied (g g' : Graph) (s s' : Synapse) : Prop where
  idle : ¬ s.Waits → s'.status = s.status
  waiting : s.Waits → s'.Waits ∨ s'.status = .skipped ∧ s.priority < g'.abortPriority ∨
    s'.status = .failed ∧ g'.abortPriority = infinity
  skipped : g'.counters.skipped = g.counters.skipped + if s'.Lost then 1 else 0
  incomplete : g'.counters.incomplete = g.counters.incomplete + if s.Waits then 1 else 0

namespace Tallied

variable {g g' : Graph} {s s' : Synapse}

theorem waited (h : Tallied g g' s s') (hwaits : s'.Waits) : s.Waits := by
  by_contra hidle
  rw [Synapse.Waits, h.idle hidle] at hwaits
  exact hidle hwaits

/-- What no longer waits has been lost to an abort. -/
theorem lost (h : Tallied g g' s s') (hwaits : s.Waits) :
    s'.Waits ∨ s'.Lost ∧ (0 ≤ s.priority → 0 < g'.abortPriority) := by
  rcases h.waiting hwaits with hwaits' | ⟨hstatus, hlevel⟩ | ⟨hstatus, hlevel⟩
  · exact .inl hwaits'
  · exact .inr ⟨.inr hstatus, fun hpriority => Int.lt_of_le_of_lt hpriority hlevel⟩
  · exact .inr ⟨.inl hstatus, fun _ => by rw [hlevel]; decide⟩

theorem skipped_iff (h : Tallied g g' s s') :
    g'.counters.skipped ≠ 0 ↔ g.counters.skipped ≠ 0 ∨ s'.Lost := by
  rw [h.skipped]
  split <;> simp [*]

theorem incomplete_iff (h : Tallied g g' s s') :
    g'.counters.incomplete ≠ 0 ↔ g.counters.incomplete ≠ 0 ∨ s.Waits := by
  rw [h.incomplete]
  split <;> simp [*]

end Tallied

theorem Visited.tally {σ : Type} {d : Dispatcher σ} {st : σ} {out : Graph × σ} (hd : d.Handles)
    (hw : g.WellFormed) (hs : g.synapses[k]? = some s) (h : Visited d k s g st out)
    (hnothing : out.1.counters.fired = 0) :
    ∃ s', out.1.synapses[k]? = some s' ∧ Tallied g out.1 s s' := by
  cases h with
  | @rests status f hrests =>
    refine ⟨{ s with status }, setSynapseStatus_getElem? hs status, ?_⟩
    cases hrests with
    | settled hstatus | underway hstatus =>
      have hidle : ¬ s.Waits := by rcases hstatus with h | h <;> simp [Synapse.Waits, h]
      refine ⟨fun _ => rfl, fun hwaits => absurd hwaits hidle, ?_, by simp [count, hidle]⟩
      rcases hstatus with h | h <;> simp [count, Synapse.Lost, h]
    | closed hwaits =>
      have hkept : ¬ s.Lost := by rcases hwaits with h | h <;> simp [Synapse.Lost, h]
      exact ⟨fun _ => rfl, fun _ => .inl hwaits, by simp [count, hkept], by simp [count, hwaits]⟩
    | held hwaits =>
      exact ⟨fun hidle => absurd hwaits hidle, fun _ => .inl (.inr rfl),
        by simp [count, Synapse.Lost], by simp [count, hwaits]⟩
    | vetoed hwaits _ _ _ _ hlevel =>
      exact ⟨fun hidle => absurd hwaits hidle, fun _ => .inr (.inl ⟨rfl, hlevel⟩),
        by simp [count, Synapse.Lost], by simp [count, hwaits]⟩
  | fired _ _ _ hfire => exact absurd hnothing (Nat.ne_of_gt (fired_pos_of_fireSynapse hd hw hfire))
  | failed hwaits _ _ hfire =>
    obtain ⟨s', hs', -, hfailed⟩ := exists_failed_of_fireSynapse hd hw hs hfire
    have hcounters := (fireSynapse_spreads hd hw hfire).counters
    exact ⟨s', hs', fun hidle => absurd hwaits hidle, fun _ => .inr (.inr ⟨hfailed, rfl⟩),
      by simp [fireFailed, hcounters, Synapse.Lost, hfailed, count],
      by simp [fireFailed, hcounters, hwaits, count]⟩

/-- An abort is not taken back. -/
theorem Visited.level_pos {σ : Type} {d : Dispatcher σ} {st : σ} {out : Graph × σ}
    (hd : d.Handles) (hw : g.WellFormed) (h : Visited d k s g st out)
    (hnothing : out.1.counters.fired = 0) (hlevel : 0 < g.abortPriority) :
    0 < out.1.abortPriority := by
  cases h with
  | rests => exact hlevel
  | fired _ _ _ hfire => exact absurd hnothing (Nat.ne_of_gt (fired_pos_of_fireSynapse hd hw hfire))
  | failed => exact (by decide : 0 < infinity)

/-- A failed synapse stays failed. -/
theorem Visited.keeps_failed {σ : Type} {d : Dispatcher σ} {st : σ} {out : Graph × σ}
    (hd : d.Handles) (hw : g.WellFormed) (hs : g.synapses[k]? = some s)
    (h : Visited d k s g st out) {q : Nat} {t : Synapse} (ht : g.synapses[q]? = some t)
    (hfailed : t.status = .failed) :
    ∃ t', out.1.synapses[q]? = some t' ∧ t'.plan = t.plan ∧ t'.status = .failed := by
  obtain ⟨t', ht', hplan⟩ := synapse_of_plan (h.plan hd hw).symm ht
  refine ⟨t', ht', hplan.symm, ?_⟩
  by_cases hq : q = k
  · subst hq
    obtain rfl : s = t := Option.some.inj (hs.symm.trans ht)
    have hidle : ¬ s.Waits := by simp [Synapse.Waits, hfailed]
    cases h with
    | @rests status f hrests =>
      have hset := setSynapseStatus_getElem? hs status
      obtain rfl := Option.some.inj (hset.symm.trans ht')
      cases hrests with
      | settled | underway => exact hfailed
      | closed hwaits | held hwaits | vetoed hwaits => exact absurd hwaits hidle
    | fired hwaits | failed hwaits => exact absurd hwaits hidle
  · obtain ⟨t₁, ht₁, habsorbs, -⟩ := h.others hd hw ht' hq
    obtain rfl : t = t₁ := Option.some.inj (ht.symm.trans ht₁)
    exact habsorbs.failed_iff.mpr hfailed

/-- A synapse that was overtaken stays so. -/
theorem Overtaken.visited {σ : Type} {d : Dispatcher σ} {st : σ} {out : Graph × σ} (hd : d.Handles)
    (hw : g.WellFormed) (hs : g.synapses[k]? = some s) (h : Visited d k s g st out) {p : Nat}
    {t t' : Synapse} (hover : g₀.Overtaken g p t) (hsame : t'.plan = t.plan) :
    g₀.Overtaken out.1 p t' := by
  obtain ⟨slot, hslot, q, u₀, u, hpq, hu₀, hwaits, hu, hfailed, hmem⟩ := hover
  obtain ⟨u', hu', hplan, hfailed'⟩ := h.keeps_failed hd hw hs hu hfailed
  refine ⟨slot, ?_, q, u₀, u', hpq, hu₀, hwaits, hu', hfailed', ?_⟩
  · rwa [Synapse.inputs_eq_of_plan hsame]
  · rwa [Synapse.actions_eq_of_plan hplan]

/-- What is left of a lack of room after a visit. -/
theorem Delayed.refused_of_le {g' : Graph} {e' : Engine ε} {p slot : Nat} {t t' : Synapse}
    {a : Action} (hplan : g'.plan = g.plan) (hsame : t'.plan = t.plan)
    (hledger : e.ledger.Le e'.ledger) (hlimit : e'.jobLimit = e.jobLimit) (hslot : slot ∈ t.actions)
    (ha : g.actions[slot]? = some a) (hpseudo : a.isPseudo = false)
    (hroom : e.ledger.mayFire e.jobLimit g a = false)
    (hlevel : t'.priority < g'.abortPriority → g'.counters.skipped ≠ 0) :
    g₀.Delayed g' e' p t' := by
  obtain ⟨a', ha', hkept⟩ := action_of_plan hplan.symm ha
  refine .refused (a := a') (by rwa [Synapse.actions_eq_of_plan hsame]) ha' ?_ ?_ hlevel
  · exact (show a'.plan.isPseudo = false from hkept ▸ hpseudo)
  · exact Engine.crowded_of_le hplan hkept.symm hledger hlimit hroom

/-- **What put a synapse off still does after a later visit**, or the synapse is overtaken. -/
theorem Delayed.visited (hw : g.WellFormed) (hs : g.synapses[k]? = some s)
    (h : Visited (Engine.dispatcher c) k s g e out) (hnothing : out.1.counters.fired = 0)
    (hledger : e.ledger.Le out.2.ledger) (hlimit : out.2.jobLimit = e.jobLimit)
    (hwaited : s.Waits → ∃ s₀, g₀.synapses[k]? = some s₀ ∧ s₀.Waits) {p : Nat} (hp : p < k)
    {t t' : Synapse} (ht : g.synapses[p]? = some t) (ht' : out.1.synapses[p]? = some t')
    (hdelayed : g₀.Delayed g e p t) : g₀.Delayed out.1 out.2 p t' := by
  have hd := Engine.dispatcher_handles c
  have hplan := h.plan hd hw
  obtain ⟨t₁, ht₁, hsame⟩ := synapse_of_plan hplan ht'
  obtain rfl : t = t₁ := Option.some.inj (ht.symm.trans ht₁)
  obtain ⟨s', hs', htally⟩ := h.tally hd hw hs hnothing
  cases hnow : t'.inputsSatisfied out.1.actions with
  | false => exact .closed hnow
  | true =>
    cases hbefore : t.inputsSatisfied g.actions with
    | true =>
      cases hdelayed with
      | closed hclosed =>
        rw [hclosed] at hbefore
        cases hbefore
      | overtaken hovertaken => exact .overtaken (hovertaken.visited hd hw hs h hsame)
      | refused hslot ha hpseudo hroom hlevel =>
        refine .refused_of_le hplan hsame hledger hlimit hslot ha hpseudo hroom fun hbelow => ?_
        cases h with
        | rests =>
          exact htally.skipped_iff.mpr (.inl (hlevel (by
            rwa [Synapse.priority_eq_of_plan hsame] at hbelow)))
        | fired _ _ _ hfire =>
          exact absurd hnothing (Nat.ne_of_gt (fired_pos_of_fireSynapse hd hw hfire))
        | failed => simp [fireFailed]
    | false =>
      -- only the firing of the synapse that is visited can have opened an input
      cases h with
      | rests =>
        obtain ⟨t₁, ht₁, ⟨heq, -⟩ | ⟨-, rfl⟩⟩ := setSynapseStatus_cases ht'
        · omega
        · obtain rfl : t = t' := Option.some.inj (ht.symm.trans ht₁)
          exact absurd (hbefore.symm.trans hnow) (by simp)
      | fired _ _ _ hfire =>
        exact absurd hnothing (Nat.ne_of_gt (fired_pos_of_fireSynapse hd hw hfire))
      | @failed g' e' hwaits hinputs hallowed hfire =>
        have hspreads := fireSynapse_spreads hd hw hfire
        obtain ⟨t₁, ht₁, -, hmarks⟩ := hspreads.others p t' ht' (Nat.ne_of_lt hp)
        obtain rfl : t = t₁ := Option.some.inj (ht.symm.trans ht₁)
        have hplan : g'.plan = g.plan := hspreads.plan
        obtain ⟨slot, hslot, hmem⟩ :=
          exists_marked_of_satisfied hplan hsame hspreads.failed hmarks hbefore hnow
        obtain ⟨s₀, hs₀, hwaits₀⟩ := hwaited hwaits
        obtain ⟨s₁, hs₁, hkept₁, hfailed⟩ := exists_failed_of_fireSynapse hd hw hs hfire
        exact .overtaken ⟨slot, hslot, k, s₀, s₁, hp, hs₀, hwaits₀, hs₁, hfailed,
          by rwa [Synapse.actions_eq_of_plan hkept₁]⟩

/-- What puts off the synapse that is visited. -/
theorem Visited.delayed (hw : g.WellFormed) (hs : g.synapses[k]? = some s)
    (h : Visited (Engine.dispatcher c) k s g e out) (hnothing : out.1.counters.fired = 0)
    {s' : Synapse} (hs' : out.1.synapses[k]? = some s') (hwaits : s'.Waits) :
    g₀.Delayed out.1 out.2 k s' := by
  have hd := Engine.dispatcher_handles c
  cases h with
  | @rests status f hrests =>
    have hset := setSynapseStatus_getElem? hs status
    obtain rfl := Option.some.inj (hset.symm.trans hs')
    cases hrests with
    | settled hstatus =>
      rcases hstatus with h | h <;> simp [Synapse.Waits, h] at hwaits
    | underway hstatus =>
      rcases hstatus with h | h <;> simp [Synapse.Waits, h] at hwaits
    | closed _ hinputs => exact .closed hinputs
    | held _ _ hslot ha hpseudo hlevel hask =>
      refine .refused hslot ha hpseudo ?_ fun hbelow => ?_
      · rw [Engine.allowed_eq c (hw.of_plan (plan_setSynapseStatus ..)) e ha] at hask
        exact hask
      · exact absurd hbelow (Int.not_lt.mpr hlevel)
    | vetoed => simp [Synapse.Waits] at hwaits
  | fired _ _ _ hfire => exact absurd hnothing (Nat.ne_of_gt (fired_pos_of_fireSynapse hd hw hfire))
  | failed _ _ _ hfire =>
    have hfailed := fireActions_failed hfire hs'
    simp [Synapse.Waits, hfailed] at hwaits

end Visit

/-! ## A pass that ends the transition -/

/-- Where a pass that began with `g₀` stands when it has visited the synapses before `k` and fired
nothing for good. -/
structure Toured (g₀ : Graph) (k : Nat) (g : Graph) (e : Engine ε) : Prop where
  exact : PassState.Exact ⟨.visiting, g, e⟩
  plan : g.plan = g₀.plan
  waited : ∀ (p : Nat) (s₀ s : Synapse), g₀.synapses[p]? = some s₀ → g.synapses[p]? = some s →
    s.Waits → s₀.Waits
  ahead : ∀ (p : Nat) (s₀ s : Synapse), k ≤ p → g₀.synapses[p]? = some s₀ →
    g.synapses[p]? = some s → s₀.Waits → s.Waits
  behind : ∀ (p : Nat) (s₀ s : Synapse), p < k → g₀.synapses[p]? = some s₀ →
    g.synapses[p]? = some s → s₀.Waits →
      s.Waits ∨ s.Lost ∧ (0 ≤ s.priority → 0 < g.abortPriority)
  delayed : ∀ (p : Nat) (s : Synapse), p < k → g.synapses[p]? = some s → s.Waits →
    g₀.Delayed g e p s
  skipped : g.counters.skipped ≠ 0 ↔
    ∃ (p : Nat) (s : Synapse), p < k ∧ g.synapses[p]? = some s ∧ s.Lost
  incomplete : g.counters.incomplete ≠ 0 ↔
    ∃ (p : Nat) (s₀ : Synapse), p < k ∧ g₀.synapses[p]? = some s₀ ∧ s₀.Waits

/-- What a visit of an engine comes to: the accounts stay exact, and the ledger only fills. -/
theorem visit_exact {g : Graph} {e : Engine ε} {k : Nat} {s : Synapse}
    (h : PassState.Exact ⟨.visiting, g, e⟩) (hs : g.synapses[k]? = some s)
    {out : Graph × Engine ε} (hvisit : Graph.visit (Engine.dispatcher c) k s g e = out) :
    Visited (Engine.dispatcher c) k s g e out ∧ PassState.Exact ⟨.visiting, out.1, out.2⟩ ∧
      e.ledger.Le out.2.ledger ∧ out.2.jobLimit = e.jobLimit := by
  subst hvisit
  have hsteady := Engine.dispatcher_steady c
  have hsteps := visit_steps hsteady hs e
  obtain ⟨hexact, hledger⟩ := PassSteps.ledger_le h hsteps
  refine ⟨visit_visited hsteady (Engine.dispatcher_handles c) h.orderly.wellFormed hs e, hexact,
    hledger, ?_⟩
  exact PassSteps.keep (P := fun x => x.state.jobLimit = e.jobLimit)
    (fun _ _ hstep hx => hstep.jobLimit.trans hx) hsteps rfl

theorem Toured.visit {g₀ g : Graph} {e : Engine ε} {k : Nat} {s : Synapse} (h : g₀.Toured k g e)
    (hs : g.synapses[k]? = some s)
    (hnothing : (Graph.visit (Engine.dispatcher c) k s g e).1.counters.fired = 0) :
    g₀.Toured (k + 1) (Graph.visit (Engine.dispatcher c) k s g e).1
      (Graph.visit (Engine.dispatcher c) k s g e).2 := by
  have hd := Engine.dispatcher_handles c
  have hw := h.exact.orderly.wellFormed
  obtain ⟨hvisited, hexact, hledger, hlimit⟩ := visit_exact (c := c) h.exact hs rfl
  generalize Graph.visit (Engine.dispatcher c) k s g e = out at *
  obtain ⟨s', hs', htally⟩ := hvisited.tally hd hw hs hnothing
  have hplan := hvisited.plan hd hw
  obtain ⟨s₀, hs₀, -⟩ := synapse_of_plan h.plan hs
  have hsame : s'.plan = s.plan := by
    obtain ⟨s₁, hs₁, hsame⟩ := synapse_of_plan hplan hs'
    rw [hsame, Option.some.inj (hs.symm.trans hs₁)]
  have hwaited : s.Waits ↔ s₀.Waits :=
    ⟨h.waited k s₀ s hs₀ hs, h.ahead k s₀ s (Nat.le_refl k) hs₀ hs⟩
  -- the other synapses absorb at most completions
  have hother {p : Nat} {t t' : Synapse} (hp : p ≠ k) (ht : g.synapses[p]? = some t)
      (ht' : out.1.synapses[p]? = some t') : t.status.Absorbs t'.status :=
    hvisited.absorbs_of_ne hd hw hp ht ht'
  refine ⟨hexact, hplan.trans h.plan, ?_, ?_, ?_, ?_, ?_, ?_⟩
  · intro p t₀ t' ht₀ ht' hwaits
    by_cases heq : p = k
    · subst heq
      obtain rfl : s₀ = t₀ := Option.some.inj (hs₀.symm.trans ht₀)
      obtain rfl : s' = t' := Option.some.inj (hs'.symm.trans ht')
      exact hwaited.mp (htally.waited hwaits)
    · obtain ⟨t, ht, -⟩ := synapse_of_plan hplan ht'
      exact h.waited p t₀ t ht₀ ht ((hother heq ht ht').waits_iff.mp hwaits)
  · intro p t₀ t' hp ht₀ ht' hwaits
    obtain ⟨t, ht, -⟩ := synapse_of_plan hplan ht'
    exact (hother (by omega) ht ht').waits_iff.mpr (h.ahead p t₀ t (by omega) ht₀ ht hwaits)
  · intro p t₀ t' hp ht₀ ht' hwaits
    by_cases heq : p = k
    · subst heq
      obtain rfl : s₀ = t₀ := Option.some.inj (hs₀.symm.trans ht₀)
      obtain rfl : s' = t' := Option.some.inj (hs'.symm.trans ht')
      rw [Synapse.priority_eq_of_plan hsame]
      exact htally.lost (hwaited.mpr hwaits)
    · obtain ⟨t, ht, hkept⟩ := synapse_of_plan hplan ht'
      have habsorbs := hother heq ht ht'
      rcases h.behind p t₀ t (by omega) ht₀ ht hwaits with hwaits | ⟨hlost, hlevel⟩
      · exact .inl (habsorbs.waits_iff.mpr hwaits)
      · refine .inr ⟨habsorbs.vetoed_iff.mpr hlost, fun hpriority => ?_⟩
        rw [Synapse.priority_eq_of_plan hkept] at hpriority
        exact hvisited.level_pos hd hw hnothing (hlevel hpriority)
  · intro p t' hp ht' hwaits
    by_cases heq : p = k
    · subst heq
      exact hvisited.delayed hw hs hnothing ht' hwaits
    · obtain ⟨t, ht, -⟩ := synapse_of_plan hplan ht'
      have hlt : p < k := by omega
      have hbefore := h.delayed p t hlt ht ((hother heq ht ht').waits_iff.mp hwaits)
      exact hbefore.visited hw hs hvisited hnothing hledger hlimit
        (fun hwaits => ⟨s₀, hs₀, hwaited.mp hwaits⟩) hlt ht ht'
  · rw [htally.skipped_iff, h.skipped, exists_lt_succ_iff hs']
    refine or_congr_left ⟨?_, ?_⟩
    · rintro ⟨p, t, hp, ht, hlost⟩
      obtain ⟨t', ht', -⟩ := synapse_of_plan hplan.symm ht
      exact ⟨p, t', hp, ht', (hother (Nat.ne_of_lt hp) ht ht').vetoed_iff.mpr hlost⟩
    · rintro ⟨p, t', hp, ht', hlost⟩
      obtain ⟨t, ht, -⟩ := synapse_of_plan hplan ht'
      exact ⟨p, t, hp, ht, (hother (Nat.ne_of_lt hp) ht ht').vetoed_iff.mp hlost⟩
  · rw [htally.incomplete_iff, h.incomplete, hwaited, exists_lt_succ_iff hs₀]

/-! ## A pass that finds nothing to fire -/

/-- Visits that fire nothing have made `g'` of `g`: they changed the statuses of synapses that wait,
and counted. -/
structure Idled (g g' : Graph) : Prop where
  plan : g'.plan = g.plan
  actions : g'.actions = g.actions
  level : g'.abortPriority = g.abortPriority
  fired : g'.counters.fired = g.counters.fired
  pending : g'.counters.pending = g.counters.pending
  synapses : ∀ (p : Nat) (s' : Synapse), g'.synapses[p]? = some s' →
    ∃ s status, g.synapses[p]? = some s ∧ s' = { s with status } ∧ (s'.Waits → s.Waits) ∧
      (s.Lost → s'.Lost) ∧ (s'.Lost → s.Lost ∨
        s.Waits ∧ s.inputsSatisfied g.actions = true ∧ s.priority < g.abortPriority)

theorem Idled.refl (g : Graph) : g.Idled g :=
  ⟨rfl, rfl, rfl, rfl, rfl, fun _ s hs => ⟨s, s.status, hs, rfl, fun h => h, fun h => h, .inl⟩⟩

/-- A visit that leaves its synapse alone. -/
theorem Idled.rests {σ : Type} {d : Dispatcher σ} {st : σ} {g g' : Graph} (h : g.Idled g')
    {pos : Nat} {s' : Synapse} (hs' : g'.synapses[pos]? = some s') {status : SynapseStatus}
    {f : PassCounters → PassCounters} (hrests : Rests d pos s' g' st status f) :
    g.Idled ((g'.setSynapseStatus pos status).count f) := by
  refine ⟨(plan_setSynapseStatus ..).trans h.plan, h.actions, h.level, ?_, ?_, fun p t' ht' => ?_⟩
  · cases hrests <;> exact h.fired
  · cases hrests <;> exact h.pending
  obtain ⟨t, ht, ⟨rfl, rfl⟩ | ⟨-, rfl⟩⟩ := setSynapseStatus_cases ht'
  · obtain rfl : s' = t := Option.some.inj (hs'.symm.trans ht)
    obtain ⟨s, before, hs, rfl, hwaited, hkept, hlost⟩ := h.synapses p s' hs'
    refine ⟨s, status, hs, rfl, ?_⟩
    unfold Synapse.Waits Synapse.Lost at *
    cases hrests with
    | settled | underway | closed => exact ⟨hwaited, hkept, hlost⟩
    | held hwaits =>
      have hidle : ¬ (before = .failed ∨ before = .skipped) := by
        rcases hwaits with h | h <;> simp at h <;> simp [h]
      exact ⟨fun _ => hwaited hwaits, fun h => absurd (hkept h) hidle, by simp⟩
    | vetoed hwaits hinputs _ _ _ hlevel =>
      refine ⟨by simp, fun _ => .inr rfl, fun _ => .inr ⟨hwaited hwaits, ?_, ?_⟩⟩
      · exact h.actions ▸ hinputs
      · exact h.level ▸ hlevel
  · exact h.synapses p t' ht

/-- **Where no synapse may fire a pass does nothing.** -/
theorem visitAll_idled {g : Graph} {e : Engine ε} (hw : g.WellFormed)
    (hstuck : ∀ s ∈ g.synapses, s.Waits → s.inputsSatisfied g.actions = true → ¬ e.Admits g s)
    (positions : List Nat) (log : List DispatchCall) :
    g.Idled (Graph.visitAll (Engine.dispatcher c).recording positions g (e, log)).1 ∧
      (Graph.visitAll (Engine.dispatcher c).recording positions g (e, log)).2 = (e, log) := by
  have hsteady := (Engine.dispatcher_steady c).recording
  have hd := (Engine.dispatcher_handles c).recording
  refine visitAll_induction (P := fun g' st => g.Idled g' ∧ st = (e, log)) ?_ positions
    ⟨.refl g, rfl⟩
  rintro pos s' g' _ hs' ⟨hidled, rfl⟩
  have hw' := hw.of_plan hidled.plan
  obtain ⟨s, status, hs, rfl, hwaited, -⟩ := hidled.synapses pos s' hs'
  -- a synapse that fires would have been admitted
  have hadmitted (hwaits : Synapse.Waits { s with status })
      (hinputs : Synapse.inputsSatisfied g'.actions { s with status } = true)
      (hallowed : ∀ slot ∈ s.actions, ∀ a, g'.actions[slot]? = some a → a.isPseudo = false →
        g'.abortPriority ≤ s.priority ∧ ((Engine.dispatcher c).recording.allowed a.id
          (g'.setSynapseStatus pos .ready) (e, log)).1 = true) : False := by
    refine hstuck s (List.mem_of_getElem? hs) (hwaited hwaits) (hidled.actions ▸ hinputs) ?_
    intro slot hslot a ha hpseudo
    have ha' : g'.actions[slot]? = some a := hidled.actions ▸ ha
    obtain ⟨hlevel, hask⟩ := hallowed slot hslot a ha' hpseudo
    have hready : (g'.setSynapseStatus pos .ready).plan = g.plan :=
      (plan_setSynapseStatus ..).trans hidled.plan
    have hmay := (Engine.allowed_eq c (hw.of_plan hready) e (a := a) ha').symm.trans hask
    rw [Ledger.mayFire_eq_of_plan hready rfl] at hmay
    exact ⟨hidled.level ▸ hlevel, hmay⟩
  have hvisited := visit_visited hsteady hd hw' hs' (e, log)
  generalize Graph.visit (Engine.dispatcher c).recording pos { s with status } g' (e, log) = out
    at hvisited ⊢
  cases hvisited with
  | rests hrests => exact ⟨hidled.rests hs' hrests, rfl⟩
  | fired hwaits hinputs hallowed => exact (hadmitted hwaits hinputs hallowed).elim
  | failed hwaits hinputs hallowed => exact (hadmitted hwaits hinputs hallowed).elim

/-! ## Two passes -/

/-- Where a pass begins, the accounts are exact. -/
theorem Settled.started {g : Graph} {e : Engine ε} (h : g.Settled e.ledger) :
    PassState.Exact ⟨.visiting, g.started, e⟩ :=
  ⟨⟨h.wellFormed.of_plan rfl, h.untouched, by simp⟩, h.accounted.of_actions rfl⟩

/-- Where a pass begins. -/
theorem Toured.start {g : Graph} {e : Engine ε} (h : g.Settled e.ledger) :
    g.started.Toured 0 g.started e where
  exact := h.started
  plan := rfl
  waited := by
    intro p s₀ s hs₀ hs hwaits
    rwa [Option.some.inj (hs₀.symm.trans hs)]
  ahead := by
    intro p s₀ s _ hs₀ hs hwaits
    rwa [← Option.some.inj (hs₀.symm.trans hs)]
  behind := by
    intro p s₀ s hp
    omega
  delayed := by
    intro p s hp
    omega
  skipped := by simp [started, startCounters]
  incomplete := by simp [started, startCounters]

/-- What the visits of a pass that ends the transition leave. -/
theorem toured_of_terminal {g g₁ : Graph} {e e₁ : Engine ε} (h : g.Settled e.ledger)
    (hvisits : Graph.visitAll (Engine.dispatcher c) (List.range g.synapses.length) g.started e =
      (g₁, e₁)) (hpending : g₁.counters.pending = 0) (hfired : g₁.counters.fired = 0) :
    g.started.Toured g₁.synapses.length g₁ e₁ := by
  exact visitAll_sweep_idle (P := fun k g e => Toured _ k g e) (Engine.dispatcher_steady c)
    (Engine.dispatcher_handles c) hpending hfired (fun h => h.exact.orderly.wellFormed)
    (fun h hs hnothing => h.visit hs hnothing) (Toured.start h) rfl hvisits

/-- A synapse may go after a pass that ends the transition only if it was overtaken. -/
theorem Toured.stuck {g₀ g : Graph} {e : Engine ε} (h : g₀.Toured g.synapses.length g e)
    (hnone : ∀ (p : Nat) (s : Synapse), g.synapses[p]? = some s → s.Waits →
      s.inputsSatisfied g.actions = true → e.Admits g s → ¬ g₀.Overtaken g p s) :
    ∀ s ∈ g.synapses, s.Waits → s.inputsSatisfied g.actions = true → ¬ e.Admits g s := by
  intro s hs hwaits hinputs hadmits
  obtain ⟨p, hp⟩ := List.getElem?_of_mem hs
  obtain ⟨hlt, -⟩ := List.getElem?_eq_some_iff.mp hp
  rcases (h.delayed p s hlt hp hwaits).of_satisfied hinputs with ⟨hrefused, -⟩ | hovertaken
  · exact hrefused hadmits
  · exact hnone p s hp hwaits hinputs hadmits hovertaken

/-- Where nothing was skipped, no synapse that waits is vetoed. -/
theorem Toured.unvetoed {g₀ g : Graph} {e : Engine ε} (h : g₀.Toured g.synapses.length g e)
    (hskipped : g.counters.skipped = 0) {s : Synapse} (hs : s ∈ g.synapses) (hwaits : s.Waits)
    (hinputs : s.inputsSatisfied g.actions = true) : g.abortPriority ≤ s.priority := by
  obtain ⟨p, hp⟩ := List.getElem?_of_mem hs
  obtain ⟨hlt, -⟩ := List.getElem?_eq_some_iff.mp hp
  by_contra hbelow
  rcases (h.delayed p s hlt hp hwaits).of_satisfied hinputs with ⟨-, hlevel⟩ | hovertaken
  · exact hlevel (Int.not_le.mp hbelow) hskipped
  · -- what overtook it has failed
    obtain ⟨-, -, q, -, t, -, -, -, ht, hfailed, -⟩ := hovertaken
    obtain ⟨hq, -⟩ := List.getElem?_eq_some_iff.mp ht
    exact h.skipped.mpr ⟨q, t, hq, ht, .inl hfailed⟩ hskipped

theorem Toured.skipped_iff {g₀ g : Graph} {e : Engine ε} (h : g₀.Toured g.synapses.length g e) :
    g.counters.skipped ≠ 0 ↔ ∃ s ∈ g.synapses, s.Lost := by
  rw [h.skipped]
  constructor
  · rintro ⟨p, s, -, hs, hlost⟩
    exact ⟨s, List.mem_of_getElem? hs, hlost⟩
  · rintro ⟨s, hs, hlost⟩
    obtain ⟨p, hp⟩ := List.getElem?_of_mem hs
    exact ⟨p, s, (List.getElem?_eq_some_iff.mp hp).1, hp, hlost⟩

theorem Toured.incomplete_iff {g₀ g : Graph} {e : Engine ε}
    (h : g₀.Toured g.synapses.length g e) :
    g.counters.incomplete ≠ 0 ↔ ∃ s₀ ∈ g₀.synapses, s₀.Waits := by
  rw [h.incomplete]
  constructor
  · rintro ⟨p, s, -, hs, hwaits⟩
    exact ⟨s, List.mem_of_getElem? hs, hwaits⟩
  · rintro ⟨s, hs, hwaits⟩
    obtain ⟨p, hp⟩ := List.getElem?_of_mem hs
    have hlt := (List.getElem?_eq_some_iff.mp hp).1
    rw [← synapses_length_of_plan h.plan] at hlt
    exact ⟨p, s, hlt, hp, hwaits⟩

/-- What waits after a pass waited before it; what waited before it still does, or is lost. -/
theorem Toured.waits_iff {g₀ g : Graph} {e : Engine ε} (h : g₀.Toured g.synapses.length g e) :
    ((∃ s ∈ g.synapses, s.Waits) → g.counters.incomplete ≠ 0) ∧
      (g.counters.incomplete ≠ 0 → (∀ s ∈ g.synapses, ¬ s.Waits) → g.counters.skipped ≠ 0) := by
  rw [h.incomplete_iff]
  constructor
  · rintro ⟨s, hs, hwaits⟩
    obtain ⟨p, hp⟩ := List.getElem?_of_mem hs
    obtain ⟨s₀, hs₀, -⟩ := synapse_of_plan h.plan hp
    exact ⟨s₀, List.mem_of_getElem? hs₀, h.waited p s₀ s hs₀ hp hwaits⟩
  · rintro ⟨s₀, hs₀, hwaits₀⟩ hnone
    obtain ⟨p, hp⟩ := List.getElem?_of_mem hs₀
    obtain ⟨s, hs, -⟩ := synapse_of_plan h.plan.symm hp
    have hlt := (List.getElem?_eq_some_iff.mp hs).1
    have hmem := List.mem_of_getElem? hs
    rcases h.behind p s₀ s hlt hp hs hwaits₀ with hwaits | ⟨hlost, -⟩
    · exact absurd hwaits (hnone s hmem)
    · exact h.skipped_iff.mpr ⟨s, hmem, hlost⟩

/-- What the second of two passes counts as skipped, if it fires nothing. -/
theorem Toured.skipped_again {g₀ g₁ g₁' g₂ : Graph} {e e' : Engine ε}
    (h : g₀.Toured g₁.synapses.length g₁ e) (h' : g₁'.Toured g₂.synapses.length g₂ e')
    (hsynapses : g₁'.synapses = g₁.synapses) (hactions : g₁'.actions = g₁.actions)
    (hlevel : g₁'.abortPriority = g₁.abortPriority) (hidled : g₁'.Idled g₂) :
    g₂.counters.skipped ≠ 0 ↔ g₁.counters.skipped ≠ 0 := by
  rw [h'.skipped_iff]
  constructor
  · rintro ⟨s', hs', hlost⟩ hzero
    obtain ⟨p, hp⟩ := List.getElem?_of_mem hs'
    obtain ⟨s, -, hs, -, -, -, hcause⟩ := hidled.synapses p s' hp
    rw [hsynapses] at hs
    have hmem := List.mem_of_getElem? hs
    rcases hcause hlost with hlost | ⟨hwaits, hinputs, hbelow⟩
    · exact h.skipped_iff.mpr ⟨s, hmem, hlost⟩ hzero
    · have := h.unvetoed hzero hmem hwaits (hactions ▸ hinputs)
      omega
  · intro hskipped
    obtain ⟨s, hs, hlost⟩ := h.skipped_iff.mp hskipped
    rw [← hsynapses] at hs
    obtain ⟨p, hp⟩ := List.getElem?_of_mem hs
    obtain ⟨s', hs', -⟩ := synapse_of_plan hidled.plan.symm hp
    obtain ⟨t, -, ht, -, -, hkept, -⟩ := hidled.synapses p s' hs'
    obtain rfl : s = t := Option.some.inj (hp.symm.trans ht)
    exact ⟨s', List.mem_of_getElem? hs', hkept hlost⟩

/-- The outcomes of two passes, the second of which fires nothing. -/
theorem Toured.classify_again {g₀ g₁ g₁' g₂ : Graph} {e e' : Engine ε}
    (h : g₀.Toured g₁.synapses.length g₁ e) (h' : g₁'.Toured g₂.synapses.length g₂ e')
    (hsynapses : g₁'.synapses = g₁.synapses) (hactions : g₁'.actions = g₁.actions)
    (hlevel : g₁'.abortPriority = g₁.abortPriority) (hidled : g₁'.Idled g₂)
    (hidle : g₁.counters.pending = 0 ∧ g₁.counters.fired = 0)
    (hidle' : g₂.counters.pending = 0 ∧ g₂.counters.fired = 0) :
    g₂.classify =
      if g₁.classify = .terminated ∧ ∀ s ∈ g₁.synapses, ¬ s.Waits then .stopped
      else g₁.classify := by
  have hskipped := h.skipped_again h' hsynapses hactions hlevel hidled
  have hlevel₂ : g₂.abortPriority = g₁.abortPriority := hidled.level.trans hlevel
  have hwaits : g₂.counters.incomplete ≠ 0 ↔ ∃ s ∈ g₁.synapses, s.Waits := by
    rw [h'.incomplete_iff, hsynapses]
  obtain ⟨hwaited, hlost⟩ := h.waits_iff
  rw [classify_of_idle hidle.1 hidle.2, classify_of_idle hidle'.1 hidle'.2, hlevel₂]
  by_cases hterminated : g₁.counters.incomplete ≠ 0 ∧ g₁.abortPriority ≤ 0
  · by_cases hsome : ∃ s ∈ g₁.synapses, s.Waits
    · have hnot : ¬ ∀ s ∈ g₁.synapses, ¬ s.Waits := fun hnone =>
        hsome.elim fun s hs => hnone s hs.1 hs.2
      rw [if_pos hterminated, if_pos ⟨hwaits.mpr hsome, hterminated.2⟩,
        if_neg fun hboth => hnot hboth.2]
    · have hnone : ∀ s ∈ g₁.synapses, ¬ s.Waits := fun s hs hwaits => hsome ⟨s, hs, hwaits⟩
      have hskips := hskipped.mpr (hlost hterminated.1 hnone)
      rw [if_pos hterminated, if_neg fun hboth => hsome (hwaits.mp hboth.1), if_pos hskips,
        if_pos ⟨rfl, hnone⟩]
  · have hnot : ¬ (g₂.counters.incomplete ≠ 0 ∧ g₁.abortPriority ≤ 0) := fun hboth =>
      hterminated ⟨hwaited (hwaits.mp hboth.1), hboth.2⟩
    rw [if_neg hterminated, if_neg hnot]
    by_cases hskips : g₁.counters.skipped ≠ 0
    · simp [hskips, hskipped.mpr hskips]
    · simp [hskips, mt hskipped.mp hskips]

/-- The visits of a pass over a graph in which nothing executes and no synapse may fire. -/
theorem visits_idled {g : Graph} {e : Engine ε} (h : g.Settled e.ledger)
    (hidle : ∀ s ∈ g.synapses, s.status ≠ .executing)
    (hstuck : ∀ s ∈ g.synapses, s.Waits → s.inputsSatisfied g.actions = true → ¬ e.Admits g s) :
    g.calls (Engine.dispatcher c) e = [] ∧ ∃ g', g.started.Idled g' ∧
      g'.counters.pending = 0 ∧ g'.counters.fired = 0 ∧
      Graph.visitAll (Engine.dispatcher c) (List.range g.synapses.length) g.started e =
        (g', e) := by
  obtain ⟨hidled, hstate⟩ := visitAll_idled (c := c) (g := g.started) (h.wellFormed.of_plan rfl)
    hstuck (List.range g.synapses.length) []
  have hvisits := visitAll_recording (Engine.dispatcher c) (List.range g.synapses.length) g.started
    (e, [])
  rw [hstate] at hvisits
  have hpending : g.started.counters.pending = 0 := by
    refine List.countP_eq_zero.mpr fun s hs => ?_
    simpa using hidle s hs
  exact ⟨congrArg Prod.snd hstate, _, hidled, hidled.pending.trans hpending, hidled.fired, hvisits⟩

/-- **A second pass starts nothing**, if no synapse that was overtaken in the first may go. -/
theorem quiet_of_terminal {g g' : Graph} {e e' : Engine ε} {result : PassResult}
    (h : g.Settled e.ledger) (hpass : g.run (Engine.dispatcher c) e = (result, g', e'))
    (hterminal : result.isTerminal)
    (hnone : ∀ (p : Nat) (s : Synapse), g'.synapses[p]? = some s → s.Waits →
      s.inputsSatisfied g'.actions = true → e'.Admits g' s → ¬ g.Overtaken g' p s) :
    g'.calls (Engine.dispatcher c) e' = [] ∧
      (g'.run (Engine.dispatcher c) e').1 =
        if result = .terminated ∧ ∀ s ∈ g'.synapses, ¬ s.Waits then .stopped else result := by
  have hends : (g.run (Engine.dispatcher c) e).1.isTerminal := by rwa [hpass]
  have hidle := idle_of_terminal (Engine.dispatcher_steady c) (Engine.dispatcher_handles c)
    h.wellFormed hends
  have hsettled := Move.settled c .pass (s := (g, e)) h
  simp only [Move.make, hpass] at hidle hsettled
  -- the first pass
  obtain ⟨⟨g₁, e₁⟩, hfirst⟩ : ∃ out, Graph.visitAll (Engine.dispatcher c)
    (List.range g.synapses.length) g.started e = out := ⟨_, rfl⟩
  obtain ⟨rfl, rfl, rfl⟩ : g₁.classify = result ∧
      { g₁ with complete := g₁.complete || g₁.classify.isTerminal } = g' ∧ e₁ = e' := by
    simpa only [Prod.mk.injEq] using (run_of_visits hfirst).symm.trans hpass
  have hcounts := classify_isTerminal_iff.mp hterminal
  have htoured := toured_of_terminal h hfirst hcounts.1 hcounts.2
  -- the second pass
  obtain ⟨hcalls, g₂, hidled, hpending, hfired, hsecond⟩ :=
    visits_idled (c := c) hsettled hidle (htoured.stuck hnone)
  have hagain := toured_of_terminal hsettled hsecond hpending hfired
  refine ⟨hcalls, ?_⟩
  rw [run_of_visits hsecond]
  exact htoured.classify_again hagain rfl rfl rfl hidled hcounts ⟨hpending, hfired⟩

/-- In a terminated transition some synapse waits, unless the vetoed ones had priorities below
zero. -/
theorem exists_waits_of_terminated {g g' : Graph} {e e' : Engine ε} (h : g.Settled e.ledger)
    (hpass : g.run (Engine.dispatcher c) e = (.terminated, g', e'))
    (hpriority : ∀ s ∈ g.synapses, 0 ≤ s.priority) : ∃ s ∈ g'.synapses, s.Waits := by
  obtain ⟨⟨g₁, e₁⟩, hfirst⟩ : ∃ out, Graph.visitAll (Engine.dispatcher c)
    (List.range g.synapses.length) g.started e = out := ⟨_, rfl⟩
  obtain ⟨hresult, rfl, rfl⟩ : g₁.classify = .terminated ∧
      { g₁ with complete := g₁.complete || g₁.classify.isTerminal } = g' ∧ e₁ = e' := by
    simpa only [Prod.mk.injEq] using (run_of_visits hfirst).symm.trans hpass
  have hcounts := classify_isTerminal_iff.mp (by rw [hresult]; rfl)
  have htoured := toured_of_terminal h hfirst hcounts.1 hcounts.2
  obtain ⟨hincomplete, hlevel⟩ : g₁.counters.incomplete ≠ 0 ∧ g₁.abortPriority ≤ 0 := by
    rw [classify_of_idle hcounts.1 hcounts.2] at hresult
    by_contra hnot
    rw [if_neg hnot] at hresult
    split at hresult <;> cases hresult
  obtain ⟨s₀, hs₀, hwaits₀⟩ := htoured.incomplete_iff.mp hincomplete
  obtain ⟨p, hp⟩ := List.getElem?_of_mem hs₀
  obtain ⟨s, hs, hsame⟩ := synapse_of_plan htoured.plan.symm hp
  have hlt := (List.getElem?_eq_some_iff.mp hs).1
  rcases htoured.behind p s₀ s hlt hp hs hwaits₀ with hwaits | ⟨-, hraised⟩
  · exact ⟨s, List.mem_of_getElem? hs, hwaits⟩
  · have hlow := hpriority s₀ hs₀
    rw [Synapse.priority_eq_of_plan hsame] at hlow
    have := hraised hlow
    omega

end Graph

/-- **After the end nothing more starts, unless a synapse was overtaken.**  Take any run of an
engine on a graph of the loader, in which a pass ends the transition.  If no synapse may go that
waits for an action of a later one, whose firing failed in this pass, then another pass at once
calls no dispatcher.  It answers the same, but for a terminated transition in which no synapse waits
any more: that has stopped. -/
theorem quiescent_unless_overtaken {d : GraphDocument} {g : Graph} (h : d.toGraph = .ok g)
    {ε : Type} (c : Cluster ε) (e : Engine ε) (moves : List Move) {g₁ g₂ : Graph} {e₁ e₂ : Engine ε}
    {result : PassResult} (hrun : Move.makeAll c moves (g, e.startTransition) = (g₁, e₁))
    (hpass : g₁.run (Engine.dispatcher c) e₁ = (result, g₂, e₂)) (hterminal : result.isTerminal)
    (hnone : ∀ (p : Nat) (s : Synapse), g₂.synapses[p]? = some s → s.Waits →
      s.inputsSatisfied g₂.actions = true → e₂.Admits g₂ s → ¬ g₁.Overtaken g₂ p s) :
    g₂.calls (Engine.dispatcher c) e₂ = [] ∧
      (g₂.run (Engine.dispatcher c) e₂).1 =
        if result = .terminated ∧ ∀ s ∈ g₂.synapses, ¬ s.Waits then .stopped else result := by
  have hsettled := Move.makeAll_settled c moves (s := (g, e.startTransition))
    (Graph.settled_of_toGraph h e)
  rw [hrun] at hsettled
  exact Graph.quiet_of_terminal hsettled hpass hterminal hnone

/-! ## Documents -/

/-- In every run, a pass that ends the transition and is made again calls no dispatcher and answers
the same. -/
def GraphDocument.Quiesces (d : GraphDocument) : Prop :=
  ∀ g, d.toGraph = .ok g → ∀ (ε : Type) (c : Cluster ε) (e : Engine ε) (moves : List Move)
    (g₁ g₂ : Graph) (e₁ e₂ : Engine ε) (result : PassResult),
    Move.makeAll c moves (g, e.startTransition) = (g₁, e₁) →
    g₁.run (Engine.dispatcher c) e₁ = (result, g₂, e₂) → result.isTerminal →
      g₂.calls (Engine.dispatcher c) e₂ = [] ∧ (g₂.run (Engine.dispatcher c) e₂).1 = result

/-- No synapse waits for an action of a later one. -/
def GraphDocument.InOrder (d : GraphDocument) : Prop :=
  d.synapses.Pairwise fun s t => ∀ a ∈ t.actions, a.id ∉ s.inputs

/-- Where the synapses are in order none is overtaken. -/
theorem GraphDocument.InOrder.not_overtaken {d : GraphDocument} (horder : d.InOrder)
    {g g₁ g₂ : Graph} (hloaded : d.LoadedAs g) (hplan : g₂.plan = g.plan) {p : Nat} {s : Synapse}
    (hs : g₂.synapses[p]? = some s) : ¬ g₁.Overtaken g₂ p s := by
  rintro ⟨slot, hslot, q, -, t, hpq, -, -, ht, -, hmem⟩
  obtain ⟨i, hi, rfl⟩ := List.mem_map.mp hslot
  obtain ⟨sd, td, hsd, htd, -, -, a, ha, hinput⟩ := hloaded.dependsOn hplan hs ht hi hmem
  obtain ⟨hp, rfl⟩ := List.getElem?_eq_some_iff.mp hsd
  obtain ⟨hq, rfl⟩ := List.getElem?_eq_some_iff.mp htd
  exact List.pairwise_iff_getElem.mp horder p q hp hq hpq a ha hinput

/-- **Documents in order quiesce**, if no priority is below zero. -/
theorem GraphDocument.quiesces_of_inOrder {d : GraphDocument} (horder : d.InOrder)
    (hpriority : ∀ s ∈ d.synapses, 0 ≤ s.priority) : d.Quiesces := by
  intro g hg ε c e moves g₁ g₂ e₁ e₂ result hrun hpass hterminal
  have hloaded := loadedAs_of_toGraph hg
  have hsettled := Move.makeAll_settled c moves (s := (g, e.startTransition))
    (Graph.settled_of_toGraph hg e)
  have hplan := Move.plan_makeAll c moves (g, e.startTransition)
  have hplan' := (Move.pass).plan c (g₁, e₁)
  rw [hrun] at hsettled hplan
  simp only [Move.make, hpass] at hplan'
  have hpriority' : ∀ s ∈ g₁.synapses, 0 ≤ s.priority := by
    intro s hs
    obtain ⟨p, hp⟩ := List.getElem?_of_mem hs
    obtain ⟨s₀, hs₀, hsame⟩ := Graph.synapse_of_plan hplan hp
    obtain ⟨sd, hsd, hst⟩ := hloaded.exists_document_at hs₀
    rw [Synapse.priority_eq_of_plan hsame, hst.priority]
    exact hpriority sd (List.mem_of_getElem? hsd)
  obtain ⟨hcalls, hanswer⟩ := Graph.quiet_of_terminal hsettled hpass hterminal
    fun p s hs _ _ _ => horder.not_overtaken hloaded (hplan'.trans hplan) hs
  refine ⟨hcalls, hanswer.trans (if_neg ?_)⟩
  rintro ⟨rfl, hnone⟩
  obtain ⟨s, hs, hwaits⟩ := Graph.exists_waits_of_terminated hsettled hpass hpriority'
  exact hnone s hs hwaits

/-- One start, the priority of which is below zero. -/
def GraphDocument.lowStart : GraphDocument where
  transitionId := 1
  synapses :=
    [{ id := 0
       priority := -1
       actions := [{ id := 1, kind := .resource, task := some "start", target := some "node1" }] }]

/-- Below zero, a synapse is vetoed without an abort: the first pass answers that the transition was
terminated, the second that it has stopped. -/
example : ∀ g, GraphDocument.lowStart.toGraph = .ok g →
    let d := Engine.dispatcher .willing
    let first := g.run d (Engine.new { node := "node1" } 0).startTransition
    first.1 = .terminated ∧ (first.2.1.run d first.2.2).1 = .stopped := by
  rintro _ ⟨⟩
  decide +kernel

/-- A cluster in which no request goes out. -/
def Cluster.mute : Cluster Nat := { Cluster.willing with send := fun _ _ n => (false, n) }

/-- A start, and a marker that waits for it. -/
def GraphDocument.startThenMarker : GraphDocument where
  transitionId := 1
  synapses :=
    [{ id := 0
       actions := [{ id := 1, kind := .resource, task := some "start", target := some "node1" }] },
     { id := 1, actions := [{ id := 2, kind := .pseudo }], inputs := [1] }]

/-- The start cannot be sent, which ends the transition; a second pass starts nothing. -/
theorem startThenMarker_quiescent : ∃ g, GraphDocument.startThenMarker.toGraph = .ok g ∧
    let e := (Engine.new { node := "node1" } 0).startTransition
    let s := (g.run (Engine.dispatcher .mute) e).2
    (g.run (Engine.dispatcher .mute) e).1 = .stopped ∧
      s.1.calls (Engine.dispatcher .mute) s.2 = [] ∧
      (s.1.run (Engine.dispatcher .mute) s.2).1 = .stopped := by
  have hpass (p : PassResult × Graph × Engine Nat) : p = (p.1, p.2.1, p.2.2) := rfl
  have hstopped : ∀ g, GraphDocument.startThenMarker.toGraph = .ok g →
      (g.run (Engine.dispatcher .mute)
        (Engine.new { node := "node1" } 0).startTransition).1 = .stopped ∧
      ∀ s ∈ (g.run (Engine.dispatcher .mute)
        (Engine.new { node := "node1" } 0).startTransition).2.1.synapses, s.Waits →
          s.inputsSatisfied (g.run (Engine.dispatcher .mute)
            (Engine.new { node := "node1" } 0).startTransition).2.1.actions = false := by
    rintro _ ⟨⟩
    decide +kernel
  obtain ⟨g, hg⟩ : ∃ g, GraphDocument.startThenMarker.toGraph = .ok g := ⟨_, rfl⟩
  obtain ⟨hresult, hclosed⟩ := hstopped g hg
  have hquiet := quiescent_unless_overtaken hg .mute
    (Engine.new { node := "node1" } 0) [] rfl (hpass _) (by rw [hresult]; rfl)
    fun p s hs hwaits hinputs => by
      rw [hclosed s (List.mem_of_getElem? hs) hwaits] at hinputs
      cases hinputs
  rw [hresult] at hquiet
  exact ⟨g, hg, hresult, hquiet.1, hquiet.2⟩

/-- A marker that waits for another one, which is followed by a start in its synapse. -/
def GraphDocument.markerThenStart : GraphDocument where
  transitionId := 1
  synapses :=
    [{ id := 0, actions := [{ id := 3, kind := .pseudo }], inputs := [1] },
     { id := 1
       actions :=
         [{ id := 1, kind := .pseudo },
          { id := 2, kind := .resource, task := some "start", target := some "node1" }] }]

/-- The first pass is done with the first synapse when the other one is fired; that fails, but not
before the marker is confirmed.  The transition has stopped, and the next pass goes on with it. -/
theorem markerThenStart_resumes : (∃ g, GraphDocument.markerThenStart.toGraph = .ok g ∧
      let e := (Engine.new { node := "node1" } 0).startTransition
      let s := (g.run (Engine.dispatcher .mute) e).2
      (g.run (Engine.dispatcher .mute) e).1 = .stopped ∧
        (s.1.calls (Engine.dispatcher .mute) s.2).map (·.id) = [3] ∧
        (s.1.run (Engine.dispatcher .mute) s.2).1 = .active) ∧
    ¬ GraphDocument.markerThenStart.Quiesces := by
  have hfacts : ∀ g, GraphDocument.markerThenStart.toGraph = .ok g →
      let e := (Engine.new { node := "node1" } 0).startTransition
      let s := (g.run (Engine.dispatcher .mute) e).2
      (g.run (Engine.dispatcher .mute) e).1 = .stopped ∧
        (s.1.calls (Engine.dispatcher .mute) s.2).map (·.id) = [3] ∧
        (s.1.run (Engine.dispatcher .mute) s.2).1 = .active := by
    rintro _ ⟨⟩
    decide +kernel
  have hpass (p : PassResult × Graph × Engine Nat) : p = (p.1, p.2.1, p.2.2) := rfl
  obtain ⟨g, hg⟩ : ∃ g, GraphDocument.markerThenStart.toGraph = .ok g := ⟨_, rfl⟩
  obtain ⟨hresult, hcalls, hagain⟩ := hfacts g hg
  refine ⟨⟨g, hg, hresult, hcalls, hagain⟩, fun hquiesces => ?_⟩
  have hquiet := hquiesces g hg Nat .mute (Engine.new { node := "node1" } 0) [] _ _ _ _ _ rfl
    (hpass _) (by rw [hresult]; rfl)
  rw [hquiet.1] at hcalls
  cases hcalls

end ClusterTransition
