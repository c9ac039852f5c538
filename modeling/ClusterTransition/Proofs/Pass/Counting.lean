import ClusterTransition.Proofs.Engine.Moves
import ClusterTransition.Proofs.Graph.Course

/-! # What a pass counts

The outcome of a pass is read off its counters.  `Graph.Visited` lists what the visit of a synapse
comes to: what it does to the synapse, to the state of the dispatcher, and to the counters.  While a
synapse is fired the others see no more of it than the completions of its actions
(`Graph.Spreads`).

What was counted as fired or pending is not taken back (`Visited.grow`), and whatever executes has
been counted as pending (`Visited.running`).  So a pass that ends the transition has fired nothing
for good, and no synapse executes when it is over (`idle_of_terminal`).
-/

namespace ClusterTransition

open ClusterTransition.Graph (Edits)

/-- Some member up to `k` is the one at `k`, or one before it. -/
theorem exists_lt_succ_iff {α : Type} {l : List α} {k : Nat} {x : α} (hx : l[k]? = some x)
    {P : α → Prop} : (∃ p y, p < k + 1 ∧ l[p]? = some y ∧ P y) ↔
      (∃ p y, p < k ∧ l[p]? = some y ∧ P y) ∨ P x := by
  constructor
  · rintro ⟨p, y, hp, hy, hP⟩
    rcases Nat.lt_succ_iff_lt_or_eq.mp hp with hlt | rfl
    · exact .inl ⟨p, y, hlt, hy, hP⟩
    · rw [hx, Option.some.injEq] at hy
      exact .inr (hy ▸ hP)
  · rintro (⟨p, y, hp, hy, hP⟩ | hP)
    · exact ⟨p, y, Nat.lt_succ_of_lt hp, hy, hP⟩
    · exact ⟨k, x, Nat.lt_succ_self k, hx, hP⟩

/-! ## What the other synapses see -/

/-- A synapse with the status `s` has the status `t` once completions were spread to it. -/
def SynapseStatus.Absorbs (s t : SynapseStatus) : Prop :=
  t = s ∨ s = unfired ∧ t = ready ∨ s = executing ∧ t = confirmed

namespace SynapseStatus.Absorbs

variable {s t u : SynapseStatus}

theorem refl (s : SynapseStatus) : s.Absorbs s := .inl rfl

theorem trans (h : s.Absorbs t) (h' : t.Absorbs u) : s.Absorbs u := by
  rcases h with rfl | ⟨rfl, rfl⟩ | ⟨rfl, rfl⟩
  · exact h'
  · rcases h' with rfl | ⟨h, -⟩ | ⟨h, -⟩
    · exact .inr (.inl ⟨rfl, rfl⟩)
    · cases h
    · cases h
  · rcases h' with rfl | ⟨h, -⟩ | ⟨h, -⟩
    · exact .inr (.inr ⟨rfl, rfl⟩)
    · cases h
    · cases h

theorem waits_iff (h : s.Absorbs t) : t = unfired ∨ t = ready ↔ s = unfired ∨ s = ready := by
  rcases h with rfl | ⟨rfl, rfl⟩ | ⟨rfl, rfl⟩ <;> simp

theorem vetoed_iff (h : s.Absorbs t) : t = failed ∨ t = skipped ↔ s = failed ∨ s = skipped := by
  rcases h with rfl | ⟨rfl, rfl⟩ | ⟨rfl, rfl⟩ <;> simp

theorem failed_iff (h : s.Absorbs t) : t = failed ↔ s = failed := by
  rcases h with rfl | ⟨rfl, rfl⟩ | ⟨rfl, rfl⟩ <;> simp

theorem skipped_iff (h : s.Absorbs t) : t = .skipped ↔ s = .skipped := by
  rcases h with rfl | ⟨rfl, rfl⟩ | ⟨rfl, rfl⟩ <;> simp

theorem confirmed (h : s.Absorbs t) (hs : s = .confirmed) : t = .confirmed := by
  subst hs
  rcases h with rfl | ⟨h, -⟩ | ⟨h, -⟩
  · rfl
  · cases h
  · cases h

theorem executing (h : s.Absorbs t) (ht : t = .executing) : s = .executing := by
  subst ht
  rcases h with rfl | ⟨rfl, h⟩ | ⟨rfl, h⟩
  · rfl
  · cases h
  · cases h

end SynapseStatus.Absorbs

/-- The inputs that are marked in `s'` but not in `s` refer to actions at `slots`. -/
def Synapse.MarkedFor (slots : List Nat) (s s' : Synapse) : Prop :=
  ∀ (j : Nat) (i' : Input), s'.inputs[j]? = some i' → ∃ i, s.inputs[j]? = some i ∧
    i.slot = i'.slot ∧ (i'.satisfied = true → i.satisfied = true ∨ i.slot ∈ slots)

namespace Synapse

variable {s s' s'' : Synapse} {slots : List Nat}

theorem MarkedFor.of_eq (h : s'.inputs = s.inputs) : s.MarkedFor slots s' := by
  intro j i' hi'
  exact ⟨i', h ▸ hi', rfl, .inl⟩

theorem MarkedFor.trans (h : s.MarkedFor slots s') (h' : s'.MarkedFor slots s'') :
    s.MarkedFor slots s'' := by
  intro j i'' hi''
  obtain ⟨i', hi', hslot', hmark'⟩ := h' j i'' hi''
  obtain ⟨i, hi, hslot, hmark⟩ := h j i' hi'
  refine ⟨i, hi, hslot.trans hslot', fun hsatisfied => ?_⟩
  rcases hmark' hsatisfied with hold | hmem
  · exact hmark hold
  · exact .inr (hslot ▸ hmem)

theorem MarkedFor.mono {slots' : List Nat} (h : s.MarkedFor slots s') (hsub : slots ⊆ slots') :
    s.MarkedFor slots' s' := by
  intro j i' hi'
  obtain ⟨i, hi, hslot, hmark⟩ := h j i' hi'
  exact ⟨i, hi, hslot, fun hsatisfied => (hmark hsatisfied).imp_right fun hmem => hsub hmem⟩

theorem absorbs_absorbed (slot : Nat) (a : Action) (actions : List Action) (s : Synapse) :
    s.status.Absorbs (s.absorbed slot a actions).status := by
  have hwaits (h : s.status = .unfired ∨ s.status = .ready) :
      s.status.Absorbs (s.absorbed slot a actions).status := by
    rw [absorbed_of_waiting h]
    split
    · rcases status_satisfyInputs slot actions s with heq | heq
      · exact .inl heq
      · rcases h with h | h
        · exact .inr (.inl ⟨h, heq⟩)
        · exact .inl (heq.trans h.symm)
    · exact .refl _
  cases h : s.status with
  | unfired => exact h ▸ hwaits (.inl h)
  | ready => exact h ▸ hwaits (.inr h)
  | executing =>
    simp only [absorbed, absorb, h]
    split
    · exact .inr (.inr ⟨rfl, rfl⟩)
    · exact .inl h
  | confirmed | failed | skipped =>
    rw [absorbed_of_isSettled (by rw [h]; rfl), h]
    exact .refl _

theorem markedFor_absorbed {slot : Nat} (hslot : slot ∈ slots) (a : Action)
    (actions : List Action) (s : Synapse) : s.MarkedFor slots (s.absorbed slot a actions) := by
  have hwaits (h : s.status = .unfired ∨ s.status = .ready) :
      s.MarkedFor slots (s.absorbed slot a actions) := by
    rw [absorbed_of_waiting h]
    split
    · intro j i' hi'
      rw [inputs_satisfyInputs, List.getElem?_map] at hi'
      obtain ⟨i, hi, rfl⟩ := Option.map_eq_some_iff.mp hi'
      refine ⟨i, hi, ?_⟩
      unfold Input.satisfy
      split
      · rename_i heq
        exact ⟨rfl, fun _ => .inr (heq ▸ hslot)⟩
      · exact ⟨rfl, .inl⟩
    · exact .of_eq rfl
  cases h : s.status with
  | unfired => exact hwaits (.inl h)
  | ready => exact hwaits (.inr h)
  | executing =>
    refine .of_eq ?_
    simp only [absorbed, absorb, h]
    split <;> rfl
  | confirmed | failed | skipped =>
    rw [absorbed_of_isSettled (by rw [h]; rfl)]
    exact .of_eq rfl

end Synapse

/-- Edits do no more to the status of a synapse than to let it absorb completions. -/
theorem Graph.Edits.absorbs {id : ActionId} {g g' : Graph} (h : Edits id g g') {p : Nat}
    {s' : Synapse} (hs' : g'.synapses[p]? = some s') :
    ∃ s, g.synapses[p]? = some s ∧ s'.plan = s.plan ∧ s.status.Absorbs s'.status := by
  induction h generalizing s' with
  | refl => exact ⟨s', hs', rfl, .refl _⟩
  | tail _ step ih =>
    obtain ⟨s₁, hs₁, hstep⟩ := step.synapse hs'
    obtain ⟨s, hs, hplan, hstatus⟩ := ih hs₁
    refine ⟨s, hs, ?_⟩
    rcases hstep with rfl | ⟨k, a, -, -, -, -, rfl⟩
    · exact ⟨hplan, hstatus⟩
    · exact ⟨(Synapse.plan_absorbed ..).trans hplan,
        hstatus.trans (Synapse.absorbs_absorbed ..)⟩

namespace Graph

/-- The action at a slot has failed. -/
def FailedAt (g : Graph) (k : Nat) : Prop := ∃ reason, g.statusAt k = some (.failed reason)

/-- What is done while the synapse at `pos` hands over the actions at `slots`, as the others see it:
the completions of those actions are spread to them. -/
structure Spreads (pos : Nat) (slots : List Nat) (g g' : Graph) : Prop where
  plan : g'.plan = g.plan
  counters : g'.counters = g.counters
  failed : ∀ k, g.FailedAt k → g'.FailedAt k
  others : ∀ p s', g'.synapses[p]? = some s' → p ≠ pos →
    ∃ s, g.synapses[p]? = some s ∧ s.status.Absorbs s'.status ∧ s.MarkedFor slots s'

namespace Spreads

variable {pos : Nat} {slots : List Nat} {g g' g'' : Graph}

theorem refl (pos : Nat) (slots : List Nat) (g : Graph) : g.Spreads pos slots g :=
  ⟨rfl, rfl, fun _ h => h, fun _ s' hs' _ => ⟨s', hs', .refl _, .of_eq rfl⟩⟩

theorem trans (h : g.Spreads pos slots g') (h' : g'.Spreads pos slots g'') :
    g.Spreads pos slots g'' := by
  refine ⟨h'.plan.trans h.plan, h'.counters.trans h.counters,
    fun k hk => h'.failed k (h.failed k hk), fun p s'' hs'' hp => ?_⟩
  obtain ⟨s', hs', hstatus', hmarks'⟩ := h'.others p s'' hs'' hp
  obtain ⟨s, hs, hstatus, hmarks⟩ := h.others p s' hs' hp
  exact ⟨s, hs, hstatus.trans hstatus', hmarks.trans hmarks'⟩

theorem mono {slots' : List Nat} (h : g.Spreads pos slots g') (hsub : slots ⊆ slots') :
    g.Spreads pos slots' g' := by
  refine ⟨h.plan, h.counters, h.failed, fun p s' hs' hp => ?_⟩
  obtain ⟨s, hs, hstatus, hmarks⟩ := h.others p s' hs' hp
  exact ⟨s, hs, hstatus, hmarks.mono hsub⟩

/-- The synapse that is fired changes its status. -/
theorem setSynapseStatus (pos : Nat) (slots : List Nat) (g : Graph) (status : SynapseStatus) :
    g.Spreads pos slots (g.setSynapseStatus pos status) := by
  refine ⟨plan_setSynapseStatus .., rfl, fun _ h => h, fun p s' hs' hp => ?_⟩
  obtain ⟨s, hs, ⟨heq, -⟩ | ⟨-, rfl⟩⟩ := setSynapseStatus_cases hs'
  · exact absurd heq hp
  · exact ⟨s', hs, .refl _, .of_eq rfl⟩

theorem setStatusAt (pos : Nat) (slots : List Nat) {slot : Nat} {status : ActionStatus}
    (hfailed : g.FailedAt slot → status.isFailed) :
    g.Spreads pos slots (g.setStatusAt slot status) := by
  refine ⟨plan_setStatusAt .., rfl, fun k hk => ?_, fun p s' hs' _ =>
    ⟨s', hs', .refl _, .of_eq rfl⟩⟩
  by_cases heq : slot = k
  · subst heq
    have hset := hfailed hk
    obtain ⟨reason, hk⟩ := hk
    cases status with
    | failed reason' => exact ⟨reason', by rw [statusAt_setStatusAt, if_pos rfl, hk]; rfl⟩
    | pending | executed | confirmed => cases hset
  · obtain ⟨reason, hk⟩ := hk
    exact ⟨reason, by rw [statusAt_setStatusAt, if_neg heq, hk]⟩

/-- An action is settled, and its completion is spread. -/
theorem edits {id : ActionId} {slot : Nat} (hid : g.slotOf? id = some slot) (hslot : slot ∈ slots)
    (h : Edits id g g') : g.Spreads pos slots g' := by
  refine ⟨h.plan, h.counters, fun k ⟨reason, hk⟩ => ⟨reason, h.keeps_confirmed hk rfl⟩, ?_⟩
  intro p s' hs' _
  induction h generalizing s' with
  | refl => exact ⟨s', hs', .refl _, .of_eq rfl⟩
  | tail steps step ih =>
    obtain ⟨s₁, hs₁, hstep⟩ := step.synapse hs'
    obtain ⟨s, hs, hstatus, hmarks⟩ := ih s₁ hs₁
    refine ⟨s, hs, ?_⟩
    rcases hstep with rfl | ⟨k, a, hk, -, -, -, rfl⟩
    · exact ⟨hstatus, hmarks⟩
    · rw [slotOf?_eq_of_plan (Edits.plan steps), hid, Option.some.injEq] at hk
      subst hk
      exact ⟨hstatus.trans (Synapse.absorbs_absorbed ..),
        hmarks.trans (Synapse.markedFor_absorbed hslot a _ s₁)⟩

end Spreads

variable {σ : Type} {d : Dispatcher σ}

theorem initiateAction_spreads (hd : d.Handles) {g g' : Graph} (hw : g.WellFormed) (pos : Nat)
    {slot : Nat} {slots : List Nat} (hslot : slot ∈ slots) {st st' : σ} {ok : Bool}
    (h : initiateAction d slot g st = (ok, g', st')) : g.Spreads pos slots g' := by
  unfold initiateAction at h
  split at h
  · cases h
    exact .refl ..
  · rename_i a ha
    split at h
    · cases h
      exact .refl ..
    · rename_i hopen
      have hmark : g.Spreads pos slots (g.setStatusAt slot .executed) := by
        refine .setStatusAt pos slots fun ⟨reason, hfailed⟩ => ?_
        rw [statusAt_eq ha, Option.some.injEq] at hfailed
        rw [hfailed] at hopen
        exact absurd rfl hopen
      split at h
      · cases h
        exact hmark
      · obtain ⟨hid, -⟩ := hw.action?_setStatusAt ha .executed
        exact hmark.trans (.edits hid hslot (hd.edits h))

/-- **To the others the firing of a synapse is the completion of its actions.** -/
theorem fireActions_spreads (hd : d.Handles) {pos : Nat} {slots : List Nat} {g g' : Graph}
    (hw : g.WellFormed) {st st' : σ} {ok : Bool}
    (h : fireActions d pos slots g st = (ok, g', st')) : g.Spreads pos slots g' := by
  induction slots generalizing g st with
  | nil =>
    cases h
    exact .refl ..
  | cons slot slots ih =>
    have hslot : slot ∈ slot :: slots := List.mem_cons_self ..
    unfold fireActions at h
    split at h
    · rename_i g₁ st₁ hgo
      have hfirst := initiateAction_spreads hd hw pos hslot hgo
      exact hfirst.trans ((ih (hw.of_plan hfirst.plan) h).mono (List.subset_cons_self ..))
    · rename_i g₁ st₁ hgo
      have hfirst := initiateAction_spreads hd hw pos hslot hgo
      cases h
      exact hfirst.trans ((Spreads.setStatusAt pos _ fun _ => rfl).trans (.setSynapseStatus ..))

/-- A synapse that cannot be fired has failed. -/
theorem fireActions_failed {pos : Nat} {slots : List Nat} {g g' : Graph} {st st' : σ}
    (h : fireActions d pos slots g st = (false, g', st')) {s' : Synapse}
    (hs' : g'.synapses[pos]? = some s') : s'.status = .failed := by
  induction slots generalizing g st with
  | nil => cases h
  | cons slot slots ih =>
    unfold fireActions at h
    split at h
    · exact ih h
    · cases h
      obtain ⟨s, -, ⟨-, rfl⟩ | ⟨hne, -⟩⟩ := setSynapseStatus_cases hs'
      · rfl
      · exact absurd rfl hne

end Graph

/-! ## What a visit comes to -/

/-- What was counted as fired or pending is not taken back. -/
def PassCounters.Grow (n m : PassCounters) : Prop := n.fired ≤ m.fired ∧ n.pending ≤ m.pending

theorem PassCounters.Grow.trans {n m k : PassCounters} (h : n.Grow m) (h' : m.Grow k) : n.Grow k :=
  ⟨Nat.le_trans h.1 h'.1, Nat.le_trans h.2 h'.2⟩

namespace Graph

variable {σ : Type} {d : Dispatcher σ}

/-- A visit leaves the synapse `s` at `pos` alone, but for its status: the status that it gets, and
what is counted. -/
inductive Rests (d : Dispatcher σ) (pos : Nat) (s : Synapse) (g : Graph) (st : σ) :
    SynapseStatus → (PassCounters → PassCounters) → Prop where
  | settled (hstatus : s.status = .failed ∨ s.status = .skipped) :
      Rests d pos s g st s.status fun c => { c with skipped := c.skipped + 1 }
  /-- The synapse has fired, and has not failed. -/
  | underway (hstatus : s.status = .confirmed ∨ s.status = .executing) :
      Rests d pos s g st s.status fun c => c
  /-- An input is open. -/
  | closed (hwaits : s.Waits) (hinputs : s.inputsSatisfied g.actions = false) :
      Rests d pos s g st s.status fun c => { c with incomplete := c.incomplete + 1 }
  /-- An action may not go now. -/
  | held {slot : Nat} {a : Action} (hwaits : s.Waits) (hinputs : s.inputsSatisfied g.actions)
      (hslot : slot ∈ s.actions) (ha : g.actions[slot]? = some a) (hpseudo : a.isPseudo = false)
      (hlevel : g.abortPriority ≤ s.priority)
      (hask : (d.allowed a.id (g.setSynapseStatus pos .ready) st).1 = false) :
      Rests d pos s g st .ready fun c => { c with incomplete := c.incomplete + 1 }
  /-- An abort vetoes the synapse. -/
  | vetoed {slot : Nat} {a : Action} (hwaits : s.Waits) (hinputs : s.inputsSatisfied g.actions)
      (hslot : slot ∈ s.actions) (ha : g.actions[slot]? = some a) (hpseudo : a.isPseudo = false)
      (hlevel : s.priority < g.abortPriority) :
      Rests d pos s g st .skipped fun c =>
        { c with skipped := c.skipped + 1, incomplete := c.incomplete + 1 }

/-- What the visit of the synapse `s` at `pos` comes to. -/
inductive Visited (d : Dispatcher σ) (pos : Nat) (s : Synapse) (g : Graph) (st : σ) :
    Graph × σ → Prop where
  | rests {status : SynapseStatus} {f : PassCounters → PassCounters}
      (hrests : Rests d pos s g st status f) :
      Visited d pos s g st ((g.setSynapseStatus pos status).count f, st)
  | fired {g' : Graph} {st' : σ} (hwaits : s.Waits) (hinputs : s.inputsSatisfied g.actions)
      (hallowed : ∀ slot ∈ s.actions, ∀ a, g.actions[slot]? = some a → a.isPseudo = false →
        g.abortPriority ≤ s.priority ∧ (d.allowed a.id (g.setSynapseStatus pos .ready) st).1 = true)
      (hfire : fireSynapse d pos s.actions ((g.setSynapseStatus pos .ready).count fun c =>
        { c with fired := c.fired + 1 }) st = (true, g', st')) :
      Visited d pos s g st
        (if g'.isConfirmedAt pos then g'
          else g'.count fun c => { c with pending := c.pending + 1 }, st')
  /-- An action of the synapse could not be set going. -/
  | failed {g' : Graph} {st' : σ} (hwaits : s.Waits) (hinputs : s.inputsSatisfied g.actions)
      (hallowed : ∀ slot ∈ s.actions, ∀ a, g.actions[slot]? = some a → a.isPseudo = false →
        g.abortPriority ≤ s.priority ∧ (d.allowed a.id (g.setSynapseStatus pos .ready) st).1 = true)
      (hfire : fireSynapse d pos s.actions ((g.setSynapseStatus pos .ready).count fun c =>
        { c with fired := c.fired + 1 }) st = (false, g', st')) :
      Visited d pos s g st (g'.fireFailed, st')

/-- What handing over the actions of a synapse does, from before it is marked as ready. -/
theorem fireSynapse_spreads (hd : d.Handles) {pos : Nat} {s : Synapse} {g g' : Graph}
    (hw : g.WellFormed) {st st' : σ} {ok : Bool}
    (hfire : fireSynapse d pos s.actions ((g.setSynapseStatus pos .ready).count fun c =>
      { c with fired := c.fired + 1 }) st = (ok, g', st')) :
    (g.count fun c => { c with fired := c.fired + 1 }).Spreads pos s.actions g' := by
  have hmark : (g.count fun c => { c with fired := c.fired + 1 }).Spreads pos s.actions
      (((g.setSynapseStatus pos .ready).count fun c =>
        { c with fired := c.fired + 1 }).setSynapseStatus pos .executing) :=
    (Spreads.setSynapseStatus pos s.actions _ .ready).trans (.setSynapseStatus ..)
  exact hmark.trans (fireActions_spreads hd (hw.of_plan hmark.plan) hfire)

/-- A synapse that could not be fired has failed. -/
theorem exists_failed_of_fireSynapse (hd : d.Handles) {pos : Nat} {s : Synapse} {g g' : Graph}
    (hw : g.WellFormed) (hs : g.synapses[pos]? = some s) {st st' : σ}
    (hfire : fireSynapse d pos s.actions ((g.setSynapseStatus pos .ready).count fun c =>
      { c with fired := c.fired + 1 }) st = (false, g', st')) :
    ∃ s', g'.synapses[pos]? = some s' ∧ s'.plan = s.plan ∧ s'.status = .failed := by
  have hplan : g'.plan = g.plan := (fireSynapse_spreads hd hw hfire).plan
  obtain ⟨s', hs', hsame⟩ := synapse_of_plan hplan.symm hs
  exact ⟨s', hs', hsame.symm, fireActions_failed hfire hs'⟩

theorem setSynapseStatus_self {pos : Nat} {s : Synapse} {g : Graph}
    (hs : g.synapses[pos]? = some s) : g.setSynapseStatus pos s.status = g := by
  have hsame : (g.synapses.modify pos fun t => { t with status := s.status }) = g.synapses := by
    refine modify_of_eq fun t ht => ?_
    rw [hs, Option.some.injEq] at ht
    rw [ht]
  rw [setSynapseStatus, hsame]

theorem setSynapseStatus_twice (g : Graph) (pos : Nat) (status status' : SynapseStatus) :
    (g.setSynapseStatus pos status).setSynapseStatus pos status' =
      g.setSynapseStatus pos status' := by
  simp only [setSynapseStatus, List.modify_modify_eq]
  rfl

theorem visit_visited (hsteady : d.Steady) (hd : d.Handles) {pos : Nat} {s : Synapse} {g : Graph}
    (hw : g.WellFormed) (hs : g.synapses[pos]? = some s) (st : σ) :
    Visited d pos s g st (visit d pos s g st) := by
  have hrests {f : PassCounters → PassCounters} (h : Rests d pos s g st s.status f) :
      Visited d pos s g st (g.count f, st) := by
    have := Visited.rests h
    rwa [setSynapseStatus_self hs] at this
  by_cases hwaits : s.Waits
  · rw [visit_of_waiting hwaits]
    cases hinputs : s.inputsSatisfied g.actions with
    | false =>
      simp only [shouldFire, hinputs, Bool.false_eq_true, if_false]
      exact hrests (.closed hwaits hinputs)
    | true =>
      obtain ⟨decision, g₁, heq, hout⟩ := checkActions_outcome hsteady pos s.priority s.actions
        (g.setSynapseStatus pos .ready) st
      simp only [shouldFire, hinputs, if_true, heq]
      cases hout with
      | defer hslot ha hpseudo hlevel hask =>
        exact .rests (.held hwaits hinputs hslot ha hpseudo hlevel hask)
      | skip hslot ha hpseudo hlevel =>
        dsimp only
        rw [setSynapseStatus_twice]
        exact .rests (.vetoed hwaits hinputs hslot ha hpseudo hlevel)
      | fire hall =>
        obtain ⟨⟨ok, g', st'⟩, hfire⟩ : ∃ out, fireSynapse d pos s.actions
          ((g.setSynapseStatus pos .ready).count fun c => { c with fired := c.fired + 1 }) st =
            out := ⟨_, rfl⟩
        simp only [fireCounted, hfire]
        cases ok with
        | true => exact .fired hwaits hinputs hall hfire
        | false =>
          obtain ⟨s', hs', -, hfailed⟩ := exists_failed_of_fireSynapse hd hw hs hfire
          have hconfirmed : g'.fireFailed.isConfirmedAt pos = true := by
            simp [isConfirmedAt, fireFailed, hs', hfailed, SynapseStatus.isConfirmed]
          simp only [Bool.false_eq_true, if_false, hconfirmed, if_true]
          exact .failed hwaits hinputs hall hfire
  · unfold visit
    split
    · rename_i hstatus
      exact hrests (.settled (.inl hstatus))
    · rename_i hstatus
      exact hrests (.settled (.inr hstatus))
    · rename_i hstatus
      exact hrests (.underway (.inl hstatus))
    · rename_i hstatus
      exact hrests (.underway (.inr hstatus))
    · rename_i hstatus
      exact absurd (.inl hstatus) hwaits
    · rename_i hstatus
      exact absurd (.inr hstatus) hwaits

section Visited

variable {pos : Nat} {s : Synapse} {g : Graph} {st : σ} {out : Graph × σ}

theorem Visited.plan (hd : d.Handles) (hw : g.WellFormed) (h : Visited d pos s g st out) :
    out.1.plan = g.plan := by
  cases h with
  | rests => simp
  | fired _ _ _ hfire =>
    have hplan : _ = g.plan := (fireSynapse_spreads hd hw hfire).plan
    dsimp only
    split <;> exact hplan
  | failed _ _ _ hfire => exact (fireSynapse_spreads hd hw hfire).plan

theorem Rests.grow {status : SynapseStatus} {f : PassCounters → PassCounters}
    (h : Rests d pos s g st status f) (n : PassCounters) : n.Grow (f n) := by
  cases h <;> exact ⟨Nat.le_refl _, Nat.le_refl _⟩

/-- **What was counted as fired or pending is not taken back.** -/
theorem Visited.grow (hd : d.Handles) (hw : g.WellFormed) (h : Visited d pos s g st out) :
    g.counters.Grow out.1.counters := by
  cases h with
  | rests hrests => exact hrests.grow _
  | fired _ _ _ hfire =>
    have hcounters := (fireSynapse_spreads hd hw hfire).counters
    dsimp only
    split
    · rw [hcounters]
      exact ⟨Nat.le_succ _, Nat.le_refl _⟩
    · simp only [count, hcounters]
      exact ⟨Nat.le_succ _, Nat.le_succ _⟩
  | failed _ _ _ hfire =>
    have hcounters := (fireSynapse_spreads hd hw hfire).counters
    simp only [fireFailed, hcounters]
    exact ⟨Nat.le_refl _, Nat.le_refl _⟩

/-- What fires for good is counted as fired. -/
theorem fired_pos_of_fireSynapse {g' : Graph} {st' : σ} (hd : d.Handles) (hw : g.WellFormed)
    (hfire : fireSynapse d pos s.actions ((g.setSynapseStatus pos .ready).count fun c =>
      { c with fired := c.fired + 1 }) st = (true, g', st')) :
    0 < (if g'.isConfirmedAt pos then g'
      else g'.count fun c => { c with pending := c.pending + 1 }).counters.fired := by
  have hcounters := (fireSynapse_spreads hd hw hfire).counters
  split
  · rw [hcounters]
    exact Nat.succ_pos _
  · simp only [count, hcounters]
    exact Nat.succ_pos _

/-- The other synapses see no more of a visit than the completions of the actions of the synapse. -/
theorem Visited.others (hd : d.Handles) (hw : g.WellFormed) (h : Visited d pos s g st out) {p : Nat}
    {t' : Synapse} (ht' : out.1.synapses[p]? = some t') (hp : p ≠ pos) :
    ∃ t, g.synapses[p]? = some t ∧ t.status.Absorbs t'.status ∧ t.MarkedFor s.actions t' := by
  cases h with
  | rests =>
    obtain ⟨t, ht, ⟨heq, -⟩ | ⟨-, rfl⟩⟩ := setSynapseStatus_cases ht'
    · exact absurd heq hp
    · exact ⟨t', ht, .refl _, .of_eq rfl⟩
  | @fired g' st' _ _ _ hfire =>
    have hsame : (if g'.isConfirmedAt pos then g' else g'.count fun c =>
        { c with pending := c.pending + 1 }).synapses = g'.synapses := by split <;> rfl
    exact (fireSynapse_spreads hd hw hfire).others p t' (hsame ▸ ht') hp
  | failed _ _ _ hfire => exact (fireSynapse_spreads hd hw hfire).others p t' ht' hp

theorem Visited.absorbs_of_ne (hd : d.Handles) (hw : g.WellFormed) (h : Visited d pos s g st out)
    {p : Nat} {t t' : Synapse} (hp : p ≠ pos) (ht : g.synapses[p]? = some t)
    (ht' : out.1.synapses[p]? = some t') : t.status.Absorbs t'.status := by
  obtain ⟨t₁, ht₁, habsorbs, -⟩ := h.others hd hw ht' hp
  obtain rfl : t = t₁ := Option.some.inj (ht.symm.trans ht₁)
  exact habsorbs

end Visited

/-! ## What executes is pending -/

/-- Whatever executes has been counted as pending. -/
def Running (g : Graph) : Prop := ∀ s ∈ g.synapses, s.status = .executing → 0 < g.counters.pending

theorem Visited.running (hd : d.Handles) {pos : Nat} {s : Synapse} {g : Graph} {st : σ}
    {out : Graph × σ} (hw : g.WellFormed) (hs : g.synapses[pos]? = some s) (hg : g.Running)
    (h : Visited d pos s g st out) : out.1.Running := by
  have hgrow := (h.grow hd hw).2
  intro t' ht' hexec
  obtain ⟨p, hp⟩ := List.getElem?_of_mem ht'
  by_cases heq : p = pos
  · subst heq
    cases h with
    | rests hrests =>
      -- a visit that leaves a synapse alone does not make it execute
      obtain ⟨t, ht, ⟨-, rfl⟩ | ⟨hne, -⟩⟩ := setSynapseStatus_cases hp
      · have hbefore : s.status = .executing := by
          cases hrests with
          | settled | underway | closed => exact hexec
          | held | vetoed => cases hexec
        exact Nat.lt_of_lt_of_le (hg s (List.mem_of_getElem? hs) hbefore) hgrow
      · exact absurd rfl hne
    | @fired g' st' hwaits _ _ hfire =>
      have hsame : (if g'.isConfirmedAt p then g' else g'.count fun c =>
          { c with pending := c.pending + 1 }).synapses = g'.synapses := by split <;> rfl
      have hopen : g'.isConfirmedAt p = false := by
        simp [isConfirmedAt, hsame ▸ hp, hexec, SynapseStatus.isConfirmed]
      simp [hopen, count]
    | failed _ _ _ hfire =>
      rw [fireActions_failed hfire hp] at hexec
      cases hexec
  · obtain ⟨t, ht, habsorbs, -⟩ := h.others hd hw hp heq
    exact Nat.lt_of_lt_of_le (hg t (List.mem_of_getElem? ht) (habsorbs.executing hexec)) hgrow

/-! ## A pass -/

/-- What every visit keeps, a pass keeps. -/
theorem visitAll_induction {P : Graph → σ → Prop}
    (hvisit : ∀ pos s g st, g.synapses[pos]? = some s → P g st →
      P (visit d pos s g st).1 (visit d pos s g st).2)
    (positions : List Nat) {g : Graph} {st : σ} (h : P g st) :
    P (visitAll d positions g st).1 (visitAll d positions g st).2 := by
  induction positions generalizing g st with
  | nil => exact h
  | cons pos rest ih =>
    unfold visitAll
    split
    · exact h
    · cases hs : g.synapses[pos]? with
      | none => exact ih h
      | some s => exact ih (hvisit pos s g st hs h)

theorem visitAll_grow (hsteady : d.Steady) (hd : d.Handles) (positions : List Nat) {g : Graph}
    (hw : g.WellFormed) (st : σ) :
    g.counters.Grow (visitAll d positions g st).1.counters := by
  have hstart : g.WellFormed ∧ g.counters.Grow g.counters :=
    ⟨hw, Nat.le_refl _, Nat.le_refl _⟩
  refine (visitAll_induction (P := fun g' _ => g'.WellFormed ∧ g.counters.Grow g'.counters)
    (fun pos s g' st' hs ⟨hw', hgrow⟩ => ?_) positions hstart).2
  have hvisited := visit_visited hsteady hd hw' hs st'
  exact ⟨hw'.of_plan (hvisited.plan hd hw'), hgrow.trans (hvisited.grow hd hw')⟩

/-- **A sweep.**  If each visit that is on the way to `out` takes what holds before the synapse at
`k` to what holds after it, then this holds in the end, where all synapses have been visited or the
batch limit was reached. -/
theorem visitAll_sweep (hsteady : d.Steady) (hd : d.Handles) {P : Nat → Graph → σ → Prop}
    {out : Graph × σ} (hwf : ∀ {k g st}, P k g st → g.WellFormed)
    (hvisit : ∀ {k g st s} (later : List Nat), P k g st → g.synapses[k]? = some s →
      visitAll d later (visit d k s g st).1 (visit d k s g st).2 = out →
      P (k + 1) (visit d k s g st).1 (visit d k s g st).2)
    {k n : Nat} {g : Graph} {st : σ} (h : P k g st) (hlength : g.synapses.length = k + n)
    (hout : visitAll d (List.range' k n) g st = out) :
    ∃ k', P k' out.1 out.2 ∧ (out.1.synapses.length = k' ∨ out.1.batchFull = true) := by
  induction n generalizing k g st with
  | zero =>
    subst hout
    exact ⟨k, h, .inl hlength⟩
  | succ n ih =>
    obtain ⟨s, hs⟩ : ∃ s, g.synapses[k]? = some s :=
      ⟨_, List.getElem?_eq_getElem (by omega : k < g.synapses.length)⟩
    by_cases hfull : g.batchFull = true
    · have hstops : visitAll d (List.range' k (n + 1)) g st = (g, st) := by
        simp only [List.range'_succ, visitAll, hfull, if_true]
      rw [← hout, hstops]
      exact ⟨k, h, .inr hfull⟩
    · have hstep : visitAll d (List.range' k (n + 1)) g st =
          visitAll d (List.range' (k + 1) n) (visit d k s g st).1 (visit d k s g st).2 := by
        simp only [List.range'_succ, visitAll, hfull, Bool.false_eq_true, if_false, hs]
      rw [hstep] at hout
      have hplan := (visit_visited hsteady hd (hwf h) hs st).plan hd (hwf h)
      refine ih (hvisit _ h hs hout) ?_ hout
      rw [synapses_length_of_plan hplan]
      omega

/-- Nothing stops the visits while nothing is pending. -/
theorem batchFull_of_idle {g : Graph} (hpending : g.counters.pending = 0) :
    g.batchFull = false := by
  unfold batchFull
  rw [hpending]
  by_cases hlimit : 0 < g.batchLimit
  · simp [hlimit]
  · simp [hlimit]

/-- The sweep of a pass that ends the transition: it fires nothing for good, and no batch limit
stops it. -/
theorem visitAll_sweep_idle (hsteady : d.Steady) (hd : d.Handles) {P : Nat → Graph → σ → Prop}
    {out : Graph × σ} (hpending : out.1.counters.pending = 0) (hfired : out.1.counters.fired = 0)
    (hwf : ∀ {k g st}, P k g st → g.WellFormed)
    (hvisit : ∀ {k g st s}, P k g st → g.synapses[k]? = some s →
      (visit d k s g st).1.counters.fired = 0 →
      P (k + 1) (visit d k s g st).1 (visit d k s g st).2)
    {n : Nat} {g : Graph} {st : σ} (h : P 0 g st) (hlength : g.synapses.length = n)
    (hout : visitAll d (List.range n) g st = out) : P out.1.synapses.length out.1 out.2 := by
  rw [List.range_eq_range'] at hout
  have hkept {k : Nat} {g : Graph} {st : σ} {s : Synapse} (later : List Nat) (h : P k g st)
      (hs : g.synapses[k]? = some s)
      (hlater : visitAll d later (visit d k s g st).1 (visit d k s g st).2 = out) :
      P (k + 1) (visit d k s g st).1 (visit d k s g st).2 := by
    have hplan := (visit_visited hsteady hd (hwf h) hs st).plan hd (hwf h)
    have hgrow := visitAll_grow hsteady hd later ((hwf h).of_plan hplan) (visit d k s g st).2
    rw [hlater, PassCounters.Grow, hfired] at hgrow
    exact hvisit h hs (Nat.le_zero.mp hgrow.1)
  obtain ⟨k, hend, rfl | hfull⟩ :=
    visitAll_sweep hsteady hd hwf hkept h (hlength.trans (Nat.zero_add n).symm) hout
  · exact hend
  · rw [batchFull_of_idle hpending] at hfull
    cases hfull

/-- A pass ends the transition if it has fired nothing and left nothing outstanding. -/
theorem classify_isTerminal_iff {g : Graph} :
    g.classify.isTerminal = true ↔ g.counters.pending = 0 ∧ g.counters.fired = 0 := by
  simp only [classify]
  split
  · rename_i h
    simp only [h, and_self, iff_true]
    split
    · rfl
    · split <;> rfl
  · rename_i h
    simp only [h, iff_false]
    split <;> simp [PassResult.isTerminal]

/-- The outcome of a pass that ends the transition. -/
theorem classify_of_idle {g : Graph} (hpending : g.counters.pending = 0)
    (hfired : g.counters.fired = 0) :
    g.classify =
      if g.counters.incomplete ≠ 0 ∧ g.abortPriority ≤ 0 then .terminated
      else if g.counters.skipped ≠ 0 then .stopped else .complete := by
  simp only [classify, hpending, hfired, and_self, if_true]

/-- A pass is its visits, and what follows from them. -/
theorem run_of_visits {g g' : Graph} {st st' : σ}
    (h : visitAll d (List.range g.synapses.length) g.started st = (g', st')) :
    g.run d st =
      (g'.classify, { g' with complete := g'.complete || g'.classify.isTerminal }, st') := by
  unfold started at h
  simp only [run, h]

theorem running_started (g : Graph) : g.started.Running := by
  intro s hs hexec
  exact List.countP_pos_iff.mpr ⟨s, hs, by simpa using hexec⟩

/-- **No synapse executes when a pass has ended the transition.** -/
theorem idle_of_terminal (hsteady : d.Steady) (hd : d.Handles) {g : Graph} (hw : g.WellFormed)
    {st : σ} (hterminal : (g.run d st).1.isTerminal) :
    ∀ s ∈ (g.run d st).2.1.synapses, s.status ≠ .executing := by
  intro s hs hexec
  have hstart : g.started.WellFormed ∧ g.started.Running := ⟨hw.of_plan rfl, running_started g⟩
  have hvisit (pos : Nat) (s : Synapse) (g' : Graph) (st' : σ) (hs : g'.synapses[pos]? = some s)
      (hg' : g'.WellFormed ∧ g'.Running) :
      (visit d pos s g' st').1.WellFormed ∧ (visit d pos s g' st').1.Running := by
    obtain ⟨hw', hrunning⟩ := hg'
    have hvisited := visit_visited hsteady hd hw' hs st'
    exact ⟨hw'.of_plan (hvisited.plan hd hw'), hvisited.running hd hw' hs hrunning⟩
  obtain ⟨-, hend⟩ := visitAll_induction (P := fun g' _ => g'.WellFormed ∧ g'.Running) hvisit
    (List.range g.synapses.length) hstart
  exact absurd (classify_isTerminal_iff.mp hterminal).1 (Nat.ne_of_gt (hend s hs hexec))

end Graph
end ClusterTransition
