import ClusterTransition.Proofs.Pass.Counting

/-! # What executes at each moment of a pass

A pass compares a counter with the batch limit before it visits a synapse.  It sets the counter when
it begins, and from then on only adds to it, while the handlers that it calls confirm synapses or
fail them.  So the counter may be too high, but it is never too low: at most one synapse executes
that was not counted yet, the one that is being fired (`Graph.WhileVisiting.within`).

The moments are those of the recursion itself.  `Graph.WhileFiring` and `Graph.WhileVisiting` have
one constructor for each place in it at which the graph has changed, also in the middle of a call of
a handler.
-/

namespace ClusterTransition

open ClusterTransition.Graph (Edits)

/-! ## Moments -/

namespace Graph

variable {σ : Type}

/-- The graph is `m` at some moment while the synapse at `pos` hands over the actions at the given
slots. -/
inductive WhileFiring (d : Dispatcher σ) (pos : Nat) : List Nat → Graph → σ → Graph → Prop where
  | start (slots : List Nat) (g : Graph) (st : σ) : WhileFiring d pos slots g st g
  /-- The dispatcher is at work for the action that it was handed. -/
  | working {slot : Nat} {slots : List Nat} {g m : Graph} {st : σ} {a : Action} {channel : Channel}
      (ha : g.actions[slot]? = some a) (hopen : a.status.isExecuted = false)
      (hchannel : a.channel? = some channel) (hdone : Edits a.id (g.setStatusAt slot .executed) m)
      (hleft : Edits a.id m (d.dispatch channel a.id (g.setStatusAt slot .executed) st).2.1) :
      WhileFiring d pos (slot :: slots) g st m
  | later {slot : Nat} {slots : List Nat} {g g' m : Graph} {st st' : σ}
      (hgoes : initiateAction d slot g st = (true, g', st'))
      (h : WhileFiring d pos slots g' st' m) : WhileFiring d pos (slot :: slots) g st m
  /-- The action could not be set going. -/
  | failed {slot : Nat} {slots : List Nat} {g g' : Graph} {st st' : σ}
      (hstays : initiateAction d slot g st = (false, g', st')) :
      WhileFiring d pos (slot :: slots) g st
        ((g'.setStatusAt slot (.failed .initiation)).setSynapseStatus pos .failed)

/-- The graph is `m` at some moment while a pass visits the synapses at the given positions. -/
inductive WhileVisiting (d : Dispatcher σ) : List Nat → Graph → σ → Graph → Prop where
  | start (positions : List Nat) (g : Graph) (st : σ) : WhileVisiting d positions g st g
  /-- The synapse is marked as ready, and its actions are asked for. -/
  | asking {pos : Nat} {rest : List Nat} {g : Graph} {st : σ} {s : Synapse}
      (hopen : g.batchFull = false) (hs : g.synapses[pos]? = some s) (hwaits : s.Waits) :
      WhileVisiting d (pos :: rest) g st (g.setSynapseStatus pos .ready)
  | asked {pos : Nat} {rest : List Nat} {g : Graph} {st : σ} {s : Synapse}
      (hopen : g.batchFull = false) (hs : g.synapses[pos]? = some s) (hwaits : s.Waits) :
      WhileVisiting d (pos :: rest) g st (shouldFire d pos s g st).2.1
  | firing {pos : Nat} {rest : List Nat} {g g' m : Graph} {st st' : σ} {s : Synapse}
      (hopen : g.batchFull = false) (hs : g.synapses[pos]? = some s) (hwaits : s.Waits)
      (hfires : shouldFire d pos s g st = (.fire, g', st'))
      (h : WhileFiring d pos s.actions
        ((g'.count fun c => { c with fired := c.fired + 1 }).setSynapseStatus pos .executing)
        st' m) : WhileVisiting d (pos :: rest) g st m
  | later {pos : Nat} {rest : List Nat} {g m : Graph} {st : σ} {s : Synapse}
      (hopen : g.batchFull = false) (hs : g.synapses[pos]? = some s)
      (h : WhileVisiting d rest (visit d pos s g st).1 (visit d pos s g st).2 m) :
      WhileVisiting d (pos :: rest) g st m
  | missing {pos : Nat} {rest : List Nat} {g m : Graph} {st : σ} (hopen : g.batchFull = false)
      (hs : g.synapses[pos]? = none) (h : WhileVisiting d rest g st m) :
      WhileVisiting d (pos :: rest) g st m

/-- The graph is `m` at some moment of the pass. -/
def WhileRunning (d : Dispatcher σ) (g : Graph) (st : σ) (m : Graph) : Prop :=
  m = g ∨ WhileVisiting d (List.range g.synapses.length) g.started st m ∨ m = (g.run d st).2.1

/-- The last moment of the visits. -/
theorem whileVisiting_end (d : Dispatcher σ) (positions : List Nat) (g : Graph) (st : σ) :
    WhileVisiting d positions g st (visitAll d positions g st).1 := by
  induction positions generalizing g st with
  | nil => exact .start ..
  | cons pos rest ih =>
    simp only [visitAll]
    split
    · exact .start ..
    · rename_i hfull
      have hopen := Bool.eq_false_iff.mpr hfull
      split
      · rename_i hs
        exact .missing hopen hs (ih g st)
      · rename_i s hs
        exact .later hopen hs (ih _ _)

/-! ## How many synapses execute -/

/-- How many synapses execute. -/
def executing (g : Graph) : Nat := g.synapses.countP (·.status = .executing)

/-- Whatever executes in `g'` executes in `g`. -/
structure Calms (g g' : Graph) : Prop where
  length : g'.synapses.length = g.synapses.length
  synapses : ∀ (p : Nat) (s' : Synapse), g'.synapses[p]? = some s' → s'.status = .executing →
    ∃ s, g.synapses[p]? = some s ∧ s.status = .executing

theorem countP_le_of_getElem? {α : Type} {q : α → Bool} {l l' : List α}
    (hlength : l'.length = l.length)
    (h : ∀ (p : Nat) (b : α), l'[p]? = some b → q b → ∃ a, l[p]? = some a ∧ q a) :
    l'.countP q ≤ l.countP q := by
  induction l' generalizing l with
  | nil => exact Nat.zero_le _
  | cons b l' ih =>
    cases l with
    | nil => cases hlength
    | cons a l =>
      have htail := ih (Nat.succ.inj hlength) fun p c hc hq => h (p + 1) c hc hq
      have hhead : q b → q a := by
        intro hb
        obtain ⟨a', ha', hq⟩ := h 0 b rfl hb
        rwa [Option.some.inj ha']
      simp only [List.countP_cons]
      by_cases hb : q b
      · rw [if_pos hb, if_pos (hhead hb)]
        omega
      · rw [if_neg hb]
        omega

theorem countP_modify_le {α : Type} (q : α → Bool) (f : α → α) (l : List α) (pos : Nat) :
    (l.modify pos f).countP q ≤ l.countP q + 1 := by
  induction l generalizing pos with
  | nil => simp
  | cons a l ih =>
    cases pos with
    | zero =>
      simp only [List.modify_zero_cons, List.countP_cons]
      split <;> omega
    | succ pos =>
      simp only [List.modify_succ_cons, List.countP_cons]
      have := ih pos
      omega

variable {g g' g'' m : Graph} {pos : Nat}

theorem Calms.executing_le (h : g.Calms g') : g'.executing ≤ g.executing := by
  refine countP_le_of_getElem? h.length fun p s' hs' hexec => ?_
  obtain ⟨s, hs, hstatus⟩ := h.synapses p s' hs' (by simpa using hexec)
  exact ⟨s, hs, by simpa using hstatus⟩

theorem executing_setSynapseStatus_le (g : Graph) (pos : Nat) (status : SynapseStatus) :
    (g.setSynapseStatus pos status).executing ≤ g.executing + 1 :=
  countP_modify_le ..

theorem Calms.of_eq (h : g'.synapses = g.synapses) : g.Calms g' :=
  ⟨congrArg List.length h, fun _ s' hs' hexec => ⟨s', h ▸ hs', hexec⟩⟩

theorem Calms.refl (g : Graph) : g.Calms g := .of_eq rfl

theorem Calms.trans (h : g.Calms g') (h' : g'.Calms g'') : g.Calms g'' := by
  refine ⟨h'.length.trans h.length, fun p s'' hs'' hexec => ?_⟩
  obtain ⟨s', hs', hexec'⟩ := h'.synapses p s'' hs'' hexec
  exact h.synapses p s' hs' hexec'

theorem Calms.setSynapseStatus (g : Graph) {pos : Nat} {status : SynapseStatus}
    (hstatus : status = .executing → ∀ s, g.synapses[pos]? = some s → s.status = .executing) :
    g.Calms (g.setSynapseStatus pos status) := by
  refine ⟨by simp [Graph.setSynapseStatus], fun p s' hs' hexec => ?_⟩
  obtain ⟨s, hs, ⟨rfl, rfl⟩ | ⟨-, rfl⟩⟩ := setSynapseStatus_cases hs'
  · exact ⟨s, hs, hstatus hexec s hs⟩
  · exact ⟨s', hs, hexec⟩

/-- Completions do not make a synapse execute. -/
theorem Calms.edits {id : ActionId} (h : Edits id g g') : g.Calms g' := by
  refine ⟨synapses_length_of_plan h.plan, fun p s' hs' hexec => ?_⟩
  obtain ⟨s, hs, -, hstatus⟩ := Edits.absorbs h hs'
  exact ⟨s, hs, hstatus.executing hexec⟩

/-- Only the synapse at `pos` may have begun to execute. -/
theorem executing_le_succ (hlength : g'.synapses.length = g.synapses.length)
    (hothers : ∀ (p : Nat) (s' : Synapse), g'.synapses[p]? = some s' → p ≠ pos →
      s'.status = .executing → ∃ s, g.synapses[p]? = some s ∧ s.status = .executing) :
    g'.executing ≤ g.executing + 1 := by
  refine Nat.le_trans ?_ (executing_setSynapseStatus_le g pos .executing)
  refine Calms.executing_le ⟨by simp [Graph.setSynapseStatus, hlength], fun p s' hs' hexec => ?_⟩
  by_cases hp : p = pos
  · subst hp
    obtain ⟨hlt, -⟩ := List.getElem?_eq_some_iff.mp hs'
    have hs := List.getElem?_eq_getElem (hlength ▸ hlt : p < g.synapses.length)
    exact ⟨_, setSynapseStatus_getElem? hs .executing, rfl⟩
  · obtain ⟨s, hs, hstatus⟩ := hothers p s' hs' hp hexec
    exact ⟨s, by simp [Graph.setSynapseStatus, Ne.symm hp, hs], hstatus⟩

section Firing

variable {d : Dispatcher σ} {slot : Nat} {slots : List Nat} {st st' : σ} {ok : Bool}

theorem initiateAction_calms (hd : d.Handles) (h : initiateAction d slot g st = (ok, g', st')) :
    g.Calms g' := by
  unfold initiateAction at h
  split at h
  · cases h
    exact .refl g
  · split at h
    · cases h
      exact .refl g
    · have hmark : g.Calms (g.setStatusAt slot .executed) := .of_eq rfl
      split at h
      · cases h
        exact hmark
      · exact hmark.trans (.edits (hd.edits h))

/-- **While a synapse is fired no other begins to execute.** -/
theorem WhileFiring.calms (hd : d.Handles) (h : WhileFiring d pos slots g st m) : g.Calms m := by
  induction h with
  | start => exact .refl _
  | working _ _ _ hdone =>
    exact (Calms.of_eq (synapses_setStatusAt ..)).trans (.edits hdone)
  | later hgoes _ ih => exact (initiateAction_calms hd hgoes).trans ih
  | @failed slot _ _ g' _ _ hstays =>
    have hmark : g'.Calms (g'.setStatusAt slot (.failed .initiation)) := .of_eq rfl
    have hset : (g'.setStatusAt slot (.failed .initiation)).Calms
        ((g'.setStatusAt slot (.failed .initiation)).setSynapseStatus pos .failed) :=
      .setSynapseStatus _ (by simp)
    exact (initiateAction_calms hd hstays).trans (hmark.trans hset)

end Firing

/-! ## The batch limit -/

/-- Whatever executes was counted as pending, and no more executes than the batch limit allows. -/
structure Batched (g : Graph) : Prop where
  wellFormed : g.WellFormed
  counted : g.executing ≤ g.counters.pending
  within : 0 < g.batchLimit → (g.executing : Int) ≤ g.batchLimit

theorem batchLimit_of_plan (h : g'.plan = g.plan) : g'.batchLimit = g.batchLimit :=
  show g'.plan.batchLimit = g.plan.batchLimit from congrArg Graph.batchLimit h

/-- There is room for one more. -/
theorem pending_lt_of_not_batchFull (hopen : g.batchFull = false) (hlimit : 0 < g.batchLimit) :
    (g.counters.pending : Int) < g.batchLimit := by
  simp only [batchFull, hlimit, decide_true, Bool.true_and, decide_eq_false_iff_not] at hopen
  omega

section Visit

variable {d : Dispatcher σ} {s : Synapse} {st : σ} {out : Graph × σ}

/-- A visit that leaves a synapse alone does not make it execute. -/
theorem Rests.calms (hs : g.synapses[pos]? = some s) {status : SynapseStatus}
    {f : PassCounters → PassCounters} (h : Rests d pos s g st status f) :
    g.Calms (g.setSynapseStatus pos status) := by
  refine .setSynapseStatus g fun hexec t ht => ?_
  obtain rfl : s = t := Option.some.inj (hs.symm.trans ht)
  cases h with
  | settled | underway | closed => exact hexec
  | held | vetoed => cases hexec

/-- **What a visit makes execute it counts as pending**, and it is at most one synapse. -/
theorem Visited.counted (hd : d.Handles) (hw : g.WellFormed) (hs : g.synapses[pos]? = some s)
    (hg : g.executing ≤ g.counters.pending) (h : Visited d pos s g st out) :
    out.1.executing ≤ out.1.counters.pending ∧ out.1.executing ≤ g.executing + 1 := by
  have hlength := synapses_length_of_plan (h.plan hd hw)
  have hothers : ∀ (p : Nat) (t' : Synapse), out.1.synapses[p]? = some t' → p ≠ pos →
      t'.status = .executing → ∃ t, g.synapses[p]? = some t ∧ t.status = .executing := by
    intro p t' ht' hp hexec
    obtain ⟨t, ht, habsorbs, -⟩ := h.others hd hw ht' hp
    exact ⟨t, ht, habsorbs.executing hexec⟩
  have hsucc := executing_le_succ hlength hothers
  have hpending := (h.grow hd hw).2
  refine ⟨?_, hsucc⟩
  -- if the synapse itself does not execute, nothing does that did not before
  have hcalm (hself : ∀ t', out.1.synapses[pos]? = some t' → t'.status ≠ .executing) :
      out.1.executing ≤ out.1.counters.pending := by
    have hcalms : g.Calms out.1 := by
      refine ⟨hlength, fun p t' ht' hexec => hothers p t' ht' ?_ hexec⟩
      rintro rfl
      exact hself t' ht' hexec
    have := hcalms.executing_le
    omega
  cases h with
  | rests hrests =>
    have hcalms := (hrests.calms hs).executing_le
    exact Nat.le_trans hcalms (Nat.le_trans hg hpending)
  | @fired g' st' _ _ _ hfire =>
    have hcounters := (fireSynapse_spreads hd hw hfire).counters
    by_cases hconfirmed : g'.isConfirmedAt pos
    · refine hcalm fun t' ht' hexec => ?_
      simp only [hconfirmed, if_true] at ht'
      simp [isConfirmedAt, ht', hexec, SynapseStatus.isConfirmed] at hconfirmed
    · simp only [hconfirmed, Bool.false_eq_true, if_false] at hsucc ⊢
      simp only [count, hcounters] at hsucc ⊢
      omega
  | failed _ _ _ hfire =>
    refine hcalm fun t' ht' hexec => ?_
    rw [fireActions_failed hfire ht'] at hexec
    cases hexec

/-- A visit below the batch limit keeps to it. -/
theorem Batched.visit (hsteady : d.Steady) (hd : d.Handles) (hg : g.Batched)
    (hopen : g.batchFull = false) (hs : g.synapses[pos]? = some s) (st : σ) :
    (visit d pos s g st).1.Batched := by
  have hvisited := visit_visited hsteady hd hg.wellFormed hs st
  have hplan := hvisited.plan hd hg.wellFormed
  obtain ⟨hcounted, hsucc⟩ := hvisited.counted hd hg.wellFormed hs hg.counted
  refine ⟨hg.wellFormed.of_plan hplan, hcounted, fun hlimit => ?_⟩
  rw [batchLimit_of_plan hplan] at hlimit ⊢
  have hroom := pending_lt_of_not_batchFull hopen hlimit
  have hbefore := hg.counted
  omega

/-- What a synapse is asked does not make it execute. -/
theorem shouldFire_calms (hsteady : d.Steady) (pos : Nat) (s : Synapse) (g : Graph) (st : σ) :
    g.Calms (shouldFire d pos s g st).2.1 := by
  simp only [shouldFire]
  split
  · obtain ⟨decision, g', heq, hout⟩ :=
      checkActions_outcome hsteady pos s.priority s.actions (g.setSynapseStatus pos .ready) st
    have hready : g.Calms (g.setSynapseStatus pos .ready) := .setSynapseStatus g (by simp)
    rw [heq]
    cases hout with
    | fire | defer => exact hready
    | skip => exact hready.trans (.setSynapseStatus _ (by simp))
  · exact .refl g

/-- **At every moment of the visits no more synapses execute than the batch limit allows.** -/
theorem WhileVisiting.within (hsteady : d.Steady) (hd : d.Handles) {positions : List Nat}
    (h : WhileVisiting d positions g st m) (hg : g.Batched) (hlimit : 0 < g.batchLimit) :
    (m.executing : Int) ≤ g.batchLimit := by
  have hcalm {g m : Graph} (hg : g.Batched) (hlimit : 0 < g.batchLimit) (hcalms : g.Calms m) :
      (m.executing : Int) ≤ g.batchLimit := by
    have := hg.within hlimit
    have := hcalms.executing_le
    omega
  induction h with
  | start => exact hg.within hlimit
  | asking => exact hcalm hg hlimit (.setSynapseStatus _ (by simp))
  | asked => exact hcalm hg hlimit (shouldFire_calms hsteady ..)
  | @firing pos _ g g' m st st' s hopen hs hwaits hfires hm =>
    -- the synapse that is being fired is the one that was not counted yet
    have hasked := shouldFire_calms hsteady pos s g st
    rw [hfires] at hasked
    have hmoment := (WhileFiring.calms hd hm).executing_le
    have hone := executing_setSynapseStatus_le
      (g'.count fun c => { c with fired := c.fired + 1 }) pos .executing
    have hsame : (g'.count fun c => { c with fired := c.fired + 1 }).executing = g'.executing := rfl
    have hbefore := hasked.executing_le
    have hcounted := hg.counted
    have hroom := pending_lt_of_not_batchFull hopen hlimit
    dsimp only at hbefore
    omega
  | @later pos _ g _ st s hopen hs _ ih =>
    have hplan := (visit_visited hsteady hd hg.wellFormed hs st).plan hd hg.wellFormed
    have hsame := batchLimit_of_plan hplan
    have hlater := ih (hg.visit hsteady hd hopen hs st) (hsame ▸ hlimit)
    rwa [hsame] at hlater
  | missing _ _ _ ih => exact ih hg hlimit

/-- **At every moment of a pass.** -/
theorem WhileRunning.within (hsteady : d.Steady) (hd : d.Handles) (h : WhileRunning d g st m)
    (hw : g.WellFormed) (hlimit : 0 < g.batchLimit) (hg : (g.executing : Int) ≤ g.batchLimit) :
    (m.executing : Int) ≤ g.batchLimit := by
  have hstart : g.started.Batched := ⟨hw.of_plan rfl, Nat.le_refl _, fun _ => hg⟩
  rcases h with rfl | h | rfl
  · exact hg
  · have hmoment := h.within hsteady hd hstart hlimit
    exact hmoment
  · have hend := whileVisiting_end d (List.range g.synapses.length) g.started st
    have hmoment := hend.within hsteady hd hstart hlimit
    rw [run_of_visits rfl]
    exact hmoment

end Visit

end Graph
end ClusterTransition
