import ClusterTransition.Graph.Pass
import Mathlib.Logic.Relation

/-! # A pass, step by step

A pass stands either between two synapses or in the middle of firing one.  `PassStep` lists all it
can do from there: change the counters, mark a synapse ready or skipped, begin to fire one, hand
over the next action of the synapse it fires, fail that synapse, and finish firing.  Each step
carries the conditions under which the pass takes it.

`run_steps` says that every pass is a sequence of such steps.  What each step keeps, each pass
keeps (`Graph.run_induction`), so an invariant of passes is one case analysis over `PassStep`.
This holds for the dispatchers that do not change their state when they are only asked whether an
action may go.
-/

namespace ClusterTransition

variable {σ : Type}

/-- Asking whether an action may go changes nothing. -/
def Dispatcher.Steady (d : Dispatcher σ) : Prop := ∀ id g st, (d.allowed id g st).2 = st

/-- Where a pass stands: between two synapses, or firing the one at `pos` with the actions at
`slots` still to be handed over. -/
inductive PassStage where
  | visiting
  | firing (pos : Nat) (slots : List Nat)

/-- The slots that are still to be handed over. -/
def PassStage.rest : PassStage → List Nat
  | .visiting => []
  | .firing _ slots => slots

/-- A pass under way. -/
structure PassState (σ : Type) where
  stage : PassStage
  graph : Graph
  state : σ

namespace Graph

/-- The graph after the action at `slot` could not be set going: the action fails, the synapse at
`pos` fails with it, and everything below infinity is vetoed. -/
def failFiring (g : Graph) (pos slot : Nat) : Graph :=
  ((g.setStatusAt slot (.failed .initiation)).setSynapseStatus pos .failed).fireFailed

/-- The graph with which a pass begins its visits. -/
def started (g : Graph) : Graph := { g with counters := g.startCounters }

end Graph

open ClusterTransition.Graph

/-- One step of a pass. -/
inductive PassStep (d : Dispatcher σ) : PassState σ → PassState σ → Prop where
  | count (g : Graph) (st : σ) (f : PassCounters → PassCounters) :
      PassStep d ⟨.visiting, g, st⟩ ⟨.visiting, g.count f, st⟩
  /-- A synapse whose inputs are satisfied is marked ready. -/
  | ready {g : Graph} (st : σ) {pos : Nat} {s : Synapse} (hs : g.synapses[pos]? = some s)
      (hwaits : s.status = .unfired ∨ s.status = .ready)
      (hinputs : s.inputsSatisfied g.actions) :
      PassStep d ⟨.visiting, g, st⟩ ⟨.visiting, g.setSynapseStatus pos .ready, st⟩
  /-- A ready synapse below the abort level that owns more than markers is vetoed. -/
  | skip {g : Graph} (st : σ) {pos slot : Nat} {s : Synapse} {a : Action}
      (hs : g.synapses[pos]? = some s) (hready : s.status = .ready) (hslot : slot ∈ s.actions)
      (ha : g.actions[slot]? = some a) (hpseudo : a.isPseudo = false)
      (hlevel : s.priority < g.abortPriority) :
      PassStep d ⟨.visiting, g, st⟩ ⟨.visiting, g.setSynapseStatus pos .skipped, st⟩
  /-- A ready synapse fires if each of its actions that is not a marker may go. -/
  | fire {g : Graph} (st : σ) {pos : Nat} {s : Synapse} (hs : g.synapses[pos]? = some s)
      (hready : s.status = .ready) (hinputs : s.inputsSatisfied g.actions)
      (hallowed : ∀ slot ∈ s.actions, ∀ a, g.actions[slot]? = some a → a.isPseudo = false →
        g.abortPriority ≤ s.priority ∧ (d.allowed a.id g st).1 = true) :
      PassStep d ⟨.visiting, g, st⟩
        ⟨.firing pos s.actions,
          (g.count fun c => { c with fired := c.fired + 1 }).setSynapseStatus pos .executing, st⟩
  /-- A pending action is handed over and set going. -/
  | dispatch {g g' : Graph} {st st' : σ} (pos : Nat) {slot : Nat} (slots : List Nat) {a : Action}
      {channel : Channel} (ha : g.actions[slot]? = some a) (hpending : a.status = .pending)
      (hchannel : a.channel? = some channel)
      (hgoes : d.dispatch channel a.id (g.setStatusAt slot .executed) st = (true, g', st')) :
      PassStep d ⟨.firing pos (slot :: slots), g, st⟩ ⟨.firing pos slots, g', st'⟩
  /-- A pending action is handed over, but cannot be set going. -/
  | refuse {g g' : Graph} {st st' : σ} (pos : Nat) {slot : Nat} (slots : List Nat) {a : Action}
      {channel : Channel} (ha : g.actions[slot]? = some a) (hpending : a.status = .pending)
      (hchannel : a.channel? = some channel)
      (hstays : d.dispatch channel a.id (g.setStatusAt slot .executed) st = (false, g', st')) :
      PassStep d ⟨.firing pos (slot :: slots), g, st⟩ ⟨.visiting, g'.failFiring pos slot, st'⟩
  /-- There is no way to carry out a pending action. -/
  | unroutable {g : Graph} (st : σ) (pos : Nat) {slot : Nat} (slots : List Nat) {a : Action}
      (ha : g.actions[slot]? = some a) (hpending : a.status = .pending)
      (hchannel : a.channel? = none) :
      PassStep d ⟨.firing pos (slot :: slots), g, st⟩
        ⟨.visiting, (g.setStatusAt slot .executed).failFiring pos slot, st⟩
  /-- An action that is not pending is not handed over again. -/
  | again {g : Graph} (st : σ) (pos : Nat) {slot : Nat} (slots : List Nat)
      (hslot : ∀ a, g.actions[slot]? = some a → a.status.isExecuted) :
      PassStep d ⟨.firing pos (slot :: slots), g, st⟩ ⟨.visiting, g.failFiring pos slot, st⟩
  | fired (g : Graph) (st : σ) (pos : Nat) :
      PassStep d ⟨.firing pos [], g, st⟩ ⟨.visiting, g, st⟩
  | conclude (g : Graph) (st : σ) (complete : Bool) :
      PassStep d ⟨.visiting, g, st⟩ ⟨.visiting, { g with complete }, st⟩

/-- Several steps of a pass. -/
abbrev PassSteps (d : Dispatcher σ) : PassState σ → PassState σ → Prop :=
  Relation.ReflTransGen (PassStep d)

namespace Graph

variable {d : Dispatcher σ}

/-! ## Asking whether a synapse fires -/

theorem isExecuted_eq_false_iff {status : ActionStatus} :
    status.isExecuted = false ↔ status = .pending := by
  cases status <;> simp [ActionStatus.isExecuted]

/-- What the questions about the actions at `slots` come to: the decision, and the graph after
it. -/
inductive CheckOutcome (d : Dispatcher σ) (pos : Nat) (priority : Int) (slots : List Nat)
    (g : Graph) (st : σ) : FireDecision → Graph → Prop where
  | fire (hall : ∀ slot ∈ slots, ∀ a, g.actions[slot]? = some a → a.isPseudo = false →
      g.abortPriority ≤ priority ∧ (d.allowed a.id g st).1 = true) :
      CheckOutcome d pos priority slots g st .fire g
  | defer {slot : Nat} {a : Action} (hslot : slot ∈ slots) (ha : g.actions[slot]? = some a)
      (hpseudo : a.isPseudo = false) (hlevel : g.abortPriority ≤ priority)
      (hask : (d.allowed a.id g st).1 = false) :
      CheckOutcome d pos priority slots g st .defer g
  | skip {slot : Nat} {a : Action} (hslot : slot ∈ slots) (ha : g.actions[slot]? = some a)
      (hpseudo : a.isPseudo = false) (hlevel : priority < g.abortPriority) :
      CheckOutcome d pos priority slots g st .skip (g.setSynapseStatus pos .skipped)

/-- An action that may go leaves the decision to the others. -/
theorem CheckOutcome.cons {pos slot : Nat} {priority : Int} {slots : List Nat} {g g' : Graph}
    {st : σ} {decision : FireDecision} (h : CheckOutcome d pos priority slots g st decision g')
    (hfirst : ∀ a, g.actions[slot]? = some a → a.isPseudo = false →
      g.abortPriority ≤ priority ∧ (d.allowed a.id g st).1 = true) :
    CheckOutcome d pos priority (slot :: slots) g st decision g' := by
  cases h with
  | fire hall =>
    refine .fire fun k hk => ?_
    rcases List.mem_cons.mp hk with rfl | hk
    · exact hfirst
    · exact hall k hk
  | defer hslot ha hp hl hask => exact .defer (List.mem_cons_of_mem _ hslot) ha hp hl hask
  | skip hslot ha hp hl => exact .skip (List.mem_cons_of_mem _ hslot) ha hp hl

theorem checkActions_outcome (hd : d.Steady) (pos : Nat) (priority : Int) (slots : List Nat)
    (g : Graph) (st : σ) :
    ∃ decision g', checkActions d pos priority slots g st = (decision, g', st) ∧
      CheckOutcome d pos priority slots g st decision g' := by
  induction slots with
  | nil => exact ⟨.fire, g, rfl, .fire (by simp)⟩
  | cons slot slots ih =>
    obtain ⟨decision, g', heq, hout⟩ := ih
    cases ha : g.actions[slot]? with
    | none =>
      exact ⟨decision, g', by simp only [checkActions, ha, heq], hout.cons (by simp [ha])⟩
    | some a =>
      have hfirst {P : Action → Prop} (h : P a) : ∀ b, g.actions[slot]? = some b → P b := by
        intro b hb
        rw [ha, Option.some.injEq] at hb
        exact hb ▸ h
      cases hp : a.isPseudo with
      | true =>
        refine ⟨decision, g', by simp [checkActions, ha, hp, heq], hout.cons ?_⟩
        exact hfirst (by simp [hp])
      | false =>
        by_cases hlevel : priority < g.abortPriority
        · exact ⟨.skip, _, by simp [checkActions, ha, hp, hlevel],
            .skip (List.mem_cons_self ..) ha hp hlevel⟩
        · have hst : (d.allowed a.id g st).2 = st := hd a.id g st
          cases hask : (d.allowed a.id g st).1 with
          | true =>
            have hpair : d.allowed a.id g st = (true, st) := Prod.ext hask hst
            refine ⟨decision, g', by simp [checkActions, ha, hp, hlevel, hpair, heq],
              hout.cons (hfirst fun _ => ⟨by omega, hask⟩)⟩
          | false =>
            have hpair : d.allowed a.id g st = (false, st) := Prod.ext hask hst
            exact ⟨.defer, g, by simp [checkActions, ha, hp, hlevel, hpair],
              .defer (List.mem_cons_self ..) ha hp (by omega) hask⟩

/-! ## Firing a synapse -/

/-- Handing an action over is one step: it goes, or the firing of its synapse fails. -/
theorem initiateAction_step (pos : Nat) {slot : Nat} (slots : List Nat) {g g' : Graph}
    {st st' : σ} {ok : Bool} (h : initiateAction d slot g st = (ok, g', st')) :
    PassStep d ⟨.firing pos (slot :: slots), g, st⟩
      (if ok then ⟨.firing pos slots, g', st'⟩ else ⟨.visiting, g'.failFiring pos slot, st'⟩) := by
  simp only [initiateAction] at h
  split at h
  · rename_i hnone
    cases h
    exact .again st pos slots (by simp [hnone])
  · rename_i a ha
    split at h
    · rename_i hexec
      cases h
      refine .again st pos slots fun b hb => ?_
      rw [ha, Option.some.injEq] at hb
      exact hb ▸ hexec
    · rename_i hexec
      have hpending := isExecuted_eq_false_iff.mp (Bool.not_eq_true _ ▸ hexec)
      split at h
      · rename_i hch
        cases h
        exact .unroutable st pos slots ha hpending hch
      · rename_i channel hch
        cases ok with
        | true => exact .dispatch pos slots ha hpending hch h
        | false => exact .refuse pos slots ha hpending hch h

theorem fireActions_steps {pos : Nat} {slots : List Nat} {g g' : Graph} {st st' : σ} {ok : Bool}
    (h : fireActions d pos slots g st = (ok, g', st')) :
    PassSteps d ⟨.firing pos slots, g, st⟩
      ⟨.visiting, if ok then g' else g'.fireFailed, st'⟩ := by
  induction slots generalizing g st with
  | nil =>
    cases h
    exact .single (.fired ..)
  | cons slot slots ih =>
    simp only [fireActions] at h
    split at h
    · rename_i g₁ st₁ hgo
      exact .head (initiateAction_step pos slots hgo) (ih h)
    · rename_i g₁ st₁ hgo
      cases h
      exact .single (initiateAction_step pos slots hgo)

/-! ## The pass -/

theorem fireCounted_steps (d : Dispatcher σ) (pos : Nat) (slots : List Nat) (g : Graph) (st : σ) :
    PassSteps d
      ⟨.firing pos slots,
        (g.count fun c => { c with fired := c.fired + 1 }).setSynapseStatus pos .executing, st⟩
      ⟨.visiting, (fireCounted d pos slots g st).1, (fireCounted d pos slots g st).2⟩ := by
  obtain ⟨⟨ok, g', st'⟩, h⟩ : ∃ out, fireActions d pos slots
      ((g.count fun c => { c with fired := c.fired + 1 }).setSynapseStatus pos .executing)
      st = out :=
    ⟨_, rfl⟩
  refine (fireActions_steps h).trans ?_
  simp only [fireCounted, fireSynapse, h]
  cases ok <;> simp only [if_true, Bool.false_eq_true, if_false] <;> split
  · exact .refl
  · exact .single (.count ..)
  · exact .refl
  · exact .single (.count ..)

theorem setSynapseStatus_getElem? {g : Graph} {pos : Nat} {s : Synapse}
    (hs : g.synapses[pos]? = some s) (status : SynapseStatus) :
    (g.setSynapseStatus pos status).synapses[pos]? = some { s with status } := by
  simp [setSynapseStatus, hs]

/-- A visit asks a synapse that has not fired whether it fires. -/
theorem visit_of_waiting {s : Synapse} (hwaits : s.status = .unfired ∨ s.status = .ready)
    (pos : Nat) (g : Graph) (st : σ) :
    visit d pos s g st =
      match shouldFire d pos s g st with
      | (.fire, g, st) => fireCounted d pos s.actions g st
      | (.skip, g, st) =>
        (g.count fun c => { c with skipped := c.skipped + 1, incomplete := c.incomplete + 1 }, st)
      | (.defer, g, st) => (g.count fun c => { c with incomplete := c.incomplete + 1 }, st) := by
  unfold visit
  generalize shouldFire d pos s g st = out
  obtain ⟨decision, g', st'⟩ := out
  rcases hwaits with h | h <;> cases decision <;> simp only [h]

theorem visit_waiting_steps (hd : d.Steady) {pos : Nat} {s : Synapse} {g : Graph}
    (hs : g.synapses[pos]? = some s) (hwaits : s.status = .unfired ∨ s.status = .ready) (st : σ) :
    PassSteps d ⟨.visiting, g, st⟩ ⟨.visiting, (visit d pos s g st).1, (visit d pos s g st).2⟩ := by
  rw [visit_of_waiting hwaits]
  cases hinputs : s.inputsSatisfied g.actions with
  | false =>
    simp only [shouldFire, hinputs, Bool.false_eq_true, if_false]
    exact .single (.count ..)
  | true =>
    have hs' := setSynapseStatus_getElem? hs .ready
    obtain ⟨decision, g', heq, hout⟩ :=
      checkActions_outcome hd pos s.priority s.actions (g.setSynapseStatus pos .ready) st
    simp only [shouldFire, hinputs, if_true, heq]
    refine .head (.ready st hs hwaits hinputs) ?_
    cases hout with dsimp only
    | fire hall => exact .head (.fire st hs' rfl hinputs hall) (fireCounted_steps d pos _ _ st)
    | defer => exact .single (.count ..)
    | skip hslot ha hp hl => exact .head (.skip st hs' rfl hslot ha hp hl) (.single (.count ..))

theorem visit_steps (hd : d.Steady) {pos : Nat} {s : Synapse} {g : Graph}
    (hs : g.synapses[pos]? = some s) (st : σ) :
    PassSteps d ⟨.visiting, g, st⟩ ⟨.visiting, (visit d pos s g st).1, (visit d pos s g st).2⟩ := by
  cases hst : s.status with
  | unfired => exact visit_waiting_steps hd hs (.inl hst) st
  | ready => exact visit_waiting_steps hd hs (.inr hst) st
  | executing => simp only [visit, hst]; exact .refl
  | confirmed => simp only [visit, hst]; exact .refl
  | failed => simp only [visit, hst]; exact .single (.count ..)
  | skipped => simp only [visit, hst]; exact .single (.count ..)

theorem visitAll_steps (hd : d.Steady) (positions : List Nat) (g : Graph) (st : σ) :
    PassSteps d ⟨.visiting, g, st⟩
      ⟨.visiting, (visitAll d positions g st).1, (visitAll d positions g st).2⟩ := by
  induction positions generalizing g st with
  | nil => exact .refl
  | cons pos rest ih =>
    simp only [visitAll]
    split
    · exact .refl
    · split
      · exact ih g st
      · rename_i s hs
        exact (visit_steps hd hs st).trans (ih _ _)

/-- **Every pass is a sequence of steps.** -/
theorem run_steps (hd : d.Steady) (g : Graph) (st : σ) :
    PassSteps d ⟨.visiting, g, st⟩ ⟨.visiting, (g.run d st).2.1, (g.run d st).2.2⟩ := by
  refine .head (.count g st fun _ => g.startCounters) ?_
  exact (visitAll_steps hd _ _ _).tail (.conclude ..)

end Graph

theorem PassSteps.keep {d : Dispatcher σ} {P : PassState σ → Prop}
    (hstep : ∀ x y, PassStep d x y → P x → P y) {x y : PassState σ} (h : PassSteps d x y)
    (hx : P x) : P y := by
  induction h with
  | refl => exact hx
  | tail _ step ih => exact hstep _ _ step ih

/-- What every step of a pass keeps, every pass keeps. -/
theorem Graph.run_induction {d : Dispatcher σ} (hd : d.Steady) {P : PassState σ → Prop}
    (hstep : ∀ x y, PassStep d x y → P x → P y) (g : Graph) (st : σ)
    (h : P ⟨.visiting, g, st⟩) : P ⟨.visiting, (g.run d st).2.1, (g.run d st).2.2⟩ :=
  PassSteps.keep hstep (run_steps hd g st) h

end ClusterTransition
