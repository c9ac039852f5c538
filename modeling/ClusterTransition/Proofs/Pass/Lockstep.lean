import ClusterTransition.Proofs.Graph.Filing
import ClusterTransition.Proofs.Pass.Steps

/-! # Two passes in lockstep

Two dispatchers may answer alike all through a pass although their states differ, and although the
graphs differ in their notes of stored records, which no pass looks at.
`Dispatcher.Lockstep d d' R` says what it takes: the relation `R` of the two sides holds on to
graphs that are alike, every change that a pass makes by itself keeps it, and so does every call of
the dispatchers, with equal answers.

Then whole passes keep it too, and come to the same result (`Dispatcher.Lockstep.run`).
-/

namespace ClusterTransition

/-- The changes that a pass makes to a graph by itself, between the calls of its dispatcher. -/
inductive PassEdit (g : Graph) : (Graph → Graph) → Prop where
  | count (f : PassCounters → PassCounters) : PassEdit g (·.count f)
  | mark (pos : Nat) (status : SynapseStatus) : PassEdit g (·.setSynapseStatus pos status)
  /-- A pending action is about to be handed over. -/
  | start {slot : Nat} {a : Action} (ha : g.actions[slot]? = some a)
      (hpending : a.status = .pending) : PassEdit g (·.setStatusAt slot .executed)
  | fail (slot : Nat) : PassEdit g (·.setStatusAt slot (.failed .initiation))
  | veto : PassEdit g (·.fireFailed)
  | conclude (complete : Bool) : PassEdit g fun g => { g with complete }

theorem PassEdit.plan {g : Graph} {f : Graph → Graph} (h : PassEdit g f) : (f g).plan = g.plan := by
  cases h with
  | mark => exact Graph.plan_setSynapseStatus ..
  | start | fail => exact Graph.plan_setStatusAt ..
  | count | veto | conclude => rfl

/-! ## Graphs that are alike -/

namespace Graph

variable {g g' : Graph} {slot : Nat}

/-- At each slot there is the same action, but for its note. -/
theorem getElem?_of_unfiled (h : g.unfiled = g'.unfiled) {a : Action}
    (ha : g.actions[slot]? = some a) :
    ∃ stored, g'.actions[slot]? = some (a.filedAs stored) := by
  have hslot := congrArg (fun u : Graph => u.actions[slot]?) h
  simp only [unfiled, getElem?_filedAs, ha, Option.map_some] at hslot
  obtain ⟨b, hb, hsame⟩ := Option.map_eq_some_iff.mp hslot.symm
  refine ⟨fun _ => b.sentUpdate, hb.trans (congrArg some ?_)⟩
  calc b = { b.filedAs (fun _ => false) with sentUpdate := b.sentUpdate } := rfl
    _ = { a.filedAs (fun _ => false) with sentUpdate := b.sentUpdate } := by rw [hsame]

theorem getElem?_eq_none_of_unfiled (h : g.unfiled = g'.unfiled)
    (hnone : g.actions[slot]? = none) : g'.actions[slot]? = none := by
  have hslot := congrArg (fun u : Graph => u.actions[slot]?) h
  simp only [unfiled, getElem?_filedAs, hnone, Option.map_none] at hslot
  exact Option.map_eq_none_iff.mp hslot.symm

theorem synapses_of_unfiled (h : g.unfiled = g'.unfiled) : g.synapses = g'.synapses :=
  congrArg (·.synapses) h

theorem abortPriority_of_unfiled (h : g.unfiled = g'.unfiled) :
    g.abortPriority = g'.abortPriority :=
  congrArg (·.abortPriority) h

theorem batchFull_of_unfiled (h : g.unfiled = g'.unfiled) : g.batchFull = g'.batchFull :=
  congrArg (·.batchFull) h

theorem inputsSatisfied_of_unfiled (h : g.unfiled = g'.unfiled) (s : Synapse) :
    s.inputsSatisfied g.actions = s.inputsSatisfied g'.actions := by
  have hactions : g.actions.map (Action.filedAs fun _ => false) =
      g'.actions.map (Action.filedAs fun _ => false) := congrArg (·.actions) h
  rw [← s.inputsSatisfied_filedAs, hactions, s.inputsSatisfied_filedAs]

/-- What a pass concludes from the synapses it has visited. -/
def concludePass {σ : Type} (out : Graph × σ) : PassResult × Graph × σ :=
  (out.1.classify, { out.1 with complete := out.1.complete || out.1.classify.isTerminal }, out.2)

theorem run_eq_concludePass {σ : Type} (d : Dispatcher σ) (g : Graph) (st : σ) :
    g.run d st = concludePass
      (visitAll d (List.range g.synapses.length) (g.count fun _ => g.startCounters) st) := rfl

end Graph

/-! ## The relation of the two sides -/

variable {σ σ' : Type}

/-- Both sides give the same answer, and are related afterwards. -/
inductive Agree {α : Type} (R : Graph × σ → Graph × σ' → Prop) :
    α × Graph × σ → α × Graph × σ' → Prop where
  | intro (answer : α) {g g' : Graph} {st : σ} {st' : σ'} (h : R (g, st) (g', st')) :
      Agree R (answer, g, st) (answer, g', st')

theorem Agree.exists_answer {α : Type} {R : Graph × σ → Graph × σ' → Prop} {out : α × Graph × σ}
    {out' : α × Graph × σ'} (h : Agree R out out') :
    ∃ answer g g' st st', out = (answer, g, st) ∧ out' = (answer, g', st') ∧
      R (g, st) (g', st') := by
  obtain ⟨answer, h⟩ := h
  exact ⟨answer, _, _, _, _, rfl, rfl, h⟩

/-- The dispatchers give the same answers on related sides, whose graphs are alike, and nothing in a
pass ends the relation. -/
structure Dispatcher.Lockstep (d : Dispatcher σ) (d' : Dispatcher σ')
    (R : Graph × σ → Graph × σ' → Prop) : Prop where
  alike : ∀ {x x'}, R x x' → x.1.unfiled = x'.1.unfiled
  edit : ∀ {g g' st st'} {f : Graph → Graph}, PassEdit g f → R (g, st) (g', st') →
    R (f g, st) (f g', st')
  allowed : ∀ {g g' st st'} (id : ActionId), R (g, st) (g', st') →
    Agree R ((d.allowed id g st).1, g, (d.allowed id g st).2)
      ((d'.allowed id g' st').1, g', (d'.allowed id g' st').2)
  /-- A pending action is handed over. -/
  dispatch : ∀ {g g' st st' slot a channel}, R (g, st) (g', st') → g.actions[slot]? = some a →
    a.status = .pending → a.channel? = some channel →
    Agree R (d.dispatch channel a.id (g.setStatusAt slot .executed) st)
      (d'.dispatch channel a.id (g'.setStatusAt slot .executed) st')

namespace Dispatcher.Lockstep

open ClusterTransition.Graph

variable {d : Dispatcher σ} {d' : Dispatcher σ'} {R : Graph × σ → Graph × σ' → Prop}
  {g g' : Graph} {st : σ} {st' : σ'}

/-! ## Firing one synapse -/

theorem checkActions (hl : d.Lockstep d' R) (h : R (g, st) (g', st')) (pos : Nat) (priority : Int)
    (slots : List Nat) :
    Agree R (Graph.checkActions d pos priority slots g st)
      (Graph.checkActions d' pos priority slots g' st') := by
  induction slots generalizing st st' with
  | nil => exact .intro _ h
  | cons slot slots ih =>
    have halike : g.unfiled = g'.unfiled := hl.alike h
    simp only [Graph.checkActions]
    cases ha : g.actions[slot]? with
    | none =>
      rw [getElem?_eq_none_of_unfiled halike ha]
      exact ih h
    | some a =>
      obtain ⟨stored, ha'⟩ := getElem?_of_unfiled halike ha
      simp only [ha', Action.isPseudo_filedAs, Action.id_filedAs,
        ← abortPriority_of_unfiled halike]
      split
      · exact ih h
      · split
        · exact .intro _ (hl.edit (.mark pos .skipped) h)
        · have hask := hl.allowed a.id h
          generalize d.allowed a.id g st = out at hask ⊢
          generalize d'.allowed a.id g' st' = out' at hask ⊢
          obtain ⟨ok, st₁⟩ := out
          obtain ⟨ok', st₁'⟩ := out'
          cases hask with
          | intro _ h =>
            cases ok with
            | true => exact ih h
            | false => exact .intro _ h

theorem shouldFire (hl : d.Lockstep d' R) (h : R (g, st) (g', st')) (pos : Nat) (s : Synapse) :
    Agree R (Graph.shouldFire d pos s g st) (Graph.shouldFire d' pos s g' st') := by
  simp only [Graph.shouldFire, ← inputsSatisfied_of_unfiled (hl.alike h) s]
  split
  · exact hl.checkActions (hl.edit (.mark pos .ready) h) pos s.priority s.actions
  · exact .intro _ h

theorem initiateAction (hl : d.Lockstep d' R) (h : R (g, st) (g', st')) (slot : Nat) :
    Agree R (Graph.initiateAction d slot g st) (Graph.initiateAction d' slot g' st') := by
  have halike : g.unfiled = g'.unfiled := hl.alike h
  simp only [Graph.initiateAction]
  cases ha : g.actions[slot]? with
  | none =>
    rw [getElem?_eq_none_of_unfiled halike ha]
    exact .intro _ h
  | some a =>
    obtain ⟨stored, ha'⟩ := getElem?_of_unfiled halike ha
    simp only [ha', Action.status_filedAs, Action.channel?_filedAs, Action.id_filedAs]
    split
    · exact .intro _ h
    · rename_i hexec
      have hpending := isExecuted_eq_false_iff.mp (Bool.not_eq_true _ ▸ hexec)
      cases hch : a.channel? with
      | none => exact .intro _ (hl.edit (.start ha hpending) h)
      | some channel => exact hl.dispatch h ha hpending hch

theorem fireActions (hl : d.Lockstep d' R) (h : R (g, st) (g', st')) (pos : Nat)
    (slots : List Nat) :
    Agree R (Graph.fireActions d pos slots g st) (Graph.fireActions d' pos slots g' st') := by
  induction slots generalizing g g' st st' with
  | nil => exact .intro _ h
  | cons slot slots ih =>
    obtain ⟨ok, g₁, g₁', st₁, st₁', hgo, hgo', h₁⟩ := (hl.initiateAction h slot).exists_answer
    simp only [Graph.fireActions, hgo, hgo']
    cases ok with
    | true => exact ih h₁
    | false => exact .intro _ (hl.edit (.mark pos .failed) (hl.edit (.fail slot) h₁))

/-! ## The pass -/

theorem fireCounted (hl : d.Lockstep d' R) (h : R (g, st) (g', st')) (pos : Nat)
    (slots : List Nat) :
    R (Graph.fireCounted d pos slots g st) (Graph.fireCounted d' pos slots g' st') := by
  have hstart := hl.edit (.mark pos .executing)
    (hl.edit (.count fun c => { c with fired := c.fired + 1 }) h)
  obtain ⟨ok, g₁, g₁', st₁, st₁', hgo, hgo', h₁⟩ :=
    (hl.fireActions hstart pos slots).exists_answer
  have hfired : R ((if ok then g₁ else g₁.fireFailed), st₁)
      ((if ok then g₁' else g₁'.fireFailed), st₁') := by
    cases ok with
    | true => exact h₁
    | false =>
      have hveto := hl.edit .veto h₁
      exact hveto
  simp only [Graph.fireCounted, fireSynapse, hgo, hgo']
  generalize (if ok then g₁ else g₁.fireFailed) = g₂ at hfired ⊢
  generalize (if ok then g₁' else g₁'.fireFailed) = g₂' at hfired ⊢
  have halike : g₂.unfiled = g₂'.unfiled := hl.alike hfired
  have hknown : g₂'.isConfirmedAt pos = g₂.isConfirmedAt pos := by
    rw [isConfirmedAt, isConfirmedAt, synapses_of_unfiled halike]
  rw [hknown]
  split
  · exact hfired
  · exact hl.edit (.count fun c => { c with pending := c.pending + 1 }) hfired

theorem visit (hl : d.Lockstep d' R) (h : R (g, st) (g', st')) (pos : Nat) (s : Synapse) :
    R (Graph.visit d pos s g st) (Graph.visit d' pos s g' st') := by
  have hasks (hwaits : s.status = .unfired ∨ s.status = .ready) :
      R (Graph.visit d pos s g st) (Graph.visit d' pos s g' st') := by
    rw [visit_of_waiting hwaits, visit_of_waiting hwaits]
    obtain ⟨decision, g₁, g₁', st₁, st₁', hask, hask', h₁⟩ :=
      (hl.shouldFire h pos s).exists_answer
    rw [hask, hask']
    cases decision with
    | fire => exact hl.fireCounted h₁ pos s.actions
    | skip =>
      exact hl.edit
        (.count fun c => { c with skipped := c.skipped + 1, incomplete := c.incomplete + 1 }) h₁
    | defer => exact hl.edit (.count fun c => { c with incomplete := c.incomplete + 1 }) h₁
  cases hs : s.status with
  | unfired => exact hasks (.inl hs)
  | ready => exact hasks (.inr hs)
  | executing | confirmed =>
    simp only [Graph.visit, hs]
    exact h
  | failed | skipped =>
    simp only [Graph.visit, hs]
    exact hl.edit (.count fun c => { c with skipped := c.skipped + 1 }) h

theorem visitAll (hl : d.Lockstep d' R) (h : R (g, st) (g', st')) (positions : List Nat) :
    R (Graph.visitAll d positions g st) (Graph.visitAll d' positions g' st') := by
  induction positions generalizing g g' st st' with
  | nil => exact h
  | cons pos rest ih =>
    have halike : g.unfiled = g'.unfiled := hl.alike h
    simp only [Graph.visitAll, ← batchFull_of_unfiled halike, ← synapses_of_unfiled halike]
    split
    · exact h
    · split
      · exact ih h
      · rename_i s _
        exact ih (hl.visit h pos s)

/-- **Two passes in lockstep come to the same result**, on sides that are related again. -/
theorem run (hl : d.Lockstep d' R) (h : R (g, st) (g', st')) :
    Agree R (g.run d st) (g'.run d' st') := by
  have hsynapses : g.synapses = g'.synapses := synapses_of_unfiled (hl.alike h)
  have hcounters : g'.startCounters = g.startCounters := by
    rw [startCounters, startCounters, hsynapses]
  have hvisited := hl.visitAll (hl.edit (.count fun _ => g.startCounters) h)
    (List.range g.synapses.length)
  rw [run_eq_concludePass, run_eq_concludePass, hcounters, ← hsynapses]
  generalize Graph.visitAll d (List.range g.synapses.length) _ st = out at hvisited ⊢
  generalize Graph.visitAll d' (List.range g.synapses.length) _ st' = out' at hvisited ⊢
  obtain ⟨g₁, st₁⟩ := out
  obtain ⟨g₁', st₁'⟩ := out'
  have halike : g₁.unfiled = g₁'.unfiled := hl.alike hvisited
  have hresult : g₁.classify = g₁'.classify := congrArg (·.classify) halike
  have hcomplete : g₁.complete = g₁'.complete := congrArg (·.complete) halike
  simp only [concludePass, ← hresult, ← hcomplete]
  exact .intro _ (hl.edit (.conclude _) hvisited)

end Dispatcher.Lockstep
end ClusterTransition
