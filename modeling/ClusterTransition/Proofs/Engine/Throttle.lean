import ClusterTransition.Proofs.Engine.Accounting

/-! # When the job limits hold

Before a synapse fires, each of its actions is asked whether one more job fits on the nodes that it
uses; the slots are taken later, one action after the other.  So the limits hold as long as no
synapse takes more than one slot of a node, and there is nothing else on which they depend
(`throttled_iff`): a synapse that takes two slots of a node can break its limit in a single pass
(`startAndTwoStarts_overloads`).

What a synapse takes is its load: the charges of the actions that it hands over before the first one
that cannot be dispatched, but for those whose result nobody waits for.
-/

namespace ClusterTransition

open ClusterTransition.Graph (Edits exists_slot_of_action?)

/-! ## Loads -/

/-- What a dispatched action takes of a node: its charge, unless nobody waits for its result. -/
def Action.toll (a : Action) (node : String) : PeerJobs := if a.noWait then {} else a.charge node

/-- What a group of actions takes of a node when it is handed over in order, up to the first that
cannot be dispatched. -/
def load (as : List Action) (node : String) : PeerJobs where
  jobs := ((as.takeWhile (·.dispatchable)).map fun a => (a.toll node).jobs).sum
  migrateJobs := ((as.takeWhile (·.dispatchable)).map fun a => (a.toll node).migrateJobs).sum

/-- What a synapse of a document takes of a node. -/
def SynapseDocument.load (s : SynapseDocument) (node : String) : PeerJobs :=
  ClusterTransition.load (s.actions.map ActionDocument.toAction) node

/-- What the actions at some slots take of a node. -/
def Graph.loadAt (g : Graph) (slots : List Nat) (node : String) : PeerJobs :=
  load (slots.filterMap (g.actions[·]?)) node

theorem Action.toll_bounds (a : Action) (node : String) :
    0 ≤ (a.toll node).migrateJobs ∧ (a.toll node).migrateJobs ≤ (a.toll node).jobs := by
  have := a.charge_bounds node
  simp only [toll]
  split
  · simp
  · omega

/-- Only resource operations charge anything. -/
theorem Action.charge_of_not_resource {a : Action} (h : a.isResourceOp = false) (node : String) :
    a.charge node = {} := by
  simp [charge, Ledger.recordAction, h]

section Load

variable {a : Action} {as : List Action} {node : String}

@[simp] theorem load_nil (node : String) : load [] node = {} := rfl

theorem load_cons (h : a.dispatchable = true) :
    load (a :: as) node =
      { jobs := (a.toll node).jobs + (load as node).jobs
        migrateJobs := (a.toll node).migrateJobs + (load as node).migrateJobs } := by
  simp [load, h]

theorem load_cons_of_not (h : a.dispatchable = false) : load (a :: as) node = {} := by
  simp [load, h]

theorem load_bounds (as : List Action) (node : String) :
    0 ≤ (load as node).migrateJobs ∧ (load as node).migrateJobs ≤ (load as node).jobs := by
  induction as with
  | nil => simp
  | cons a as ih =>
    cases h : a.dispatchable with
    | true =>
      have := a.toll_bounds node
      rw [load_cons h]
      dsimp only
      omega
    | false => simp [load_cons_of_not h]

theorem exists_pos_of_sum {α : Type} {l : List α} {w : α → Int} (h : 0 < (l.map w).sum) :
    ∃ a ∈ l, 0 < w a := by
  induction l with
  | nil => simp at h
  | cons a l ih =>
    rw [List.map_cons, List.sum_cons] at h
    by_cases ha : 0 < w a
    · exact ⟨a, List.mem_cons_self .., ha⟩
    · obtain ⟨b, hb, hpos⟩ := ih (by omega)
      exact ⟨b, List.mem_cons_of_mem _ hb, hpos⟩

/-- A load, of jobs or of migrations, comes from actions that charge some. -/
theorem exists_of_load (count : PeerJobs → Int) (hcount : count {} = 0)
    (h : 0 < ((as.takeWhile Action.dispatchable).map fun a => count (a.toll node)).sum) :
    ∃ a ∈ as, 0 < count (a.charge node) := by
  obtain ⟨a, ha, hpos⟩ := exists_pos_of_sum h
  refine ⟨a, (List.takeWhile_prefix _).subset ha, ?_⟩
  simp only [Action.toll] at hpos
  split at hpos
  · omega
  · exact hpos

/-- Plans decide loads. -/
theorem load_plan (as : List Action) (node : String) :
    load (as.map Action.plan) node = load as node := by
  induction as with
  | nil => rfl
  | cons a as ih =>
    cases h : a.dispatchable with
    | true =>
      have h' : a.plan.dispatchable = true := h
      rw [List.map_cons, load_cons h', load_cons h, ih]
      rfl
    | false =>
      have h' : a.plan.dispatchable = false := h
      rw [List.map_cons, load_cons_of_not h', load_cons_of_not h]

theorem Graph.loadAt_of_plan {g g' : Graph} (h : g'.plan = g.plan) (slots : List Nat)
    (node : String) : g'.loadAt slots node = g.loadAt slots node := by
  rw [loadAt, ← load_plan, map_plan_filterMap h, load_plan, loadAt]

theorem Graph.loadAt_cons {g : Graph} {slot : Nat} (slots : List Nat)
    (ha : g.actions[slot]? = some a) (h : a.dispatchable = true) (node : String) :
    g.loadAt (slot :: slots) node =
      { jobs := (a.toll node).jobs + (g.loadAt slots node).jobs
        migrateJobs := (a.toll node).migrateJobs + (g.loadAt slots node).migrateJobs } := by
  simp only [loadAt, List.filterMap_cons, ha]
  exact load_cons h

theorem Graph.loadAt_cons_of_not {g : Graph} {slot : Nat} (slots : List Nat)
    (ha : g.actions[slot]? = some a) (h : a.dispatchable = false) (node : String) :
    g.loadAt (slot :: slots) node = {} := by
  simp only [loadAt, List.filterMap_cons, ha]
  exact load_cons_of_not h

end Load

/-! ## What a dispatch takes -/

namespace Engine

variable {ε : Type} (c : Cluster ε) {g : Graph} {e : Engine ε}

/-- Finishing an action that holds no slots leaves the ledger as it is. -/
theorem finishAction_ledger {id : ActionId}
    (huncounted : ∀ a, g.action? id = some a → a.counted = false) :
    (e.finishAction g id).2.ledger = e.ledger := by
  simp only [finishAction, actionConfirmed, release]
  split
  · rfl
  · rename_i a ha
    simp [huncounted a ha, requestPass]

theorem ledger_startActionTimer (e : Engine ε) (g : Graph) (id : ActionId) :
    (e.startActionTimer g id).2.ledger = e.ledger := by
  simp only [startActionTimer]
  split <;> rfl

theorem ledger_recordStatus (e : Engine ε) (g : Graph) (id : ActionId) (status : OpStatus)
    (rc : Int) : (e.recordStatus c g id status rc).2.ledger = e.ledger := by
  simp only [recordStatus]
  split <;> rfl

/-- Sending a resource operation takes its toll. -/
theorem ledger_resourceSent {a : Action} (hexec : a.status = .executed) (node : String) :
    (e.resourceSent g a).2.ledger.get node =
      { jobs := (e.ledger.get node).jobs + (a.toll node).jobs
        migrateJobs := (e.ledger.get node).migrateJobs + (a.toll node).migrateJobs } := by
  simp only [resourceSent, Action.toll]
  split
  · simp [requestPass]
  · rw [if_neg (by rw [hexec]; simp [ActionStatus.isConfirmed])]
    simp only [awaitResult, ledger_startActionTimer, Ledger.get_recordAction, Int.one_mul]

/-- **A dispatch takes the toll of the action if it goes**, and the action goes only if it can be
dispatched. -/
theorem dispatch_ledger {a : Action} {channel : Channel} (ha : g.action? a.id = some a)
    (hchannel : a.channel? = some channel) (hexec : a.status = .executed)
    (huncounted : a.counted = false)
    (hgo : ((dispatcher c).dispatch channel a.id g e).1 = true) :
    a.dispatchable = true ∧ ∀ node,
      ((dispatcher c).dispatch channel a.id g e).2.2.ledger.get node =
        { jobs := (e.ledger.get node).jobs + (a.toll node).jobs
          migrateJobs := (e.ledger.get node).migrateJobs + (a.toll node).migrateJobs } := by
  have hfree : ∀ b, g.action? a.id = some b → b.counted = false := by
    intro b hb
    rw [ha, Option.some.injEq] at hb
    exact hb ▸ huncounted
  -- other channels than that of resource operations take nothing
  have hnothing (hne : channel ≠ .resource) (node : String) : a.toll node = {} := by
    have hkind := mt (Action.isResourceOp_of_channel hchannel).mp hne
    simp [Action.toll, Action.charge_of_not_resource (by simpa using hkind)]
  refine ⟨dispatchable_of_goes c ha hchannel hgo, fun node => ?_⟩
  have hout := dispatch_outcome c e ha channel
  generalize (dispatcher c).dispatch channel a.id g e = out at hout hgo ⊢
  cases hout with
  | refused => cases hgo
  | marker | told => simp [finishAction_ledger hfree, hnothing]
  | sent env => exact ledger_resourceSent (e := { e with env }) hexec node
  | recorded env _ hsent =>
    have := ledger_resourceSent (g := g) (e := { e with env }) hexec node
    rw [hsent] at this
    rw [ledger_recordStatus]
    exact this
  | shutdown =>
    have hledger : (localShutdown a.id g e).2.ledger = e.ledger :=
      finishAction_ledger (g := { g with
        completionAction := .shutdown, abortReason := some "local shutdown" }) hfree
    simp [hledger, hnothing]
  | asked => simp [ledger_startActionTimer, hnothing]
  | fenced => simp [hnothing]

/-- What a pass takes when it hands over a pending action. -/
theorem dispatch_marked_ledger {slot : Nat} {a : Action} {channel : Channel}
    (h : Accounted none g e.ledger) (hw : g.WellFormed) (ha : g.actions[slot]? = some a)
    (hpending : a.status = .pending) (hchannel : a.channel? = some channel) {g' : Graph}
    {e' : Engine ε}
    (hgoes : (dispatcher c).dispatch channel a.id (g.setStatusAt slot .executed) e =
      (true, g', e')) :
    a.dispatchable = true ∧ ∀ node, e'.ledger.get node =
      { jobs := (e.ledger.get node).jobs + (a.toll node).jobs
        migrateJobs := (e.ledger.get node).migrateJobs + (a.toll node).migrateJobs } := by
  obtain ⟨huncounted, hget, hslot, -⟩ := h.mark hw ha hpending
  have hfind := (Graph.action?_eq_getElem? hslot).trans hget
  have htoll := dispatch_ledger c (e := e) (a := { a with status := .executed }) hfind hchannel rfl
    huncounted (by rw [hgoes])
  rw [hgoes] at htoll
  exact htoll

end Engine

/-! ## Counts only rise within a pass -/

theorem PassStep.ledger_le {ε : Type} {c : Cluster ε} {x y : PassState (Engine ε)}
    (hx : x.Exact) (h : PassStep (Engine.dispatcher c) x y) :
    x.state.ledger.Le y.state.ledger := by
  have hw := hx.orderly.wellFormed
  cases h with
  | @dispatch g g' e e' pos slot slots a channel ha hpending hchannel hgoes =>
    obtain ⟨-, htoll⟩ :=
      Engine.dispatch_marked_ledger c hx.accounted hw ha hpending hchannel hgoes
    intro node
    have hbounds := a.toll_bounds node
    simp only [htoll]
    omega
  | refuse pos slots ha hpending hchannel hstays =>
    have hkeeps := Engine.dispatch_marked c hx.accounted hw ha hpending hchannel
    rw [hstays] at hkeeps
    rw [hkeeps.2]
    exact .refl _
  | count | ready | skip | fire | unroutable | again | fired | conclude => exact .refl _

theorem PassSteps.ledger_le {ε : Type} {c : Cluster ε} {x y : PassState (Engine ε)}
    (hx : x.Exact) (h : PassSteps (Engine.dispatcher c) x y) :
    y.Exact ∧ x.state.ledger.Le y.state.ledger := by
  refine PassSteps.keep (P := fun z => z.Exact ∧ x.state.ledger.Le z.state.ledger) ?_ h
    ⟨hx, .refl _⟩
  rintro z z' hstep ⟨hz, hle⟩
  exact ⟨hz.step c hstep, hle.trans (hstep.ledger_le hz)⟩

/-! ## Keeping the limits -/

/-- No count is above its limit; a limit below zero counts as zero. -/
def Ledger.Capped (limit : String → Int) (migrationLimit : Int) (l : Ledger) : Prop :=
  ∀ node, (l.get node).jobs ≤ max (limit node) 0 ∧
    (0 < migrationLimit → (l.get node).migrateJobs ≤ migrationLimit)

/-- The ledger keeps the limits, and will when it has taken `more` too. -/
def Ledger.HasRoom (limit : String → Int) (migrationLimit : Int) (l : Ledger)
    (more : String → PeerJobs) : Prop :=
  ∀ node, (l.get node).jobs + (more node).jobs ≤ max (limit node) 0 ∧
    (0 < migrationLimit → (l.get node).migrateJobs + (more node).migrateJobs ≤ migrationLimit)

/-- No synapse takes more than one slot of a node. -/
def Graph.Light (g : Graph) : Prop :=
  ∀ s ∈ g.synapses, ∀ node, (g.loadAt s.actions node).jobs ≤ 1

theorem Ledger.HasRoom.capped {limit : String → Int} {migrationLimit : Int} {l : Ledger}
    {g : Graph} {slots : List Nat} (h : l.HasRoom limit migrationLimit (g.loadAt slots)) :
    l.Capped limit migrationLimit := by
  intro node
  have hload := load_bounds (slots.filterMap (g.actions[·]?)) node
  obtain ⟨hjobs, hmigrate⟩ := h node
  simp only [Graph.loadAt] at hjobs hmigrate
  exact ⟨by omega, fun hlimit => by have := hmigrate hlimit; omega⟩

theorem Ledger.Capped.hasRoom {limit : String → Int} {migrationLimit : Int} {l : Ledger}
    (h : l.Capped limit migrationLimit) (g : Graph) :
    l.HasRoom limit migrationLimit (g.loadAt []) := by
  intro node
  have := h node
  simpa [Graph.loadAt] using this

theorem Graph.Light.of_plan {g g' : Graph} (h : g.Light) (hplan : g'.plan = g.plan) :
    g'.Light := by
  intro s' hs' node
  obtain ⟨p, hp⟩ := List.getElem?_of_mem hs'
  obtain ⟨s, hs, heq⟩ := synapse_of_plan hplan hp
  rw [loadAt_of_plan hplan, Synapse.actions_eq_of_plan heq]
  exact h s (List.mem_of_getElem? hs) node

/-- A synapse all of whose actions may go has room for its load, if that is light. -/
theorem Ledger.hasRoom_of_allowed {limit : String → Int} {l : Ledger} {g : Graph}
    {slots : List Nat} (hcap : l.Capped limit g.migrationLimit)
    (hlight : ∀ node, (g.loadAt slots node).jobs ≤ 1)
    (hallowed : ∀ k ∈ slots, ∀ a, g.actions[k]? = some a → l.mayFire limit g a = true) :
    l.HasRoom limit g.migrationLimit (g.loadAt slots) := by
  intro node
  have hbounds := load_bounds (slots.filterMap (g.actions[·]?)) node
  have hone := hlight node
  have hcapped := hcap node
  simp only [Graph.loadAt] at hone ⊢
  have hmay {a : Action} (ha : a ∈ slots.filterMap (g.actions[·]?)) :
      l.mayFire limit g a = true := by
    obtain ⟨k, hk, hget⟩ := List.mem_filterMap.mp ha
    exact hallowed k hk a hget
  constructor
  · by_cases hpos : 0 < (load (slots.filterMap (g.actions[·]?)) node).jobs
    · obtain ⟨a, ha, hcharge⟩ := exists_of_load PeerJobs.jobs rfl hpos
      have hroom := (mayFireOn_iff.mp (mayFireOn_of_charge (hmay ha) hcharge)).1
      omega
    · omega
  · intro hlimit
    by_cases hpos : 0 < (load (slots.filterMap (g.actions[·]?)) node).migrateJobs
    · obtain ⟨a, ha, hcharge⟩ := exists_of_load PeerJobs.migrateJobs rfl hpos
      have hjobs : 0 < (a.charge node).jobs := by
        have := a.charge_bounds node
        omega
      have hroom := (mayFireOn_iff.mp (mayFireOn_of_charge (hmay ha) hjobs)).2 hlimit
        (Action.isMigration_of_charge hcharge)
      omega
    · have := hcapped.2 hlimit
      omega

/-- Where a pass stands with respect to the limits: there is room for all that the synapse which is
being fired still takes. -/
structure PassState.Within {ε : Type} (limit : String → Int) (x : PassState (Engine ε)) : Prop where
  accounts : x.Exact
  light : x.graph.Light
  limits : x.state.jobLimit = limit
  room : x.state.ledger.HasRoom limit x.graph.migrationLimit (x.graph.loadAt x.stage.rest)

theorem Graph.migrationLimit_of_plan {g g' : Graph} (h : g'.plan = g.plan) :
    g'.migrationLimit = g.migrationLimit :=
  show g'.plan.migrationLimit = g.plan.migrationLimit by rw [h]

theorem PassState.Within.step {ε : Type} {c : Cluster ε} {limit : String → Int}
    {x y : PassState (Engine ε)} (hx : x.Within limit) (h : PassStep (Engine.dispatcher c) x y) :
    y.Within limit := by
  have hplan := h.plan (Engine.dispatcher_handles c)
  have hw := hx.accounts.orderly.wellFormed
  have hacc := hx.accounts.accounted
  refine ⟨hx.accounts.step c h, hx.light.of_plan hplan, h.jobLimit.trans hx.limits, ?_⟩
  rw [Graph.migrationLimit_of_plan hplan]
  -- steps that leave the ledger alone, and end between two synapses
  have hidle {l : Ledger} (hl : l = x.state.ledger) (g : Graph) :
      l.HasRoom limit x.graph.migrationLimit (g.loadAt []) := by
    rw [hl]
    exact hx.room.capped.hasRoom g
  cases h with
  | count | ready | skip | fired | conclude => exact hidle rfl _
  | @fire g e pos s hs hready hinputs hallowed =>
    have hload : ∀ node, (g.loadAt s.actions node).jobs ≤ 1 :=
      hx.light s (List.mem_of_getElem? hs)
    refine Ledger.hasRoom_of_allowed (g := g) hx.room.capped hload fun k hk a ha => ?_
    cases hp : a.isPseudo with
    | true =>
      have hkind : a.isResourceOp = false := by
        simp only [Action.isPseudo, decide_eq_true_eq] at hp
        simp [Action.isResourceOp, hp]
      simp [Ledger.mayFire, hkind]
    | false =>
      have hask := (hallowed k hk a ha hp).2
      rwa [Engine.allowed_eq c hw e ha, hx.limits] at hask
  | @dispatch g g' e e' pos slot slots a channel ha hpending hchannel hgoes =>
    obtain ⟨hdispatchable, htoll⟩ :=
      Engine.dispatch_marked_ledger c hacc hw ha hpending hchannel hgoes
    intro node
    have hroom : _ ∧ _ := hx.room node
    simp only [PassStage.rest, Graph.loadAt_cons slots ha hdispatchable] at hroom
    simp only [htoll, PassStage.rest, Graph.loadAt_of_plan hplan]
    exact ⟨by omega, fun hlimit => by have := hroom.2 hlimit; omega⟩
  | refuse pos slots ha hpending hchannel hstays =>
    have hkeeps := Engine.dispatch_marked c hacc hw ha hpending hchannel
    rw [hstays] at hkeeps
    exact hidle hkeeps.2 _
  | unroutable | again => exact hidle rfl _

/-! ### Reports only give slots back -/

/-- A move that is no pass raises no count. -/
theorem Move.ledger_le {ε : Type} (c : Cluster ε) {m : Move} (hm : m ≠ .pass)
    {s : Graph × Engine ε} (h : s.1.Settled s.2.ledger) (node : String) :
    ((m.make c s).2.ledger.get node).jobs ≤ (s.2.ledger.get node).jobs ∧
      ((m.make c s).2.ledger.get node).migrateJobs ≤ (s.2.ledger.get node).migrateJobs := by
  have hend := m.settled c h
  have hplan := m.plan c s
  rw [h.accounted.counts, hend.accounted.counts]
  refine Graph.charged_le hplan (fun k a a' ha ha' hcounted => ?_) node
  -- who is counted runs, and reports set nothing running
  obtain ⟨hresource, hexec⟩ := (hend.accounted.counted k a' ha' (by simp)).mp hcounted
  obtain ⟨b, hb, heq⟩ := Graph.action_of_plan hplan ha'
  obtain rfl : a = b := Option.some.inj (ha.symm.trans hb)
  refine (h.accounted.counted k a ha (by simp)).mpr ⟨?_, ?_⟩
  · exact (show a.plan.isResourceOp = true from heq ▸ hresource)
  · by_contra hidle
    have hne : s.1.statusAt k ≠ some .executed := by simpa [Graph.statusAt, ha] using hidle
    exact Graph.statusAt_ne_executed_reported (m.reported c hm s) hne
      (by simp [Graph.statusAt, ha', hexec])

/-- A run within the limits. -/
structure Graph.Throttled {ε : Type} (limit : String → Int) (s : Graph × Engine ε) : Prop where
  settled : s.1.Settled s.2.ledger
  light : s.1.Light
  limits : s.2.jobLimit = limit
  capped : s.2.ledger.Capped limit s.1.migrationLimit

theorem Move.throttled {ε : Type} (c : Cluster ε) {limit : String → Int} (m : Move)
    {s : Graph × Engine ε} (h : Graph.Throttled limit s) : Graph.Throttled limit (m.make c s) := by
  have hplan := m.plan c s
  refine ⟨m.settled c h.settled, h.light.of_plan hplan, (m.jobLimit c s).trans h.limits, ?_⟩
  by_cases hm : m = .pass
  · subst hm
    have hstart : PassState.Within limit ⟨.visiting, s.1, s.2⟩ :=
      ⟨⟨⟨h.settled.wellFormed, h.settled.untouched, by simp⟩, h.settled.accounted⟩, h.light,
        h.limits, h.capped.hasRoom s.1⟩
    have hend := Graph.run_induction (Engine.dispatcher_steady c)
      (fun _ _ hstep hx => PassState.Within.step hx hstep) s.1 s.2 hstart
    exact hend.room.capped
  · rw [Graph.migrationLimit_of_plan hplan]
    intro node
    have hle := m.ledger_le c hm h.settled node
    obtain ⟨hjobs, hmigrate⟩ := h.capped node
    exact ⟨by omega, fun hlimit => by have := hmigrate hlimit; omega⟩

/-! ## Documents -/

/-- What a loaded synapse takes is what its document says. -/
theorem SynapseDocument.LoadedAs.loadAt {g : Graph} {s : SynapseDocument} {t : Synapse}
    (h : s.LoadedAs g t) (node : String) : g.loadAt t.actions node = s.load node := by
  rw [Graph.loadAt, h.filterMap_actions]
  rfl

/-- Every run of every engine on the document keeps the limits. -/
def GraphDocument.KeepsLimits (d : GraphDocument) : Prop :=
  ∀ g, d.toGraph = .ok g → ∀ (ε : Type) (c : Cluster ε) (e : Engine ε) (moves : List Move),
    (Move.makeAll c moves (g, e.startTransition)).2.ledger.Capped e.jobLimit g.migrationLimit

/-- **A document keeps the limits if no synapse takes more than one slot of a node.** -/
theorem GraphDocument.keepsLimits_of_load {d : GraphDocument}
    (h : ∀ s ∈ d.synapses, ∀ node, (s.load node).jobs ≤ 1) : d.KeepsLimits := by
  intro g hg ε c e moves
  have hlight : g.Light := by
    intro t ht node
    obtain ⟨s, hs, hst⟩ := (loadedAs_of_toGraph hg).exists_document ht
    rw [hst.loadAt]
    exact h s hs node
  have hstart : Graph.Throttled e.jobLimit (g, e.startTransition) := by
    refine ⟨Graph.settled_of_toGraph hg e, hlight, rfl, fun node => ?_⟩
    have hzero : e.startTransition.ledger.get node = {} := Ledger.get_reset ..
    rw [hzero]
    exact ⟨by dsimp only; omega, Int.le_of_lt⟩
  have hend := Move.makeAll_induction (P := Graph.Throttled e.jobLimit) c
    (fun m _ hs => m.throttled c hs) moves hstart
  have hplan : (Move.makeAll c moves (g, e.startTransition)).1.plan = g.plan :=
    Move.plan_makeAll c moves _
  rw [← Graph.migrationLimit_of_plan hplan]
  exact hend.capped

end ClusterTransition
