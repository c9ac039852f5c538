import ClusterTransition.Proofs.Engine.Progress
import ClusterTransition.Proofs.Pass.Counting
import ClusterTransition.Proofs.Pass.Visits

/-! # A transition ends when all is done

A pass that starts nothing while nothing is outstanding ends the transition.  Batch limits, job
limits, limits on migrations and dependencies all put synapses off, so this must never come too
early: a faithful run ends only when every action is confirmed (`complete_of_terminal`).

For suppose that some synapse waits when nothing is outstanding.  Then no action runs, the ledger is
empty, and every limit leaves room.  Of the synapses that wait one depends on none of the others,
since the dependencies are acyclic; all that it waits for is confirmed, and it has marked that.  So
there is a first synapse that may fire, the pass reaches it, and fires it.
-/

namespace ClusterTransition

open ClusterTransition.Graph (Advances)

/-! ## What a pass fires -/

section Pass

variable {ε : Type} {c : Cluster ε}

/-- All actions of a synapse that fires are set going. -/
theorem PassState.OnCourse.fireActions (hc : c.Accepts) {pos : Nat} {slots : List Nat} {g : Graph}
    {e : Engine ε} (hx : PassState.OnCourse ⟨.firing pos slots, g, e⟩) :
    ∃ g' e', Graph.fireActions (Engine.dispatcher c) pos slots g e = (true, g', e') ∧
      g'.counters = g.counters := by
  induction slots generalizing g e with
  | nil => exact ⟨g, e, rfl, rfl⟩
  | cons slot slots ih =>
    obtain ⟨a, ha, hpending⟩ :=
      Option.map_eq_some_iff.mp (hx.pending slot (List.mem_cons_self ..))
    have hd := hx.capable.dispatchable a (List.mem_of_getElem? ha)
    obtain ⟨channel, g₁, e₁, hchannel, hgoes, hfire⟩ := Engine.fireActions_goes_on c hc
      hx.accounts.orderly.wellFormed e pos slots ha hpending hd
    have hadvances := Engine.dispatcher_advances c channel a.id (g.setStatusAt slot .executed) e
    rw [hgoes] at hadvances
    obtain ⟨g', e', hrest, hcounters⟩ :=
      ih (hx.step hc (.dispatch pos slots ha hpending hchannel hgoes))
    have hsame := hadvances.edits.counters
    exact ⟨g', e', hfire.trans hrest, hcounters.trans hsame⟩

/-- A synapse that fires is counted. -/
theorem PassState.OnCourse.fireCounted (hc : c.Accepts) {pos : Nat} {slots : List Nat} {g : Graph}
    {e : Engine ε}
    (hx : PassState.OnCourse ⟨.firing pos slots,
      (g.count fun n => { n with fired := n.fired + 1 }).setSynapseStatus pos .executing, e⟩) :
    0 < (Graph.fireCounted (Engine.dispatcher c) pos slots g e).1.counters.fired := by
  obtain ⟨g', e', hfire, hcounters⟩ := hx.fireActions hc
  simp only [Graph.fireCounted, Graph.fireSynapse, hfire, if_true]
  split
  · rw [hcounters]
    exact Nat.succ_pos _
  · simp only [Graph.count, hcounters]
    exact Nat.succ_pos _

/-- A visit keeps the course. -/
theorem PassState.OnCourse.visit (hc : c.Accepts) {pos : Nat} {s : Synapse} {g : Graph}
    {e : Engine ε} (hx : PassState.OnCourse ⟨.visiting, g, e⟩) (hs : g.synapses[pos]? = some s) :
    PassState.OnCourse ⟨.visiting, (Graph.visit (Engine.dispatcher c) pos s g e).1,
      (Graph.visit (Engine.dispatcher c) pos s g e).2⟩ :=
  PassSteps.keep (fun _ _ h hx => PassState.OnCourse.step hc hx h)
    (Graph.visit_steps (Engine.dispatcher_steady c) hs e) hx

/-- A synapse that may fire is fired and counted. -/
theorem PassState.OnCourse.visit_fires (hc : c.Accepts) {pos : Nat} {s : Synapse} {g : Graph}
    {e : Engine ε} (hx : PassState.OnCourse ⟨.visiting, g, e⟩) (hs : g.synapses[pos]? = some s)
    (hwaits : s.Waits) (hinputs : s.inputsSatisfied g.actions)
    (hallowed : ∀ a, e.ledger.mayFire e.jobLimit g a = true) :
    0 < (Graph.visit (Engine.dispatcher c) pos s g e).1.counters.fired := by
  have hready := hx.step hc (.ready e hs hwaits hinputs)
  have hs' := Graph.setSynapseStatus_getElem? hs .ready
  have hlevel : g.abortPriority ≤ s.priority := by
    have hzero := hx.course.level
    dsimp only at hzero
    rw [hzero]
    exact hx.capable.priority s (List.mem_of_getElem? hs)
  have hmay := Engine.allowed_of_mayFire c hready.accounts.orderly.wellFormed hlevel hallowed
    s.actions
  rw [Graph.visit_fires (Engine.dispatcher_steady c) hwaits hinputs hmay]
  exact (hready.step hc (.fire e hs' rfl hinputs hmay)).fireCounted hc

end Pass

/-! ## When nothing is outstanding -/

namespace Graph

/-- Where no synapse executes the ledger is empty. -/
theorem Progressing.ledger_eq_zero {ε : Type} {s : Graph × Engine ε} (h : Progressing s)
    (hidle : ∀ t ∈ s.1.synapses, t.status ≠ .executing) (node : String) :
    s.2.ledger.get node = {} := by
  refine h.settled.accounted.eq_zero_of_idle (fun a ha _ hexec => ?_) node
  obtain ⟨k, hk, t, htmem, hkt⟩ := h.settled.wellFormed.exists_owner_of_mem ha
  have hstatus := statusAt_eq hk
  rw [hexec] at hstatus
  cases h.course.synapses t htmem with
  | waiting _ hactions => exact absurd (hstatus.symm.trans (hactions k hkt)) (by simp)
  | executing hexecuting => exact hidle t htmem hexecuting
  | confirmed _ hactions => exact absurd (hstatus.symm.trans (hactions k hkt)) (by simp)

/-- **If synapses wait when nothing is outstanding, one of them has all it waits for.** -/
theorem OnCourse.exists_satisfied {d : GraphDocument} {g₀ g : Graph} (hd : d.Executable)
    (hloaded : d.LoadedAs g₀) (hplan : g.plan = g₀.plan) (hg : g.OnCourse)
    (hidle : ∀ t ∈ g.synapses, t.status ≠ .executing) {p₀ : Nat} {t₀ : Synapse}
    (ht₀ : g.synapses[p₀]? = some t₀) (hwaits₀ : t₀.Waits) :
    ∃ (p : Nat) (t : Synapse), g.synapses[p]? = some t ∧ t.Waits ∧
      t.inputsSatisfied g.actions := by
  have hw : g.WellFormed := hloaded.wellFormed.of_plan hplan
  -- take one of those that wait which depends on none of the others
  obtain ⟨u₀, hu₀, hplan₀⟩ := synapse_of_plan hplan ht₀
  obtain ⟨s₀, hs₀, -⟩ := hloaded.exists_document_at hu₀
  obtain ⟨s, -, ⟨p, t, hs, ht, hwaits⟩, hfirst⟩ := hd.exists_first
    (P := fun s => ∃ (p : Nat) (t : Synapse), d.synapses[p]? = some s ∧
      g.synapses[p]? = some t ∧ t.Waits)
    ⟨s₀, List.mem_of_getElem? hs₀, p₀, t₀, hs₀, ht₀, hwaits₀⟩
  have htmem := List.mem_of_getElem? ht
  refine ⟨p, t, ht, hwaits, List.all_eq_true.mpr fun i hi => ?_⟩
  -- the owner of what it waits for is confirmed
  obtain ⟨q, u, hu, hslot⟩ := hw.exists_owner (hw.inputs t htmem i hi)
  obtain ⟨s₁, s', hs₁, hs', hdep⟩ := hloaded.dependsOn hplan ht hu hi hslot
  obtain rfl : s = s₁ := Option.some.inj (hs.symm.trans hs₁)
  have humem := List.mem_of_getElem? hu
  have hconfirmed : g.statusAt i.slot = some .confirmed := by
    cases hg.synapses u humem with
    | waiting huwaits => exact absurd ⟨q, u, hs', hu, huwaits⟩ (hfirst s' hdep)
    | executing hexecuting => exact absurd hexecuting (hidle u humem)
    | confirmed _ hactions => exact hactions i.slot hslot
  -- and the synapse has marked that
  have hmark : i.satisfied = true := ((hg.synapses t htmem).of_waits hwaits).2 i hi hconfirmed
  obtain ⟨a, ha, hstatus⟩ := Option.map_eq_some_iff.mp hconfirmed
  simp [Input.isOpen, ha, hmark, hstatus, ActionStatus.isFailed]

end Graph

/-! ## The end -/

/-- A pass over synapses that have all fired does nothing. -/
theorem Graph.visitAll_fired {σ : Type} {d : Dispatcher σ} (positions : List Nat) {g : Graph}
    (h : ∀ s ∈ g.synapses, s.status = .executing ∨ s.status = .confirmed) (st : σ) :
    Graph.visitAll d positions g st = (g, st) := by
  induction positions with
  | nil => rfl
  | cons pos rest ih =>
    simp only [visitAll]
    split
    · rfl
    · cases hs : g.synapses[pos]? with
      | none => exact ih
      | some s =>
        have hvisit : visit d pos s g st = (g, st) := by
          rcases h s (List.mem_of_getElem? hs) with hstatus | hstatus
          · simp only [visit, hstatus]
          · simp only [visit, hstatus]
        simp only [hvisit]
        exact ih

section End

variable {ε : Type} {c : Cluster ε} {d : GraphDocument} {g₀ g : Graph} {e : Engine ε}

/-- **A pass that ends the transition finds every synapse confirmed.** -/
theorem Graph.Progressing.confirmed_of_terminal (hc : c.Accepts) (hd : d.Executable)
    (hloaded : d.LoadedAs g₀) (hplan : g.plan = g₀.plan) (hlimits : ∀ node, 0 < e.jobLimit node)
    (h : Graph.Progressing (g, e)) (hterminal : (g.run (Engine.dispatcher c) e).1.isTerminal) :
    ∀ t ∈ g.synapses, t.status = .confirmed := by
  have hsteady := Engine.dispatcher_steady c
  have hhandles := Engine.dispatcher_handles c
  have hw := h.settled.wellFormed
  obtain ⟨hpending, hfired⟩ := Graph.classify_isTerminal_iff.mp hterminal
  -- nothing was outstanding when the pass began
  have hgrow := Graph.visitAll_grow hsteady hhandles (List.range g.synapses.length)
    (g := { g with counters := g.startCounters }) (hw.of_plan rfl) e
  have hzero : g.startCounters.pending = 0 := Nat.le_zero.mp (hpending ▸ hgrow.2)
  have hidle : ∀ t ∈ g.synapses, t.status ≠ .executing := by
    intro t ht hstatus
    have := List.countP_eq_zero.mp hzero t ht
    simp [hstatus] at this
  intro t ht
  cases h.course.synapses t ht with
  | executing hstatus => exact absurd hstatus (hidle t ht)
  | confirmed hstatus => exact hstatus
  | waiting hwaits =>
    exfalso
    obtain ⟨p₀, hp₀⟩ := List.getElem?_of_mem ht
    -- the pass would reach the first synapse that may fire, and fire it
    have hsome := h.course.exists_satisfied hd hloaded hplan hidle hp₀ hwaits
    obtain ⟨p, ⟨u, hu, huwaits, hinputs⟩, hleast⟩ := WellFounded.has_min
      (wellFounded_lt : WellFounded ((· < ·) : Nat → Nat → Prop))
      { p | ∃ t : Synapse, g.synapses[p]? = some t ∧ t.Waits ∧ t.inputsSatisfied g.actions } hsome
    have hbefore : ∀ q < p, ∀ t, g.synapses[q]? = some t → t.PassedBy g.actions := by
      intro q hq t ht
      have hcourse := h.course.synapses t (List.mem_of_getElem? ht)
      cases hcourse with
      | executing hstatus => exact .inl hstatus
      | confirmed hstatus => exact .inr (.inl hstatus)
      | waiting htwaits =>
        refine .inr (.inr ⟨htwaits, ?_⟩)
        by_contra hsatisfied
        exact hleast q ⟨t, ht, htwaits, by simpa using hsatisfied⟩ hq
    have hroom : ({ g with counters := g.startCounters } : Graph).batchFull = false := by
      simp only [Graph.batchFull, hzero, Bool.and_eq_false_imp, decide_eq_true_eq,
        decide_eq_false_iff_not]
      omega
    obtain ⟨n, rest, -, -, hall⟩ := Graph.visitAll_reaches (d := Engine.dispatcher c)
      (g := { g with counters := g.startCounters }) hu hbefore hroom e
    have hthere : PassState.OnCourse ⟨.visiting, { g with counters := n }, e⟩ :=
      h.start.step hc (.count g e fun _ => n)
    have hallowed := Ledger.mayFire_of_idle (h.ledger_eq_zero hidle) hlimits
      { g with counters := n }
    have hfires := hthere.visit_fires hc hu huwaits hinputs hallowed
    have hlater := Graph.visitAll_grow hsteady hhandles rest
      (hthere.visit hc hu).accounts.orderly.wellFormed
      (Graph.visit (Engine.dispatcher c) p u { g with counters := n } e).2
    have hend : (Graph.visitAll (Engine.dispatcher c) (List.range g.synapses.length)
        { g with counters := g.startCounters } e).1.counters.fired = 0 := hfired
    dsimp only at hall
    rw [hall] at hend
    exact absurd hend (Nat.ne_of_gt (Nat.lt_of_lt_of_le hfires hlater.1))

/-- A pass over confirmed synapses completes the transition, and changes no synapse and no
action. -/
theorem Graph.run_of_confirmed {σ : Type} {d : Dispatcher σ} {g : Graph}
    (h : ∀ t ∈ g.synapses, t.status = .confirmed) (st : σ) :
    (g.run d st).1 = .complete ∧ (g.run d st).2.1.synapses = g.synapses ∧
      (g.run d st).2.1.actions = g.actions ∧ (g.run d st).2.2 = st := by
  have hall := visitAll_fired (d := d) (List.range g.synapses.length)
    (g := { g with counters := g.startCounters }) (fun t ht => .inr (h t ht)) st
  have hpending : g.startCounters.pending = 0 := by
    refine List.countP_eq_zero.mpr fun t ht => ?_
    rw [h t ht]
    simp
  have hfired : g.startCounters.fired = 0 := rfl
  have hskipped : g.startCounters.skipped = 0 := rfl
  have hincomplete : g.startCounters.incomplete = 0 := rfl
  simp only [run, hall, and_self, and_true]
  simp [classify, hpending, hfired, hskipped, hincomplete]

end End

/-! ## Runs -/

/-- Where nothing is to be remarked about a configuration, every node takes jobs. -/
theorem EngineConfig.jobLimit_pos {config : EngineConfig} (h : config.validate = [])
    (node : String) : 0 < config.throttle.jobLimit node := by
  have hremark {reason : Bool} {level : WarnLevel} {message : String}
      (h : remark reason level message = []) : reason = false := by
    cases reason with
    | false => rfl
    | true => cases h
  simp only [validate, throttleRemarks, List.append_eq_nil_iff, List.flatMap_eq_nil_iff,
    nodeRemarks] at h
  obtain ⟨⟨⟨⟨-, hdefault, hnodes⟩, -⟩, -⟩, -⟩ := h
  simp only [ThrottleConfig.jobLimit]
  cases hget : config.throttle.nodeLimits.get? node with
  | none =>
    have := hremark hdefault
    simpa using this
  | some limit =>
    have := hremark (hnodes _ (Table.get?_eq_some_iff.mp hget)).1
    simpa using this

theorem GraphDocument.Executable.progressing {d : GraphDocument} (hd : d.Executable) {g : Graph}
    (h : d.toGraph = .ok g) {ε : Type} (config : EngineConfig) (env : ε) (uuid : String) :
    Graph.Progressing (g, (Engine.new config env uuid).startTransition) where
  settled := Graph.settled_of_toGraph h (Engine.new config env uuid)
  course :=
    have hloaded := loadedAs_of_toGraph h
    hloaded.fresh.onCourse hloaded.wellFormed
  capable := hd.capable (loadedAs_of_toGraph h)
  calls := by
    intro f hf
    cases hf

/-- **No transition ends too early.**  On a graph of an executable document, with a new engine whose
configuration gives no cause for remarks and a cluster that accepts requests, take any run of passes
and of reports of successes.  Whenever a pass then ends the transition, it completes it: every
synapse and every action is confirmed, and no job is charged to any node. -/
theorem complete_of_terminal {d : GraphDocument} {g : Graph} (h : d.toGraph = .ok g)
    (hd : d.Executable) {config : EngineConfig} (hconfig : config.validate = []) {ε : Type}
    {c : Cluster ε} (hc : c.Accepts) (env : ε) (uuid : String) {moves : List Move}
    (hmoves : Move.AllFaithful c moves (g, (Engine.new config env uuid).startTransition))
    {g' g'' : Graph} {e' e'' : Engine ε} {result : PassResult}
    (hrun : Move.makeAll c moves (g, (Engine.new config env uuid).startTransition) = (g', e'))
    (hpass : g'.run (Engine.dispatcher c) e' = (result, g'', e''))
    (hterminal : result.isTerminal) :
    result = .complete ∧ (∀ s ∈ g''.synapses, s.status = .confirmed) ∧
      (∀ a ∈ g''.actions, a.status = .confirmed) ∧ ∀ node, e''.ledger.get node = {} := by
  have hloaded := GraphDocument.loadedAs_of_toGraph h
  have hprogressing := hmoves.induction (fun m s hm hs => hm.progressing hc hs)
    (hd.progressing h config env uuid)
  have hplan := Move.plan_makeAll c moves (g, (Engine.new config env uuid).startTransition)
  have hlimits := Move.jobLimit_makeAll c moves (g, (Engine.new config env uuid).startTransition)
  rw [hrun] at hprogressing hplan hlimits
  have hpositive : ∀ node, 0 < e'.jobLimit node := by
    intro node
    have hlimit : e'.jobLimit = config.throttle.jobLimit := hlimits
    rw [hlimit]
    exact EngineConfig.jobLimit_pos hconfig node
  have hall : ∀ t ∈ g'.synapses, t.status = .confirmed :=
    hprogressing.confirmed_of_terminal hc hd hloaded hplan hpositive (by
      rw [hpass]
      exact hterminal)
  obtain ⟨hresult, hsynapses, hactions, hengine⟩ :=
    Graph.run_of_confirmed (d := Engine.dispatcher c) hall e'
  rw [hpass] at hresult hsynapses hactions hengine
  dsimp only at hresult hsynapses hactions hengine
  refine ⟨hresult, ?_, ?_, ?_⟩
  · rw [hsynapses]
    exact hall
  · intro a ha
    rw [hactions] at ha
    obtain ⟨k, hk, t, ht, hkt⟩ := hprogressing.settled.wellFormed.exists_owner_of_mem ha
    have hstatus := (hprogressing.course.synapses t ht).of_confirmed (hall t ht) k hkt
    rw [Graph.statusAt_eq hk] at hstatus
    exact Option.some.inj hstatus
  · intro node
    rw [hengine]
    refine hprogressing.ledger_eq_zero (fun t ht => ?_) node
    rw [hall t ht]
    simp

/-- A marker that waits for the fencing of a node, the fencing, and a start that waits for the
marker; only one synapse may be outstanding at a time. -/
def GraphDocument.fenceAndStart : GraphDocument where
  transitionId := 1
  batchLimit := some 1
  synapses :=
    [{ id := 1
       actions := [{ id := 2, kind := .pseudo }]
       inputs := [1] },
     { id := 0
       actions :=
         [{ id := 1, kind := .clusterEvent, task := some "stonith", target := some "node2"
            targetUuid := some "uuid2", params := .ofList [("CRM_meta_stonith_action", "off")] }] },
     { id := 2
       actions := [{ id := 3, kind := .resource, task := some "start", target := some "node1" }]
       inputs := [2] }]

theorem GraphDocument.fenceAndStart_executable : fenceAndStart.Executable where
  priority := by decide
  specified := by
    intro a ha
    simp only [arena, fenceAndStart, List.flatMap_cons, List.flatMap_nil, List.append_nil,
      List.cons_append, List.nil_append, List.mem_cons, List.not_mem_nil, or_false] at ha
    rcases ha with rfl | rfl | rfl
    · exact ⟨fun h => absurd rfl h, by simp, by simp⟩
    · exact ⟨fun _ => rfl, fun _ => rfl, fun _ _ => ⟨rfl, rfl⟩⟩
    · exact ⟨fun _ => rfl, by simp, by simp⟩
  acyclic := acyclic_of_rank (·.id) (by decide)

/-- Two reports of successes, with a pass before each. -/
def Move.fenceAndStart : List Move :=
  [.pass, .fencing 0 (.ok ()), .pass,
    .result
      { transitionKey := "3:1:0:6f1e8a52-7d0c-4c1b-9a3e-2b5d4c3a1f00", status := .done, rc := 0 }]

/-- The third pass ends the transition, with all done. -/
theorem fenceAndStart_complete : ∃ g, GraphDocument.fenceAndStart.toGraph = .ok g ∧
    let s := Move.makeAll .willing Move.fenceAndStart
      (g, (Engine.new { node := "node1" } 0).startTransition)
    (s.1.run (Engine.dispatcher .willing) s.2).1 = .complete ∧
      ∀ a ∈ (s.1.run (Engine.dispatcher .willing) s.2).2.1.actions, a.status = .confirmed := by
  have hkey : TransitionKey.decode "3:1:0:6f1e8a52-7d0c-4c1b-9a3e-2b5d4c3a1f00" =
      .ok ⟨3, 1, 0, Engine.defaultUuid⟩ := rfl
  have hsent : ∀ g, GraphDocument.fenceAndStart.toGraph = .ok g →
      ((Move.makeAll .willing (Move.fenceAndStart.take 3)
        (g, (Engine.new { node := "node1" } 0).startTransition)).1.action? 3).map
          (fun a => (a.status, a.targetRc)) = some (.executed, 0) := by
    rintro _ ⟨⟩
    decide +kernel
  have hterminal : ∀ g, GraphDocument.fenceAndStart.toGraph = .ok g →
      let s := Move.makeAll .willing Move.fenceAndStart
        (g, (Engine.new { node := "node1" } 0).startTransition)
      (s.1.run (Engine.dispatcher .willing) s.2).1.isTerminal := by
    rintro _ ⟨⟩
    decide +kernel
  obtain ⟨g, hg⟩ : ∃ g, GraphDocument.fenceAndStart.toGraph = .ok g := ⟨_, rfl⟩
  obtain ⟨a, ha, hreport⟩ := Option.map_eq_some_iff.mp (hsent g hg)
  obtain ⟨hstatus, hrc⟩ := Prod.mk.inj hreport
  have hmoves : Move.AllFaithful .willing Move.fenceAndStart
      (g, (Engine.new { node := "node1" } 0).startTransition) :=
    ⟨.pass, .fenced 0, .pass,
      .result hkey ha (by rw [hstatus]; simp) (fun _ => hrc.symm) rfl hrc.symm, trivial⟩
  have hpair : ∀ p : Graph × Engine Nat, p = (p.1, p.2) := fun _ => rfl
  have htriple : ∀ p : PassResult × Graph × Engine Nat, p = (p.1, p.2.1, p.2.2) := fun _ => rfl
  obtain ⟨hresult, -, hactions, -⟩ := complete_of_terminal hg
    GraphDocument.fenceAndStart_executable rfl Cluster.willing_accepts 0 _ hmoves (hpair _)
    (htriple _) (hterminal g hg)
  exact ⟨g, hg, hresult, hactions⟩

end ClusterTransition
