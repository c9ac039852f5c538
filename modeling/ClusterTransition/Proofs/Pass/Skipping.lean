import ClusterTransition.Proofs.Engine.Lifecycle
import ClusterTransition.Proofs.Engine.Veto

/-! # What is skipped

A visit skips its synapse in one case only: the synapse waits with all its inputs satisfied and owns
more than markers (`Graph.Exposed`), and at that moment it is below the abort level.  Whether an
action may go is not asked then, since the level comes first.  What is skipped stays so, and no
other visit and no report skips anything.

So the skipped synapses of a run can be told from what its passes come upon (`Turn.skipped_iff`),
whatever happens in between.  What they come upon is a list that is computed along with the run
(`Turn.allEncounters`).
-/

namespace ClusterTransition

open ClusterTransition.Graph (Reported)

namespace Graph

variable {σ : Type} {d : Dispatcher σ}

/-- The synapse at `p` waits for nothing but the decision of a pass, and an abort can veto it. -/
def Exposed (g : Graph) (p : Nat) : Prop :=
  ∃ s, g.synapses[p]? = some s ∧ s.Waits ∧ s.inputsSatisfied g.actions = true ∧
    ∃ k ∈ s.actions, ∃ a, g.actions[k]? = some a ∧ a.isPseudo = false

/-! ## One visit -/

/-- A synapse that is fired has fired in the end, also if it fails. -/
theorem fireActions_isExecuted (hd : d.Handles) {pos : Nat} {slots : List Nat} {g g' : Graph}
    {st st' : σ} {ok : Bool} (h : fireActions d pos slots g st = (ok, g', st'))
    (hfired : ∀ s, g.synapses[pos]? = some s → s.status.isExecuted = true) {s' : Synapse}
    (hs' : g'.synapses[pos]? = some s') : s'.status.isExecuted = true := by
  cases ok with
  | false =>
    rw [fireActions_failed h hs']
    rfl
  | true =>
    induction slots generalizing g st with
    | nil =>
      cases h
      exact hfired s' hs'
    | cons slot slots ih =>
      unfold fireActions at h
      split at h
      · rename_i g₁ st₁ hgo
        refine ih (fun s₁ hs₁ => ?_) h
        unfold initiateAction at hgo
        split at hgo
        · cases hgo
        · split at hgo
          · cases hgo
          · split at hgo
            · cases hgo
            · obtain ⟨s, hs, -, hexec⟩ := (hd.edits hgo).isExecuted hs₁
              rw [hexec]
              exact hfired s hs
      · cases h

theorem fireSynapse_isExecuted (hd : d.Handles) {pos : Nat} {slots : List Nat} {g g' : Graph}
    {st st' : σ} {ok : Bool} (h : fireSynapse d pos slots g st = (ok, g', st')) {s' : Synapse}
    (hs' : g'.synapses[pos]? = some s') : s'.status.isExecuted = true := by
  refine fireActions_isExecuted hd h (fun s hs => ?_) hs'
  obtain ⟨t, -, ⟨-, rfl⟩ | ⟨hne, -⟩⟩ := setSynapseStatus_cases hs
  · rfl
  · exact absurd rfl hne

theorem ne_skipped_of_isExecuted {status : SynapseStatus} (h : status.isExecuted = true) :
    status ≠ .skipped := by
  rintro rfl
  cases h

/-- A visit that leaves its synapse alone skips it if it finds it exposed and below the level. -/
theorem Rests.skipped_iff {pos : Nat} {s : Synapse} {g : Graph} {st : σ} {status : SynapseStatus}
    {f : PassCounters → PassCounters} (hs : g.synapses[pos]? = some s)
    (h : Rests d pos s g st status f) :
    status = .skipped ↔ s.status = .skipped ∨ g.Exposed pos ∧ s.priority < g.abortPriority := by
  have hunskipped (hwaits : s.Waits) : s.status ≠ .skipped := by
    rcases hwaits with h | h <;> simp [h]
  have hexposed (hexp : g.Exposed pos) : s.Waits ∧ s.inputsSatisfied g.actions = true := by
    obtain ⟨t, ht, hwaits, hinputs, -⟩ := hexp
    obtain rfl : s = t := Option.some.inj (hs.symm.trans ht)
    exact ⟨hwaits, hinputs⟩
  cases h with
  | settled hstatus | underway hstatus =>
    refine ⟨.inl, fun hskip => hskip.resolve_right fun ⟨hexp, _⟩ => ?_⟩
    have hwaits := (hexposed hexp).1
    rcases hstatus with h | h <;> simp [Synapse.Waits, h] at hwaits
  | closed hwaits hinputs =>
    refine ⟨.inl, fun hskip => hskip.resolve_right fun ⟨hexp, _⟩ => ?_⟩
    rw [(hexposed hexp).2] at hinputs
    cases hinputs
  | held hwaits hinputs hslot ha hpseudo hlevel =>
    refine iff_of_false (by simp) ?_
    rintro (hskip | ⟨-, hbelow⟩)
    · exact hunskipped hwaits hskip
    · omega
  | vetoed hwaits hinputs hslot ha hpseudo hlevel =>
    exact iff_of_true rfl (.inr ⟨⟨s, hs, hwaits, hinputs, _, hslot, _, ha, hpseudo⟩, hlevel⟩)

/-- A synapse that a visit fires is not vetoed. -/
theorem not_vetoed_of_allowed {pos : Nat} {s : Synapse} {g : Graph} {may : Action → Prop}
    (hs : g.synapses[pos]? = some s)
    (hallowed : ∀ slot ∈ s.actions, ∀ a, g.actions[slot]? = some a → a.isPseudo = false →
      g.abortPriority ≤ s.priority ∧ may a) :
    ¬ (g.Exposed pos ∧ s.priority < g.abortPriority) := by
  rintro ⟨⟨t, ht, -, -, k, hk, a, ha, hpseudo⟩, hbelow⟩
  obtain rfl : s = t := Option.some.inj (hs.symm.trans ht)
  have hlevel := (hallowed k hk a ha hpseudo).1
  omega

/-- **What a visit skips.** -/
theorem Visited.skipped_iff (hd : d.Handles) {pos : Nat} {s : Synapse} {g : Graph} {st : σ}
    {out : Graph × σ} (hw : g.WellFormed) (hs : g.synapses[pos]? = some s)
    (h : Visited d pos s g st out) {p : Nat} {t t' : Synapse} (ht : g.synapses[p]? = some t)
    (ht' : out.1.synapses[p]? = some t') :
    t'.status = .skipped ↔
      t.status = .skipped ∨ p = pos ∧ g.Exposed p ∧ t.priority < g.abortPriority := by
  by_cases hp : p = pos
  · subst hp
    obtain rfl : s = t := Option.some.inj (hs.symm.trans ht)
    simp only [true_and]
    -- one that is fired was neither skipped nor vetoed
    have hfires (hwaits : s.Waits)
        (hveto : ¬ (g.Exposed p ∧ s.priority < g.abortPriority))
        (hfired : t'.status.isExecuted = true) :
        t'.status = .skipped ↔
          s.status = .skipped ∨ g.Exposed p ∧ s.priority < g.abortPriority := by
      refine iff_of_false (ne_skipped_of_isExecuted hfired) ?_
      rintro (hskip | h)
      · rcases hwaits with h | h <;> rw [h] at hskip <;> cases hskip
      · exact hveto h
    cases h with
    | rests hrests =>
      obtain ⟨u, -, ⟨-, rfl⟩ | ⟨hne, -⟩⟩ := setSynapseStatus_cases ht'
      · exact hrests.skipped_iff hs
      · exact absurd rfl hne
    | @fired g' st' hwaits _ hallowed hfire =>
      have hsame : (if g'.isConfirmedAt p then g' else g'.count fun c =>
          { c with pending := c.pending + 1 }).synapses = g'.synapses := by split <;> rfl
      exact hfires hwaits (not_vetoed_of_allowed hs hallowed)
        (fireSynapse_isExecuted hd hfire (hsame ▸ ht'))
    | failed hwaits _ hallowed hfire =>
      exact hfires hwaits (not_vetoed_of_allowed hs hallowed)
        (fireSynapse_isExecuted hd hfire ht')
  · simp only [hp, false_and, or_false]
    exact (h.absorbs_of_ne hd hw hp ht ht').skipped_iff

/-! ## A pass -/

/-- **What several visits skip**: the synapses that they come upon exposed and below the level. -/
theorem visitAll_skipped_iff (hsteady : d.Steady) (hd : d.Handles) (positions : List Nat)
    {g : Graph} (hw : g.WellFormed) (st : σ) {p : Nat} {t t' : Synapse}
    (ht : g.synapses[p]? = some t)
    (ht' : (visitAll d positions g st).1.synapses[p]? = some t') :
    t'.status = .skipped ↔ t.status = .skipped ∨
      ∃ m, (p, m) ∈ encounters d positions g st ∧ m.Exposed p ∧ t.priority < m.abortPriority := by
  have hstops {t : Synapse} (h : some t = some t') :
      t'.status = .skipped ↔ t.status = .skipped ∨ ∃ m, (p, m) ∈ ([] : List (Nat × Graph)) ∧
        m.Exposed p ∧ t.priority < m.abortPriority := by
    obtain rfl := Option.some.inj h
    simp
  induction positions generalizing g st t with
  | nil => exact hstops (ht.symm.trans ht')
  | cons pos rest ih =>
    cases hroom : g.batchFull with
    | true =>
      simp only [visitAll, encounters, hroom, if_true] at ht' ⊢
      exact hstops (ht.symm.trans ht')
    | false =>
      cases hs : g.synapses[pos]? with
      | none =>
        simp only [visitAll, encounters, hroom, hs, Bool.false_eq_true, if_false] at ht' ⊢
        exact ih hw st ht ht'
      | some s =>
        simp only [visitAll, encounters, hroom, hs, Bool.false_eq_true, if_false] at ht' ⊢
        have hvisited := visit_visited hsteady hd hw hs st
        have hplan := hvisited.plan hd hw
        obtain ⟨t₁, ht₁, hsame⟩ := synapse_of_plan hplan.symm ht
        have hpriority : t₁.priority = t.priority := (Synapse.priority_eq_of_plan hsame).symm
        refine (ih (hw.of_plan hplan) _ ht₁ ht').trans ?_
        rw [hvisited.skipped_iff hd hw hs ht ht₁, or_assoc, hpriority]
        refine or_congr_right ⟨?_, ?_⟩
        · rintro (⟨rfl, hexposed, hbelow⟩ | ⟨m, hm, hveto⟩)
          · exact ⟨g, List.mem_cons_self .., hexposed, hbelow⟩
          · exact ⟨m, List.mem_cons_of_mem _ hm, hveto⟩
        · rintro ⟨m, hm, hveto⟩
          rcases List.mem_cons.mp hm with heq | hm
          · obtain ⟨rfl, rfl⟩ := Prod.mk.inj heq
            exact .inl ⟨rfl, hveto⟩
          · exact .inr ⟨m, hm, hveto⟩

/-- What is encountered occurs in the pass. -/
theorem encounters_steps (hsteady : d.Steady) (positions : List Nat) {g : Graph} {st : σ}
    {p : Nat} {m : Graph} (hm : (p, m) ∈ encounters d positions g st) :
    ∃ st', PassSteps d ⟨.visiting, g, st⟩ ⟨.visiting, m, st'⟩ ∧
      PassSteps d ⟨.visiting, m, st'⟩
        ⟨.visiting, (visitAll d positions g st).1, (visitAll d positions g st).2⟩ := by
  induction positions generalizing g st with
  | nil => cases hm
  | cons pos rest ih =>
    have hsteps := visitAll_steps hsteady (pos :: rest) g st
    cases hroom : g.batchFull with
    | true =>
      simp only [encounters, hroom, if_true] at hm
      cases hm
    | false =>
      cases hs : g.synapses[pos]? with
      | none =>
        simp only [encounters, visitAll, hroom, hs, Bool.false_eq_true, if_false] at hm ⊢
        exact ih hm
      | some s =>
        simp only [encounters, visitAll, hroom, hs, Bool.false_eq_true, if_false] at hm hsteps ⊢
        rcases List.mem_cons.mp hm with heq | hm
        · obtain ⟨-, rfl⟩ := Prod.mk.inj heq
          exact ⟨st, .refl, hsteps⟩
        · obtain ⟨st', hbefore, hafter⟩ := ih hm
          exact ⟨st', (visit_steps hsteady hs st).trans hbefore, hafter⟩

end Graph

/-- In several steps of a pass the abort level stays or rises to infinity. -/
theorem PassSteps.raises {σ : Type} {d : Dispatcher σ} (hd : d.Raises) {x y : PassState σ}
    (h : PassSteps d x y) : x.graph.Raises y.graph :=
  h.keep (P := fun y => x.graph.Raises y.graph) (fun _ _ hstep hx => hx.trans (hstep.raises hd))
    (.refl _)

namespace Graph

variable {σ : Type} {d : Dispatcher σ} {g : Graph} {st : σ}

/-- **What a pass skips.** -/
theorem run_skipped_iff (hsteady : d.Steady) (hd : d.Handles) (hw : g.WellFormed) {p : Nat}
    {t t' : Synapse} (ht : g.synapses[p]? = some t)
    (ht' : (g.run d st).2.1.synapses[p]? = some t') :
    t'.status = .skipped ↔ t.status = .skipped ∨
      ∃ m, (p, m) ∈ g.encountersOf d st ∧ m.Exposed p ∧ t.priority < m.abortPriority :=
  visitAll_skipped_iff hsteady hd _ (g := g.started) (hw.of_plan rfl) st ht ht'

/-- What a pass comes upon has a level between those at its ends. -/
theorem level_of_encounter (hsteady : d.Steady) (hraises : d.Raises)
    (hg : g.abortPriority ≤ infinity) {p : Nat} {m : Graph} (hm : (p, m) ∈ g.encountersOf d st) :
    g.abortPriority ≤ m.abortPriority ∧ m.abortPriority ≤ (g.run d st).2.1.abortPriority := by
  obtain ⟨st', hbefore, hafter⟩ := encounters_steps hsteady _ hm
  have hfirst := hbefore.raises hraises
  exact ⟨hfirst.le hg, (hafter.raises hraises).le (hfirst.bounded hg)⟩

theorem plan_of_encounter (hsteady : d.Steady) (hd : d.Handles) {p : Nat} {m : Graph}
    (hm : (p, m) ∈ g.encountersOf d st) : m.plan = g.plan := by
  obtain ⟨st', hbefore, -⟩ := encounters_steps hsteady _ hm
  exact hbefore.keep (P := fun x => x.graph.plan = g.plan)
    (fun _ _ hstep hx => (hstep.plan hd).trans hx) rfl

end Graph

/-! ## Turns -/

namespace Turn

variable {ε : Type} (c : Cluster ε)

/-- What several turns come upon, in order. -/
def allEncounters : List Turn → Graph × Engine ε → List (Nat × Graph)
  | [], _ => []
  | t :: turns, s => t.encounters c s ++ allEncounters turns (t.make c s)

variable {c} {s : Graph × Engine ε} {p : Nat}

/-- **What a turn skips.** -/
theorem make_skipped_iff (t : Turn) (hw : s.1.WellFormed) {u u' : Synapse}
    (hu : s.1.synapses[p]? = some u) (hu' : (t.make c s).1.synapses[p]? = some u') :
    u'.status = .skipped ↔ u.status = .skipped ∨
      ∃ m, (p, m) ∈ t.encounters c s ∧ m.Exposed p ∧ u.priority < m.abortPriority := by
  rcases t.pass_or_reported c s with ⟨σ, d, st, hsteady, hd, -, hmake, -, henc⟩ |
    ⟨hreported, -, henc⟩
  · rw [hmake] at hu'
    rw [henc]
    exact Graph.run_skipped_iff hsteady hd hw hu hu'
  · obtain ⟨v, hv, -, hstatus⟩ := hreported.absorbs hu'
    obtain rfl : u = v := Option.some.inj (hu.symm.trans hv)
    simp [henc, hstatus.skipped_iff]

theorem plan_makeAll (turns : List Turn) (s : Graph × Engine ε) :
    (makeAll c turns s).1.plan = s.1.plan := by
  induction turns generalizing s with
  | nil => rfl
  | cons t turns ih => exact (ih _).trans (t.plan_make s)

/-- **What a run skips**: the synapses that its passes come upon exposed and below the level. -/
theorem skipped_iff (turns : List Turn) (hw : s.1.WellFormed) {u u' : Synapse}
    (hu : s.1.synapses[p]? = some u) (hu' : (makeAll c turns s).1.synapses[p]? = some u') :
    u'.status = .skipped ↔ u.status = .skipped ∨
      ∃ m, (p, m) ∈ allEncounters c turns s ∧ m.Exposed p ∧ u.priority < m.abortPriority := by
  induction turns generalizing s u with
  | nil =>
    obtain rfl : u = u' := Option.some.inj (hu.symm.trans hu')
    simp [allEncounters]
  | cons t turns ih =>
    have hplan := t.plan_make (c := c) s
    obtain ⟨v, hv, hsame⟩ := Graph.synapse_of_plan hplan.symm hu
    have hpriority : v.priority = u.priority := (Synapse.priority_eq_of_plan hsame).symm
    rw [ih (hw.of_plan hplan) hv hu', t.make_skipped_iff hw hu hv, or_assoc, hpriority]
    refine or_congr_right ?_
    simp only [allEncounters, List.mem_append, or_and_right, exists_or]

end Turn
end ClusterTransition
