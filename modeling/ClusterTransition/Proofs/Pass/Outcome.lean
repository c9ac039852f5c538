import ClusterTransition.Proofs.Engine.Confluence
import ClusterTransition.Proofs.Engine.Quiescence

/-! # What the outcome of a pass says

The outcome is computed from five counters, one of which is taken back when a synapse cannot be
fired, and the loop that counts may stop at the batch limit.  What it says is nevertheless about the
graph: which synapses executed before, which fired, and what is left (`Graph.Ends`).

A pass that ends the transition has fired nothing for good, so nothing is pending, no batch limit
stops it, and every synapse is visited.  Each visit then adds to the counters what it makes of its
own synapse (`Graph.Tallied`), and a synapse that is visited is not lost or found by a later visit.
-/

namespace ClusterTransition

theorem countP_take_succ {α : Type} {f : α → Bool} {l l' : List α} {k : Nat} {x' : α}
    (hx : l'[k]? = some x')
    (hsame : ∀ p < k, (l'[p]?).map f = (l[p]?).map f) :
    (l'.take (k + 1)).countP f = (l.take k).countP f + if f x' then 1 else 0 := by
  have hmap : (l'.take k).map f = (l.take k).map f := by
    refine List.ext_getElem? fun p => ?_
    rw [List.getElem?_map, List.getElem?_map, List.getElem?_take, List.getElem?_take]
    split
    · rename_i hp
      exact hsame p hp
    · rfl
  have hcount (l : List α) : l.countP f = (l.map f).countP id := by
    rw [List.countP_map]
    rfl
  rw [List.take_add_one, hx, List.countP_append, hcount (l'.take k), hmap, ← hcount]
  simp [List.countP_cons]

namespace Graph

variable {σ : Type} {d : Dispatcher σ}

/-! ## What fires for good -/

/-- The visit of the synapse `s` at `pos` fires it for good: it is decided to fire, and all of its
actions are set going. -/
structure FiresNow (d : Dispatcher σ) (pos : Nat) (s : Synapse) (g : Graph) (st : σ) : Prop where
  waits : s.Waits
  decided : (shouldFire d pos s g st).1 = .fire
  fired : (fireSynapse d pos s.actions
    ((shouldFire d pos s g st).2.1.count fun c => { c with fired := c.fired + 1 })
    (shouldFire d pos s g st).2.2).1 = true

/-- The visits at the given positions fire the synapse at `p` for good. -/
inductive Fires (d : Dispatcher σ) (p : Nat) : List Nat → Graph → σ → Prop where
  | now {rest : List Nat} {g : Graph} {st : σ} {s : Synapse} (hroom : g.batchFull = false)
      (hs : g.synapses[p]? = some s) (hfires : FiresNow d p s g st) : Fires d p (p :: rest) g st
  | later {pos : Nat} {rest : List Nat} {g : Graph} {st : σ} {s : Synapse}
      (hroom : g.batchFull = false) (hs : g.synapses[pos]? = some s)
      (hfires : Fires d p rest (visit d pos s g st).1 (visit d pos s g st).2) :
      Fires d p (pos :: rest) g st
  | absent {pos : Nat} {rest : List Nat} {g : Graph} {st : σ} (hroom : g.batchFull = false)
      (hnone : g.synapses[pos]? = none) (hfires : Fires d p rest g st) :
      Fires d p (pos :: rest) g st

/-- A visit counts what fires for good, and nothing else as fired or pending. -/
theorem visit_counts (hsteady : d.Steady) (hd : d.Handles) {pos : Nat} {s : Synapse} {g : Graph}
    (hw : g.WellFormed) (hs : g.synapses[pos]? = some s) (st : σ) :
    FiresNow d pos s g st ∧ 0 < (visit d pos s g st).1.counters.fired ∨
      ¬ FiresNow d pos s g st ∧ (visit d pos s g st).1.counters.fired = g.counters.fired ∧
        (visit d pos s g st).1.counters.pending = g.counters.pending := by
  by_cases hwaits : s.Waits
  · rw [visit_of_waiting hwaits]
    cases hinputs : s.inputsSatisfied g.actions with
    | false =>
      have hshould : shouldFire d pos s g st = (.defer, g, st) := by simp [shouldFire, hinputs]
      refine .inr ⟨fun hfires => ?_, by rw [hshould]; exact ⟨rfl, rfl⟩⟩
      have hdecided := hfires.decided
      rw [hshould] at hdecided
      cases hdecided
    | true =>
      obtain ⟨decision, g₁, heq, hout⟩ := checkActions_outcome hsteady pos s.priority s.actions
        (g.setSynapseStatus pos .ready) st
      have hshould : shouldFire d pos s g st = (decision, g₁, st) := by
        simp only [shouldFire, hinputs, if_true, heq]
      have hnot (hdecision : decision ≠ .fire) : ¬ FiresNow d pos s g st := fun hfires =>
        hdecision (by rw [← hfires.decided, hshould])
      rw [hshould]
      cases hout with
      | defer => exact .inr ⟨hnot (by simp), rfl, rfl⟩
      | skip => exact .inr ⟨hnot (by simp), rfl, rfl⟩
      | fire =>
        obtain ⟨⟨ok, g', st'⟩, hfire⟩ : ∃ out, fireSynapse d pos s.actions
          ((g.setSynapseStatus pos .ready).count fun c => { c with fired := c.fired + 1 }) st =
            out := ⟨_, rfl⟩
        simp only [fireCounted, hfire]
        cases ok with
        | true =>
          refine .inl ⟨⟨hwaits, by rw [hshould], by rw [hshould, hfire]⟩, ?_⟩
          exact fired_pos_of_fireSynapse hd hw hfire
        | false =>
          obtain ⟨s', hs', -, hfailed⟩ := exists_failed_of_fireSynapse hd hw hs hfire
          have hconfirmed : g'.fireFailed.isConfirmedAt pos = true := by
            simp [isConfirmedAt, fireFailed, hs', hfailed, SynapseStatus.isConfirmed]
          have hcounters := (fireSynapse_spreads hd hw hfire).counters
          simp only [Bool.false_eq_true, if_false, hconfirmed, if_true]
          refine .inr ⟨fun hfires => ?_, by simp [fireFailed, hcounters, count]⟩
          have hfired := hfires.fired
          rw [hshould, hfire] at hfired
          cases hfired
  · have hidle : ¬ FiresNow d pos s g st := fun hfires => hwaits hfires.waits
    unfold visit
    split
    · exact .inr ⟨hidle, rfl, rfl⟩
    · exact .inr ⟨hidle, rfl, rfl⟩
    · exact .inr ⟨hidle, rfl, rfl⟩
    · exact .inr ⟨hidle, rfl, rfl⟩
    · rename_i hstatus
      exact absurd (.inl hstatus) hwaits
    · rename_i hstatus
      exact absurd (.inr hstatus) hwaits

theorem not_fires_of_full {p : Nat} {positions : List Nat} {g : Graph} {st : σ}
    (hfull : g.batchFull = true) : ¬ Fires d p positions g st := by
  intro hfires
  cases hfires with
  | now hroom | later hroom | absent hroom =>
    rw [hfull] at hroom
    cases hroom

theorem fires_absent {p pos : Nat} {rest : List Nat} {g : Graph} {st : σ}
    (hroom : g.batchFull = false) (hnone : g.synapses[pos]? = none) :
    Fires d p (pos :: rest) g st ↔ Fires d p rest g st := by
  refine ⟨fun hfires => ?_, .absent hroom hnone⟩
  cases hfires with
  | now _ hs | later _ hs =>
    rw [hnone] at hs
    cases hs
  | absent _ _ hfires => exact hfires

theorem fires_cons {p pos : Nat} {rest : List Nat} {g : Graph} {st : σ} {s : Synapse}
    (hroom : g.batchFull = false) (hs : g.synapses[pos]? = some s) :
    Fires d p (pos :: rest) g st ↔ p = pos ∧ FiresNow d pos s g st ∨
      Fires d p rest (visit d pos s g st).1 (visit d pos s g st).2 := by
  constructor
  · intro hfires
    cases hfires with
    | now _ hs' hnow =>
      rw [hs, Option.some.injEq] at hs'
      exact .inl ⟨rfl, hs' ▸ hnow⟩
    | later _ hs' hlater =>
      rw [hs, Option.some.injEq] at hs'
      exact .inr (hs' ▸ hlater)
    | absent _ hnone =>
      rw [hs] at hnone
      cases hnone
  · rintro (⟨rfl, hnow⟩ | hlater)
    · exact .now hroom hs hnow
    · exact .later hroom hs hlater

/-- **Visits leave nothing fired or pending just if there was nothing, and none fires for good.** -/
theorem visitAll_idle_iff (hsteady : d.Steady) (hd : d.Handles) (positions : List Nat) {g : Graph}
    (hw : g.WellFormed) (st : σ) :
    (visitAll d positions g st).1.counters.pending = 0 ∧
        (visitAll d positions g st).1.counters.fired = 0 ↔
      (g.counters.pending = 0 ∧ g.counters.fired = 0) ∧ ∀ p, ¬ Fires d p positions g st := by
  induction positions generalizing g st with
  | nil =>
    have hnone : ∀ p, ¬ Fires d p [] g st := fun p hfires => by cases hfires
    simp [visitAll, hnone]
  | cons pos rest ih =>
    cases hroom : g.batchFull with
    | true =>
      have hnone : ∀ p, ¬ Fires d p (pos :: rest) g st := fun p => not_fires_of_full hroom
      simp [visitAll, hroom, hnone]
    | false =>
      cases hs : g.synapses[pos]? with
      | none =>
        simp only [visitAll, hroom, hs, Bool.false_eq_true, if_false, fires_absent hroom hs]
        exact ih hw st
      | some s =>
        have hw' := hw.of_plan ((visit_visited hsteady hd hw hs st).plan hd hw)
        simp only [visitAll, hroom, hs, Bool.false_eq_true, if_false, fires_cons hroom hs]
        rcases visit_counts hsteady hd hw hs st with ⟨hnow, hfired⟩ | ⟨hnot, hfired, hpending⟩
        · -- what has fired for good is still counted at the end
          have hgrow := (visitAll_grow hsteady hd rest hw' (visit d pos s g st).2).1
          constructor
          · rintro ⟨-, hzero⟩
            omega
          · rintro ⟨-, hnone⟩
            exact absurd (.inl ⟨rfl, hnow⟩) (hnone pos)
        · rw [ih hw', hfired, hpending]
          simp only [hnot, and_false, false_or]

/-! ## What a pass that ends the transition counts -/

/-- Where a pass that began with `g₀` stands when it has visited the synapses before `k` and fired
nothing for good. -/
structure Counted (g₀ : Graph) (k : Nat) (g : Graph) : Prop where
  plan : g.plan = g₀.plan
  /-- A synapse has absorbed completions; or it waited and was visited, and still waits, was vetoed,
  or failed, which raises the abort level for good. -/
  status : ∀ (p : Nat) (s₀ s : Synapse), g₀.synapses[p]? = some s₀ → g.synapses[p]? = some s →
    s₀.status.Absorbs s.status ∨ p < k ∧ s₀.Waits ∧
      (s.Waits ∨ s.status = .skipped ∨ s.status = .failed ∧ 0 < g.abortPriority)
  skipped : g.counters.skipped = (g.synapses.take k).countP fun s => decide s.Lost
  incomplete : g.counters.incomplete ≠ 0 ↔
    ∃ (p : Nat) (s₀ : Synapse), p < k ∧ g₀.synapses[p]? = some s₀ ∧ s₀.Waits

theorem counted_started (g : Graph) : g.started.Counted 0 g.started where
  plan := rfl
  status := by
    intro p s₀ s hs₀ hs
    rw [Option.some.inj (hs₀.symm.trans hs)]
    exact .inl (.refl _)
  skipped := by simp [started, startCounters]
  incomplete := by simp [started, startCounters]

/-- The synapses that are not visited are lost just if they were. -/
theorem Visited.lost_of_ne {out : Graph × σ} {g : Graph} {st : σ} {k p : Nat} {s : Synapse}
    (hd : d.Handles) (hw : g.WellFormed) (h : Visited d k s g st out) (hp : p ≠ k) :
    (out.1.synapses[p]?.map fun s => decide s.Lost) =
      g.synapses[p]?.map fun s => decide s.Lost := by
  have hplan := h.plan hd hw
  cases ht' : out.1.synapses[p]? with
  | none =>
    have hnone : g.synapses[p]? = none := by
      rw [List.getElem?_eq_none_iff] at ht' ⊢
      rwa [synapses_length_of_plan hplan] at ht'
    rw [hnone]
  | some t' =>
    obtain ⟨t, ht, -⟩ := synapse_of_plan hplan ht'
    have hlost : t'.Lost ↔ t.Lost := (h.absorbs_of_ne hd hw hp ht ht').vetoed_iff
    simp only [ht, Option.map_some, hlost]

/-- **One visit.** -/
theorem Counted.visit (hsteady : d.Steady) (hd : d.Handles) {g₀ g : Graph} {k : Nat} {s : Synapse}
    {st : σ} (hw : g₀.WellFormed) (h : g₀.Counted k g) (hs : g.synapses[k]? = some s)
    (hnothing : (Graph.visit d k s g st).1.counters.fired = 0) :
    g₀.Counted (k + 1) (Graph.visit d k s g st).1 := by
  have hw' : g.WellFormed := hw.of_plan h.plan
  have hvisited := visit_visited hsteady hd hw' hs st
  generalize Graph.visit d k s g st = out at *
  obtain ⟨s', hs', htally⟩ := hvisited.tally hd hw' hs hnothing
  have hplan := hvisited.plan hd hw'
  obtain ⟨s₀, hs₀, -⟩ := synapse_of_plan h.plan hs
  -- the synapse that is visited has only absorbed completions so far
  have hfresh : s₀.status.Absorbs s.status :=
    (h.status k s₀ s hs₀ hs).resolve_right fun hbehind => Nat.lt_irrefl k hbehind.1
  refine ⟨hplan.trans h.plan, fun p t₀ t' ht₀ ht' => ?_, ?_, ?_⟩
  · by_cases hp : p = k
    · subst hp
      obtain rfl : s₀ = t₀ := Option.some.inj (hs₀.symm.trans ht₀)
      obtain rfl : s' = t' := Option.some.inj (hs'.symm.trans ht')
      by_cases hwaits : s.Waits
      · refine .inr ⟨Nat.lt_succ_self p, hfresh.waits_iff.mp hwaits, ?_⟩
        rcases htally.waiting hwaits with hwaits' | ⟨hstatus, -⟩ | ⟨hstatus, hlevel⟩
        · exact .inl hwaits'
        · exact .inr (.inl hstatus)
        · exact .inr (.inr ⟨hstatus, by rw [hlevel]; decide⟩)
      · rw [htally.idle hwaits]
        exact .inl hfresh
    · obtain ⟨t, ht, -⟩ := synapse_of_plan hplan ht'
      have habsorbs := hvisited.absorbs_of_ne hd hw' hp ht ht'
      rcases h.status p t₀ t ht₀ ht with hold | ⟨hlt, hwaited, hleft⟩
      · exact .inl (hold.trans habsorbs)
      · refine .inr ⟨Nat.lt_succ_of_lt hlt, hwaited, ?_⟩
        rcases hleft with hwaits | hskipped | ⟨hfailed, hlevel⟩
        · exact .inl (habsorbs.waits_iff.mpr hwaits)
        · exact .inr (.inl (habsorbs.skipped_iff.mpr hskipped))
        · exact .inr (.inr ⟨habsorbs.failed_iff.mpr hfailed,
            hvisited.level_pos hd hw' hnothing hlevel⟩)
  · rw [htally.skipped, h.skipped,
      countP_take_succ hs' fun p hp => hvisited.lost_of_ne hd hw' (Nat.ne_of_lt hp)]
    simp only [decide_eq_true_eq]
  · have hwaits : s.Waits ↔ s₀.Waits := hfresh.waits_iff
    rw [htally.incomplete_iff, h.incomplete, hwaits, exists_lt_succ_iff hs₀]

/-! ## The outcome -/

/-- The pass that begins with `g` fires the synapse at `p` for good. -/
def FiresIn (d : Dispatcher σ) (g : Graph) (st : σ) (p : Nat) : Prop :=
  Fires d p (List.range g.synapses.length) g.started st

/-- The synapse at `p` is skipped in `g'`, and was not in `g`. -/
def SkippedSince (g g' : Graph) (p : Nat) : Prop :=
  ∃ s s', g.synapses[p]? = some s ∧ s.status ≠ .skipped ∧ g'.synapses[p]? = some s' ∧
    s'.status = .skipped

/-- No abort is in force in `g'`, and yet something is left undone: a synapse waits, or was skipped
since `g`. -/
def CutShort (g g' : Graph) : Prop :=
  g'.abortPriority ≤ 0 ∧ ((∃ s ∈ g'.synapses, s.Waits) ∨ ∃ p, g.SkippedSince g' p)

/-- What a pass that ends the transition, with `result`, has made of the graph `g`. -/
structure Ended (g : Graph) (result : PassResult) (g' : Graph) : Prop where
  idle : ∀ s ∈ g'.synapses, s.status ≠ .executing
  complete : g'.complete = true
  skipped : g'.counters.skipped = g'.synapses.countP fun s => decide s.Lost
  terminated_iff : result = .terminated ↔ g.CutShort g'
  stopped_iff : result = .stopped ↔ ¬ g.CutShort g' ∧ ∃ s ∈ g'.synapses, s.Lost
  complete_iff : result = .complete ↔ ¬ g.CutShort g' ∧ ∀ s ∈ g'.synapses, ¬ s.Lost

/-- Where all synapses are counted, the counters are about the whole graph. -/
theorem Counted.cutShort_iff {g₀ g : Graph} (h : g₀.Counted g.synapses.length g) :
    g.counters.incomplete ≠ 0 ∧ g.abortPriority ≤ 0 ↔ g₀.CutShort g := by
  rw [and_comm, h.incomplete]
  refine and_congr_right fun hlevel => ⟨?_, ?_⟩
  · rintro ⟨p, s₀, hp, hs₀, hwaited⟩
    have hs := List.getElem?_eq_getElem hp
    have hunskipped : s₀.status ≠ .skipped := by
      rcases hwaited with h | h <;> simp [h]
    rcases h.status p s₀ _ hs₀ hs with habsorbs | ⟨-, -, hwaits | hskipped | ⟨-, hraised⟩⟩
    · exact .inl ⟨_, List.getElem_mem hp, habsorbs.waits_iff.mpr hwaited⟩
    · exact .inl ⟨_, List.getElem_mem hp, hwaits⟩
    · exact .inr ⟨p, s₀, _, hs₀, hunskipped, hs, hskipped⟩
    · omega
  · rintro (⟨s, hmem, hwaits⟩ | ⟨p, s₀, s, hs₀, hunskipped, hs, hskipped⟩)
    · obtain ⟨p, hs⟩ := List.getElem?_of_mem hmem
      obtain ⟨s₀, hs₀, -⟩ := synapse_of_plan h.plan hs
      refine ⟨p, s₀, (List.getElem?_eq_some_iff.mp hs).1, hs₀, ?_⟩
      rcases h.status p s₀ s hs₀ hs with habsorbs | ⟨-, hwaited, -⟩
      · exact habsorbs.waits_iff.mp hwaits
      · exact hwaited
    · refine ⟨p, s₀, (List.getElem?_eq_some_iff.mp hs).1, hs₀, ?_⟩
      rcases h.status p s₀ s hs₀ hs with habsorbs | ⟨-, hwaited, -⟩
      · exact absurd (habsorbs.skipped_iff.mp hskipped) hunskipped
      · exact hwaited

theorem Counted.skipped_eq {g₀ g : Graph} (h : g₀.Counted g.synapses.length g) :
    g.counters.skipped = g.synapses.countP fun s => decide s.Lost := by
  rw [h.skipped, List.take_length]

theorem Counted.skipped_iff {g₀ g : Graph} (h : g₀.Counted g.synapses.length g) :
    g.counters.skipped ≠ 0 ↔ ∃ s ∈ g.synapses, s.Lost := by
  rw [h.skipped_eq, Nat.ne_zero_iff_zero_lt, List.countP_pos_iff]
  simp only [decide_eq_true_eq]

/-- The outcome of a pass that ends the transition. -/
theorem Counted.classify {g₀ g : Graph} (h : g₀.Counted g.synapses.length g)
    (hpending : g.counters.pending = 0) (hfired : g.counters.fired = 0) :
    (g.classify = .terminated ↔ g₀.CutShort g) ∧
      (g.classify = .stopped ↔ ¬ g₀.CutShort g ∧ ∃ s ∈ g.synapses, s.Lost) ∧
      (g.classify = .complete ↔ ¬ g₀.CutShort g ∧ ∀ s ∈ g.synapses, ¬ s.Lost) := by
  have hnone : (∀ s ∈ g.synapses, ¬ s.Lost) ↔ ¬ g.counters.skipped ≠ 0 := by
    rw [h.skipped_iff]
    simp only [not_exists, not_and]
  rw [classify_of_idle hpending hfired, hnone, ← h.skipped_iff, ← h.cutShort_iff]
  by_cases hcut : g.counters.incomplete ≠ 0 ∧ g.abortPriority ≤ 0
  · simp [hcut]
  · by_cases hskipped : g.counters.skipped ≠ 0
    · simp [hcut, hskipped]
    · simp [hcut, hskipped]

/-- What a pass says about the graph `g` with which it begins and the one that it leaves. -/
structure Ends (d : Dispatcher σ) (g : Graph) (st : σ) : Prop where
  terminal_iff : (g.run d st).1.isTerminal = true ↔
    (∀ s ∈ g.synapses, s.status ≠ .executing) ∧ ∀ p, ¬ g.FiresIn d st p
  ended : (g.run d st).1.isTerminal = true → g.Ended (g.run d st).1 (g.run d st).2.1

/-- **The outcome of any pass on a well-formed graph.** -/
theorem run_ends (hsteady : d.Steady) (hd : d.Handles) {g : Graph} (hw : g.WellFormed) (st : σ) :
    g.Ends d st := by
  have hw' : g.started.WellFormed := hw.of_plan rfl
  obtain ⟨⟨g', st'⟩, hvisits⟩ : ∃ out,
    visitAll d (List.range g.synapses.length) g.started st = out := ⟨_, rfl⟩
  have hrun := run_of_visits hvisits
  have hidle_iff := visitAll_idle_iff hsteady hd (List.range g.synapses.length) hw' st
  rw [hvisits] at hidle_iff
  have hterminal_iff : (g.run d st).1.isTerminal = true ↔
      g'.counters.pending = 0 ∧ g'.counters.fired = 0 := by
    rw [hrun]
    exact classify_isTerminal_iff
  have hpending : g.started.counters.pending = 0 ↔
      ∀ s ∈ g.synapses, s.status ≠ .executing := by
    simp [started, startCounters]
  refine ⟨?_, fun hterminal => ?_⟩
  · have hfired : g.started.counters.fired = 0 := rfl
    rw [hterminal_iff, hidle_iff, hpending, and_iff_left hfired]
    rfl
  · obtain ⟨hzero, hfired⟩ := hterminal_iff.mp hterminal
    have hcounted : g.started.Counted g'.synapses.length g' :=
      visitAll_sweep_idle (P := fun k g _ => Counted _ k g) hsteady hd hzero hfired
        (fun h => hw'.of_plan h.plan) (fun h hs hnothing => h.visit hsteady hd hw' hs hnothing)
        (counted_started g) rfl hvisits
    obtain ⟨hterminated, hstopped, hcomplete⟩ := hcounted.classify hzero hfired
    have hidle := idle_of_terminal hsteady hd hw hterminal
    rw [hrun] at hterminal hidle ⊢
    exact ⟨hidle, by simp [hterminal], hcounted.skipped_eq, hterminated, hstopped, hcomplete⟩

end Graph

/-- **What the outcome of a pass says.**  Take any state that comes about from a graph of the loader,
and a pass of an engine or of a dry run.  The pass ends the transition exactly if nothing executed
when it began and it fires nothing for good.  Then nothing executes afterwards, the graph is
complete, its failed and skipped synapses are those that were counted as skipped, and the outcome
tells whether it was cut short; if not, whether a synapse was lost. -/
theorem pass_outcome {d : GraphDocument} {g : Graph} (h : d.toGraph = .ok g) {ε : Type}
    {c : Cluster ε} {s : Graph × Engine ε} (hs : g.Reached c s) :
    s.1.Ends (Engine.dispatcher c) s.2 ∧
      ∀ st : Simulator, s.1.Ends Simulator.dispatcher st := by
  have hw := (hs.sound (GraphDocument.sound_of_toGraph h)).wellFormed
  exact ⟨Graph.run_ends (Engine.dispatcher_steady c) (Engine.dispatcher_handles c) hw s.2,
    fun st => Graph.run_ends Simulator.dispatcher_steady Simulator.dispatcher_handles hw st⟩

/-- A start the priority of which is below zero is vetoed without an abort, which cuts the transition
short. -/
theorem lowStart_cut_short : ∃ g, GraphDocument.lowStart.toGraph = .ok g ∧
    let e := (Engine.new { node := "node1" } 0).startTransition
    let answer := g.run (Engine.dispatcher .willing) e
    answer.1 = .terminated ∧ g.CutShort answer.2.1 ∧
      ∀ p, ¬ g.FiresIn (Engine.dispatcher .willing) e p := by
  have hresult : ∀ g, GraphDocument.lowStart.toGraph = .ok g →
      (g.run (Engine.dispatcher .willing)
        (Engine.new { node := "node1" } 0).startTransition).1 = .terminated := by
    rintro _ ⟨⟩
    decide +kernel
  obtain ⟨g, hg⟩ : ∃ g, GraphDocument.lowStart.toGraph = .ok g := ⟨_, rfl⟩
  have hterminal := congrArg PassResult.isTerminal (hresult g hg)
  have hends := (pass_outcome hg (c := .willing)
    (.start (Engine.new { node := "node1" } 0).startTransition)).1
  exact ⟨g, hg, hresult g hg, (hends.ended hterminal).terminated_iff.mp (hresult g hg),
    (hends.terminal_iff.mp hterminal).2⟩

end ClusterTransition
