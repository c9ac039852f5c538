import ClusterTransition.Proofs.Engine.Moves
import ClusterTransition.Proofs.Graph.Course
import ClusterTransition.Proofs.Pass.Ownership
import ClusterTransition.Proofs.Timers

/-! # What an engine waits for

An action that runs is waited for in one of two ways: a fencing has an outstanding request, and any
other action has an armed timer, or one that has expired and is still to be reported.  In turn a
timer is armed for an action that runs, and a request is outstanding for an action that was handed
over, at most one for each action (`Graph.Watched`).

While something is done on behalf of an action, that action is excepted: its timer is disarmed or
its request is taken from the table before its result becomes known.  This module has what each
operation does to the invariant.  That everything that runs is waited for needs a cluster that does
not number two fencing requests alike (`Cluster.NumbersOnce`), for the table keeps one request under
each number; the rest holds of every cluster.
-/

namespace ClusterTransition

open ClusterTransition.Graph (Begun Edits)

/-! ## The status of an action, by its id -/

namespace Graph

/-- The status of the action with this id. -/
def statusOf (g : Graph) (id : ActionId) : Option ActionStatus := (g.slotOf? id).bind g.statusAt

/-- Whether the action with this id is carried out by fencing. -/
def Fences (g : Graph) (id : ActionId) : Prop :=
  ∃ a, g.action? id = some a ∧ a.channel? = some .fencing

variable {g g' : Graph} {id x : ActionId}

theorem statusOf_eq {a : Action} (ha : g.action? id = some a) : g.statusOf id = some a.status := by
  obtain ⟨k, hk, hget, -⟩ := exists_slot_of_action? ha
  rw [statusOf, hk, Option.bind_some, statusAt_eq hget]

theorem statusOf_eq_of_getElem? (hw : g.WellFormed) {k : Nat} {a : Action}
    (ha : g.actions[k]? = some a) : g.statusOf a.id = some a.status :=
  statusOf_eq (hw.action?_id ha)

theorem exists_of_statusOf {status : ActionStatus} (h : g.statusOf id = some status) :
    ∃ a, g.action? id = some a ∧ a.status = status := by
  obtain ⟨k, hk, hstatus⟩ := Option.bind_eq_some_iff.mp h
  obtain ⟨a, hget, ha, -⟩ := exists_action_of_slotOf? hk
  rw [statusAt_eq hget, Option.some.injEq] at hstatus
  exact ⟨a, ha, hstatus⟩

theorem Begun.statusOf (h : g.Begun id) : g.statusOf id ≠ some .pending := by
  intro hpending
  obtain ⟨k, hk, hstatus⟩ := Option.bind_eq_some_iff.mp hpending
  exact h k hk hstatus

theorem begun_of_statusOf (h : g.statusOf id ≠ some .pending) : g.Begun id := by
  intro k hk hpending
  exact h (by rw [Graph.statusOf, hk, Option.bind_some, hpending])

/-- The plan of a graph says which actions are fencings. -/
theorem fences_of_plan (hplan : g'.plan = g.plan) : g'.Fences id ↔ g.Fences id := by
  have hfences {g g' : Graph} (hplan : g'.plan = g.plan) (h : g'.Fences id) : g.Fences id := by
    obtain ⟨a', ha', hchannel⟩ := h
    obtain ⟨k, hk, hget', -⟩ := exists_slot_of_action? ha'
    obtain ⟨a, hget, heq⟩ := action_of_plan hplan hget'
    have hslot := (slotOf?_eq_of_plan hplan id).symm.trans hk
    refine ⟨a, (action?_eq_getElem? hslot).trans hget, ?_⟩
    exact (show a.plan.channel? = some .fencing from heq ▸ hchannel)
  exact ⟨hfences hplan, hfences hplan.symm⟩

theorem id_of_plan (hplan : g'.plan = g.plan) : g'.id = g.id :=
  show g'.plan.id = g.plan.id by rw [hplan]

/-- The statuses of other actions stay. -/
theorem statusOf_edits (hedits : Edits x g g') (hne : id ≠ x) : g'.statusOf id = g.statusOf id := by
  simp only [statusOf, slotOf?_eq_of_plan hedits.plan]
  cases hk : g.slotOf? id with
  | none => rfl
  | some k =>
    refine hedits.statusAt_other fun hx => hne ?_
    obtain ⟨a, hget, -, rfl⟩ := exists_action_of_slotOf? hk
    obtain ⟨b, hget', -, rfl⟩ := exists_action_of_slotOf? hx
    rw [hget, Option.some.injEq] at hget'
    rw [hget']

theorem statusOf_setStatusAt (hw : g.WellFormed) {slot : Nat} {a : Action}
    (ha : g.actions[slot]? = some a) (status : ActionStatus) (id : ActionId) :
    (g.setStatusAt slot status).statusOf id =
      if id = a.id then some status else g.statusOf id := by
  simp only [statusOf, slotOf?_eq_of_plan (plan_setStatusAt g slot status)]
  by_cases hid : id = a.id
  · rw [if_pos hid, hid, hw.slotOf?_id ha, Option.bind_some, statusAt_setStatusAt, if_pos rfl,
      statusAt_eq ha]
    rfl
  · rw [if_neg hid]
    cases hk : g.slotOf? id with
    | none => rfl
    | some k =>
      rw [Option.bind_some, Option.bind_some, statusAt_setStatusAt, if_neg]
      rintro rfl
      obtain ⟨b, hget, -, rfl⟩ := exists_action_of_slotOf? hk
      rw [ha, Option.some.injEq] at hget
      exact hid (hget ▸ rfl)

theorem statusOf_congr (hplan : g'.plan = g.plan) (hstatus : ∀ k, g'.statusAt k = g.statusAt k)
    (id : ActionId) : g'.statusOf id = g.statusOf id := by
  rw [statusOf, slotOf?_eq_of_plan hplan, statusOf]
  congr 1
  funext k
  exact hstatus k

/-- After an action is finished its result is known. -/
theorem statusOf_finish (g : Graph) (id : ActionId) :
    ((g.settle id .confirmed).2.update id).2.statusOf id ≠ some .executed := by
  intro h
  obtain ⟨b, hb, hexec⟩ := exists_of_statusOf h
  have hedits : Edits id g ((g.settle id .confirmed).2.update id).2 := Edits.finish g rfl
  obtain ⟨k, hk, hget, -⟩ := exists_slot_of_action? hb
  rw [slotOf?_eq_of_plan hedits.plan] at hk
  obtain ⟨a, -, ha, -⟩ := exists_action_of_slotOf? hk
  obtain ⟨c, hsettled, hknown⟩ :=
    exists_confirmed_of_settle (rfl : ActionStatus.confirmed.isConfirmed = true) ha
  have hstatus := statusAt_update_of_confirmed hsettled hknown k
  obtain ⟨k', hk', hget', -⟩ := exists_slot_of_action? hsettled
  rw [slotOf?_eq_of_plan (plan_settle ..), hk, Option.some.injEq] at hk'
  subst hk'
  rw [statusAt_eq hget, statusAt_eq hget', hexec, Option.some.injEq] at hstatus
  rw [← hstatus] at hknown
  cases hknown

end Graph

/-! ## The invariant -/

/-- The engine waits for the action: for a fencing a request is outstanding, and for any other
action a timer is armed or has expired without that having been reported. -/
def Engine.Awaits {ε : Type} (e : Engine ε) (due : List ActionId) (g : Graph) (id : ActionId) :
    Prop :=
  (g.Fences id ∧ ∃ call fence, e.fenceCalls.get? call = some fence ∧ fence.action = id) ∨
    ¬ g.Fences id ∧ (e.timers.isArmed id = true ∨ id ∈ due)

/-- The engine has neither a timer nor a request for the action. -/
structure Engine.Ignores {ε : Type} (e : Engine ε) (due : List ActionId) (id : ActionId) :
    Prop where
  unarmed : e.timers.isArmed id = false
  unexpired : id ∉ due
  uncalled : ∀ call fence, e.fenceCalls.get? call = some fence → fence.action ≠ id

/-- What the engine waits for, and what runs, are the same; `except` is an action on behalf of which
something is being done.  A request whose number is given once more is lost, so that only where
requests are numbered `apart` everything that runs is awaited. -/
structure Graph.Watched {ε : Type} (apart : Prop) (g : Graph) (e : Engine ε) (due : List ActionId)
    (except : Option ActionId) : Prop where
  awaited : apart → ∀ id, except ≠ some id → g.statusOf id = some .executed → e.Awaits due g id
  armed : ∀ id, e.timers.isArmed id = true →
    id ∉ due ∧ g.statusOf id = some .executed ∧ ¬ g.Fences id
  expired : ∀ id ∈ due, g.Begun id
  calls : ∀ call fence, e.fenceCalls.get? call = some fence →
    fence.transition = g.id ∧ g.Begun fence.action ∧ g.Fences fence.action
  single : ∀ call call' fence fence', e.fenceCalls.get? call = some fence →
    e.fenceCalls.get? call' = some fence' → fence.action = fence'.action → call = call'

namespace Graph.Watched

variable {ε : Type} {apart : Prop} {g g' : Graph} {e e' : Engine ε} {due : List ActionId}
  {except : Option ActionId} {x : ActionId}

/-- Nothing changes for the engine as long as no status does. -/
theorem of_eq (h : g.Watched apart e due except) (hplan : g'.plan = g.plan)
    (hstatus : ∀ id, g'.statusOf id = g.statusOf id) (htimers : e'.timers = e.timers)
    (hcalls : e'.fenceCalls = e.fenceCalls) : g'.Watched apart e' due except where
  awaited hapart id hid hexec := by
    have := h.awaited hapart id hid (hstatus id ▸ hexec)
    simpa only [Engine.Awaits, fences_of_plan hplan, htimers, hcalls] using this
  armed id hid := by
    have := h.armed id (htimers ▸ hid)
    simpa only [hstatus, fences_of_plan hplan] using this
  expired id hid := begun_of_statusOf (hstatus id ▸ (h.expired id hid).statusOf)
  calls call fence hget := by
    obtain ⟨htransition, hbegun, hfences⟩ := h.calls call fence (hcalls ▸ hget)
    exact ⟨htransition.trans (id_of_plan hplan).symm,
      begun_of_statusOf (hstatus fence.action ▸ hbegun.statusOf),
      (fences_of_plan hplan).mpr hfences⟩
  single := by
    rw [hcalls]
    exact h.single

theorem weaken (h : g.Watched apart e due none) (x : ActionId) : g.Watched apart e due (some x) :=
  { h with awaited := fun hapart id _ hexec => h.awaited hapart id (by simp) hexec }

/-- The exception ends when its result is known. -/
theorem close (h : g.Watched apart e due (some x)) (hx : g.statusOf x ≠ some .executed) :
    g.Watched apart e due none := by
  refine { h with awaited := fun hapart id _ hexec => h.awaited hapart id ?_ hexec }
  rintro ⟨⟩
  exact hx hexec

/-- Whatever is done on behalf of an action without an armed timer, the engine waits for the others
as before. -/
theorem edits (h : g.Watched apart e due (some x)) (hedits : Edits x g g')
    (hx : e.timers.isArmed x = false) (htimers : e'.timers = e.timers)
    (hcalls : e'.fenceCalls = e.fenceCalls) : g'.Watched apart e' due (some x) where
  awaited hapart id hid hexec := by
    have hne : id ≠ x := fun heq => hid (heq ▸ rfl)
    have := h.awaited hapart id hid (statusOf_edits hedits hne ▸ hexec)
    simpa only [Engine.Awaits, fences_of_plan hedits.plan, htimers, hcalls] using this
  armed id hid := by
    rw [htimers] at hid
    have hne : id ≠ x := by
      rintro rfl
      rw [hx] at hid
      cases hid
    have := h.armed id hid
    simpa only [statusOf_edits hedits hne, fences_of_plan hedits.plan] using this
  expired id hid := (h.expired id hid).edits hedits
  calls call fence hget := by
    obtain ⟨htransition, hbegun, hfences⟩ := h.calls call fence (hcalls ▸ hget)
    exact ⟨htransition.trans (id_of_plan hedits.plan).symm, hbegun.edits hedits,
      (fences_of_plan hedits.plan).mpr hfences⟩
  single := by
    rw [hcalls]
    exact h.single

/-! ### Taking up an exception -/

/-- The timer of an action is cancelled. -/
theorem cancel (h : g.Watched apart e due none) (x : ActionId) :
    g.Watched apart ({ e with timers := e.timers.cancel x } : Engine ε) due (some x) where
  awaited hapart id hid hexec := by
    have hne : id ≠ x := fun heq => hid (heq ▸ rfl)
    rcases h.awaited hapart id (by simp) hexec with hcall | ⟨hfences, harmed | hdue⟩
    · exact .inl hcall
    · exact .inr ⟨hfences, .inl ((Timers.isArmed_cancel e.timers x id).mpr ⟨hne, harmed⟩)⟩
    · exact .inr ⟨hfences, .inr hdue⟩
  armed id hid := h.armed id ((Timers.isArmed_cancel e.timers x id).mp hid).2
  expired := h.expired
  calls := h.calls
  single := h.single

/-- A timer that has expired is reported. -/
theorem report (h : g.Watched apart e due none) (x : ActionId) :
    g.Watched apart e (due.filter (· ≠ x)) (some x) where
  awaited hapart id hid hexec := by
    have hne : id ≠ x := fun heq => hid (heq ▸ rfl)
    rcases h.awaited hapart id (by simp) hexec with hcall | ⟨hfences, harmed | hdue⟩
    · exact .inl hcall
    · exact .inr ⟨hfences, .inl harmed⟩
    · exact .inr ⟨hfences, .inr (List.mem_filter.mpr ⟨hdue, by simpa using hne⟩)⟩
  armed id hid := by
    obtain ⟨hdue, hexec, hfences⟩ := h.armed id hid
    exact ⟨fun hmem => hdue (List.mem_filter.mp hmem).1, hexec, hfences⟩
  expired id hid := h.expired id (List.mem_filter.mp hid).1
  calls := h.calls
  single := h.single

/-- A fencing request is taken from the table. -/
theorem erase (h : g.Watched apart e due none) {call : Nat} {fence : FenceCall}
    (hget : e.fenceCalls.get? call = some fence) :
    g.Watched apart ({ e with fenceCalls := e.fenceCalls.erase call } : Engine ε) due
      (some fence.action) := by
  have hleft {n : Nat} {f : FenceCall} (hf : (e.fenceCalls.erase call).get? n = some f) :
      e.fenceCalls.get? n = some f := by
    rw [Table.get?_erase] at hf
    split at hf
    · cases hf
    · exact hf
  refine ⟨fun hapart id hid hexec => ?_, h.armed, h.expired, fun n f hf => h.calls n f (hleft hf),
    fun n n' f f' hf hf' => h.single n n' f f' (hleft hf) (hleft hf')⟩
  rcases h.awaited hapart id (by simp) hexec with ⟨hfences, n, f, hf, rfl⟩ | htimer
  · refine .inl ⟨hfences, n, f, ?_, rfl⟩
    have hne : n ≠ call := by
      rintro rfl
      rw [hget, Option.some.injEq] at hf
      exact hid (hf ▸ rfl)
    rw [Table.get?_erase, if_neg hne]
    exact hf
  · exact .inr htimer

/-- A fencing has no timer. -/
theorem unarmed_of_call (h : g.Watched apart e due except) {call : Nat} {fence : FenceCall}
    (hget : e.fenceCalls.get? call = some fence) : e.timers.isArmed fence.action = false := by
  refine Bool.eq_false_iff.mpr fun harmed => ?_
  exact (h.armed _ harmed).2.2 (h.calls call fence hget).2.2

/-- The engine does not wait for an action that is pending. -/
theorem ignores (h : g.Watched apart e due none) (hx : g.statusOf x = some .pending) :
    e.Ignores due x where
  unarmed := by
    refine Bool.eq_false_iff.mpr fun harmed => ?_
    have := (h.armed x harmed).2.1
    rw [hx] at this
    cases this
  unexpired := fun hdue => (h.expired x hdue).statusOf hx
  uncalled := by
    rintro call fence hget rfl
    exact (h.calls call fence hget).2.1.statusOf hx

/-- An action whose timer is not armed is given a status other than pending. -/
theorem setStatusAt (h : g.Watched apart e due (some x)) (hw : g.WellFormed) {slot : Nat}
    {a : Action} (ha : g.actions[slot]? = some a) (hid : a.id = x)
    (hx : e.timers.isArmed x = false) {status : ActionStatus} (hstatus : status ≠ .pending) :
    (g.setStatusAt slot status).Watched apart e due (some x) := by
  have hplan := plan_setStatusAt g slot status
  have hother {id : ActionId} (hne : id ≠ x) :
      (g.setStatusAt slot status).statusOf id = g.statusOf id := by
    rw [statusOf_setStatusAt hw ha, if_neg (hid ▸ hne)]
  refine ⟨fun hapart id hne hexec => ?_, fun id harmed => ?_,
    fun id hdue => (h.expired id hdue).setStatusAt hstatus, fun call fence hget => ?_, h.single⟩
  · have := h.awaited hapart id hne (hother (fun heq => hne (heq ▸ rfl)) ▸ hexec)
    simpa only [Engine.Awaits, fences_of_plan hplan] using this
  · have hne : id ≠ x := by
      rintro rfl
      rw [hx] at harmed
      cases harmed
    have := h.armed id harmed
    simpa only [hother hne, fences_of_plan hplan] using this
  · obtain ⟨htransition, hbegun, hfences⟩ := h.calls call fence hget
    exact ⟨htransition, hbegun.setStatusAt hstatus, (fences_of_plan hplan).mpr hfences⟩

/-! ### Beginning to wait -/

/-- A timer is armed for the exception, which runs. -/
theorem arm (h : g.Watched apart e due (some x)) (hx : g.statusOf x = some .executed)
    (hfences : ¬ g.Fences x) (hdue : x ∉ due) (span : Duration) :
    g.Watched apart ({ e with timers := e.timers.set x span } : Engine ε) due none where
  awaited hapart id _ hexec := by
    by_cases hid : id = x
    · subst hid
      exact .inr ⟨hfences, .inl ((Timers.isArmed_set e.timers id span id).mpr (.inl rfl))⟩
    · rcases h.awaited hapart id (fun heq => hid (Option.some.inj heq).symm) hexec with
        hcall | ⟨hfence, harmed | hexpired⟩
      · exact .inl hcall
      · exact .inr ⟨hfence, .inl ((Timers.isArmed_set e.timers x span id).mpr (.inr harmed))⟩
      · exact .inr ⟨hfence, .inr hexpired⟩
  armed id hid := by
    rcases (Timers.isArmed_set e.timers x span id).mp hid with rfl | harmed
    · exact ⟨hdue, hx, hfences⟩
    · exact h.armed id harmed
  expired := h.expired
  calls := h.calls
  single := h.single

/-- A request is made to fence a node on behalf of the exception. -/
theorem ask (h : g.Watched apart e due (some x)) (hx : g.statusOf x = some .executed)
    (hfences : g.Fences x) (huncalled : ∀ call fence, e.fenceCalls.get? call = some fence →
      fence.action ≠ x) {call : Nat} (hnew : apart → e.fenceCalls.get? call = none)
    {fence : FenceCall} (haction : fence.action = x) (htransition : fence.transition = g.id) :
    g.Watched apart ({ e with fenceCalls := e.fenceCalls.insert call fence } : Engine ε) due
      none := by
  have hget {n : Nat} {f : FenceCall} (hf : (e.fenceCalls.insert call fence).get? n = some f) :
      n = call ∧ f = fence ∨ e.fenceCalls.get? n = some f ∧ n ≠ call := by
    rw [Table.get?_insert] at hf
    split at hf
    · exact .inl ⟨‹_›, (Option.some.inj hf).symm⟩
    · exact .inr ⟨hf, ‹_›⟩
  refine ⟨fun hapart id _ hexec => ?_, h.armed, h.expired, fun n f hf => ?_, ?_⟩
  · by_cases hid : id = x
    · refine .inl ⟨hid ▸ hfences, call, fence, ?_, haction.trans hid.symm⟩
      rw [Table.get?_insert, if_pos rfl]
    · rcases h.awaited hapart id (fun heq => hid (Option.some.inj heq).symm) hexec with
        ⟨hfence, n, f, hf, hfid⟩ | htimer
      · refine .inl ⟨hfence, n, f, ?_, hfid⟩
        have hne : n ≠ call := by
          rintro rfl
          rw [hnew hapart] at hf
          cases hf
        rw [Table.get?_insert, if_neg hne]
        exact hf
      · exact .inr htimer
  · rcases hget hf with ⟨rfl, rfl⟩ | ⟨hold, -⟩
    · refine ⟨htransition, begun_of_statusOf ?_, haction ▸ hfences⟩
      rw [haction, hx]
      simp
    · exact h.calls n f hold
  · intro n n' f f' hf hf' heq
    rcases hget hf with ⟨rfl, rfl⟩ | ⟨hold, -⟩ <;> rcases hget hf' with ⟨rfl, rfl⟩ | ⟨hold', -⟩
    · rfl
    · exact absurd (heq.symm.trans haction) (huncalled n' f' hold')
    · exact absurd (heq.trans haction) (huncalled n f hold)
    · exact h.single n n' f f' hold hold' heq

end Graph.Watched
end ClusterTransition
