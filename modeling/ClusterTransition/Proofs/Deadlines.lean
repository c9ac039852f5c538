import ClusterTransition.Proofs.Sorting
import ClusterTransition.Proofs.Timers
import Mathlib.Order.Bounds.Basic

/-! # Deadlines

Moving the clock to a time answers whose deadline that time has reached, each once and in order, and
leaves the others armed (`Timers.MovedTo`).  This says all about the move: only one answer and one
state satisfy it (`MovedTo.unique`), and two moves make one (`MovedTo.trans`).  So it does not
matter in how many steps a span passes, even where the clock has stopped at the longest span and
deadlines that were different have become the same.

That a deadline is never in the past is an invariant (`Timers.Sound`).  It is what lets the clock
jump to the next deadline exactly.
-/

namespace ClusterTransition

namespace Duration

theorem saturatingAdd_le_longest (a b : Duration) : a.saturatingAdd b ≤ longest :=
  Nat.min_le_right ..

theorem le_saturatingAdd {a : Duration} (h : a ≤ longest) (b : Duration) :
    a ≤ a.saturatingAdd b :=
  Nat.le_min.mpr ⟨Nat.le_add_right a b, h⟩

/-- Sums that stop at the longest span may be taken in either order. -/
theorem saturatingAdd_assoc (a b c : Duration) :
    (a.saturatingAdd b).saturatingAdd c = a.saturatingAdd (b.saturatingAdd c) := by
  have hmin (a b c l : Nat) : min (min (a + b) l + c) l = min (a + min (b + c) l) l := by omega
  exact hmin a b c longest

/-- The way to a later time. -/
theorem saturatingAdd_sub {a b : Duration} (h : a ≤ b) (hb : b ≤ longest) :
    a.saturatingAdd (b - a) = b := by
  rw [saturatingAdd, Nat.add_sub_cancel' h]
  exact Nat.min_eq_left hb

end Duration

namespace Timers

variable {t : Timers} {time : Duration} {out : List Int × Timers}

/-! ## Moving the clock -/

/-- The timer of `a` runs out before the one of `b`: its deadline is earlier, or it is the same and
the id is smaller. -/
def Before (t : Timers) (a b : Int) : Prop :=
  ∃ x y, t.deadlines.get? a = some x ∧ t.deadlines.get? b = some y ∧ (x < y ∨ x = y ∧ a < b)

theorem Before.asymm {a b : Int} (h : t.Before a b) : ¬ t.Before b a := by
  rintro ⟨y, x, hy, hx, hba⟩
  obtain ⟨x', y', hx', hy', hab⟩ := h
  obtain rfl := Option.some.inj (hx.symm.trans hx')
  obtain rfl := Option.some.inj (hy.symm.trans hy')
  rcases hab with hlt | ⟨rfl, hid⟩
  · rcases hba with hlt' | ⟨rfl, -⟩
    · exact Nat.lt_asymm hlt hlt'
    · exact Nat.lt_irrefl _ hlt
  · rcases hba with hlt' | ⟨-, hid'⟩
    · exact Nat.lt_irrefl _ hlt'
    · exact Int.lt_asymm hid hid'

/-- The clock was moved to a time: whose timers ran out, and the timers that are left. -/
structure MovedTo (t : Timers) (time : Duration) (out : List Int × Timers) : Prop where
  now : out.2.now = time
  /-- Exactly the timers ran out whose deadline is reached, -/
  due : ∀ id, id ∈ out.1 ↔ ∃ deadline ≤ time, t.deadlines.get? id = some deadline
  /-- each once, -/
  once : out.1.Nodup
  /-- by deadline and then by id. -/
  ordered : out.1.Pairwise t.Before
  /-- The others keep their deadlines. -/
  left : ∀ id deadline, out.2.deadlines.get? id = some deadline ↔
    time < deadline ∧ t.deadlines.get? id = some deadline

/-- The timers that are due are in order. -/
theorem dueAt_ordered (t : Timers) (time : Duration) : (t.dueAt time).Pairwise t.Before := by
  refine List.pairwise_map.mpr ?_
  have hentries := t.deadlines.sorted.filter fun e => decide (e.2 ≤ time)
  refine List.Pairwise.imp_of_mem ?_ (sortByKey_pairwise hentries)
  intro e e' he he' h
  have harmed {e : Int × Duration}
      (he : e ∈ sortByKey (·.2) (t.deadlines.entries.filter fun e => decide (e.2 ≤ time))) :
      t.deadlines.get? e.1 = some e.2 :=
    Table.get?_eq_some_iff.mpr (List.mem_of_mem_filter ((sortByKey_perm _ _).mem_iff.mp he))
  refine ⟨e.2, e'.2, harmed he, harmed he', ?_⟩
  rcases h with hlt | ⟨heq, hid⟩
  · exact .inl (Nat.compare_eq_lt.mp hlt)
  · exact .inr ⟨Nat.compare_eq_eq.mp heq, Int.compare_eq_lt.mp hid⟩

/-- **Advancing moves the clock.** -/
theorem advance_movedTo (t : Timers) (span : Duration) :
    t.MovedTo (t.now.saturatingAdd span) (t.advance span) := by
  have hordered := t.dueAt_ordered (t.now.saturatingAdd span)
  refine ⟨rfl, fun id => ?_, ?_, hordered, fun id deadline => ?_⟩
  · simp only [advance, mem_dueAt, and_comm]
  · refine hordered.imp fun h heq => ?_
    exact (heq ▸ h).asymm (heq ▸ h)
  · simp only [advance, Table.get?_filter_eq_some_iff, Bool.not_eq_eq_eq_not, Bool.not_true,
      decide_eq_false_iff_not, Nat.not_le, and_comm]

/-- A move of the clock has one outcome. -/
theorem MovedTo.unique {out' : List Int × Timers} (h : t.MovedTo time out)
    (h' : t.MovedTo time out') : out = out' := by
  have hperm : out.1.Perm out'.1 := by
    refine (List.perm_ext_iff_of_nodup h.once h'.once).mpr fun id => ?_
    rw [h.due, h'.due]
  have hlist : out.1 = out'.1 :=
    List.Perm.eq_of_pairwise (fun _ _ _ _ hab hba => absurd hba hab.asymm) h.ordered h'.ordered
      hperm
  have hdeadlines : out.2.deadlines = out'.2.deadlines := by
    refine Table.ext_get? fun id => Option.ext fun deadline => ?_
    rw [h.left, h'.left]
  have htimers : out.2 = out'.2 := by
    have hnow := h.now.trans h'.now.symm
    cases htimers : out.2
    cases htimers' : out'.2
    simp_all
  exact Prod.ext hlist htimers

/-- **Two moves of the clock make one.** -/
theorem MovedTo.trans {later : Duration} {out' : List Int × Timers} (h : t.MovedTo time out)
    (hle : time ≤ later) (h' : out.2.MovedTo later out') :
    t.MovedTo later (out.1 ++ out'.1, out'.2) := by
  have hdue' : ∀ id, id ∈ out'.1 ↔
      ∃ deadline ≤ later, time < deadline ∧ t.deadlines.get? id = some deadline := by
    intro id
    simp only [h'.due, h.left]
  refine ⟨h'.now, fun id => ?_, ?_, ?_, fun id deadline => ?_⟩
  · rw [List.mem_append, h.due, hdue']
    constructor
    · rintro (⟨deadline, hreached, hget⟩ | ⟨deadline, hreached, -, hget⟩)
      · exact ⟨deadline, hreached.trans hle, hget⟩
      · exact ⟨deadline, hreached, hget⟩
    · rintro ⟨deadline, hreached, hget⟩
      by_cases hearly : deadline ≤ time
      · exact .inl ⟨deadline, hearly, hget⟩
      · exact .inr ⟨deadline, hreached, Nat.not_le.mp hearly, hget⟩
  · refine List.nodup_append.mpr ⟨h.once, h'.once, ?_⟩
    rintro id hid _ hid' rfl
    obtain ⟨x, hx, hget⟩ := (h.due id).mp hid
    obtain ⟨y, -, hy, hget'⟩ := (hdue' id).mp hid'
    obtain rfl := Option.some.inj (hget.symm.trans hget')
    exact Nat.not_lt.mpr hx hy
  · refine List.pairwise_append.mpr ⟨h.ordered, h'.ordered.imp ?_, fun a ha b hb => ?_⟩
    · rintro a b ⟨x, y, hx, hy, hbefore⟩
      exact ⟨x, y, ((h.left a x).mp hx).2, ((h.left b y).mp hy).2, hbefore⟩
    · obtain ⟨x, hx, hget⟩ := (h.due a).mp ha
      obtain ⟨y, -, hy, hget'⟩ := (hdue' b).mp hb
      exact ⟨x, y, hget, hget', .inl (Nat.lt_of_le_of_lt hx hy)⟩
  · rw [h'.left, h.left]
    constructor
    · rintro ⟨hlate, -, hget⟩
      exact ⟨hlate, hget⟩
    · rintro ⟨hlate, hget⟩
      exact ⟨hlate, Nat.lt_of_le_of_lt hle hlate, hget⟩

end Timers

/-! ## Steps -/

/-- What can be done with timers. -/
inductive TimerStep where
  | set (id : Int) (after : Duration)
  | cancel (id : Int)
  | advance (span : Duration)
  | expireNext

namespace TimerStep

/-- What a step does. -/
def make : TimerStep → Timers → Timers
  | set id after, t => t.set id after
  | cancel id, t => t.cancel id
  | advance span, t => (t.advance span).2
  | expireNext, t => t.expireNext.2

/-- What several steps do. -/
def makeAll (steps : List TimerStep) (t : Timers) : Timers :=
  steps.foldl (fun t step => step.make t) t

end TimerStep

namespace Timers

variable {t : Timers}

/-- The clock is within its range, and no deadline is in the past. -/
structure Sound (t : Timers) : Prop where
  now : t.now ≤ Duration.longest
  deadlines : ∀ id deadline, t.deadlines.get? id = some deadline →
    t.now ≤ deadline ∧ deadline ≤ Duration.longest

/-- A deadline that is left when the clock is moved is in the future. -/
theorem MovedTo.sound {time : Duration} {out : List Int × Timers} (h : t.MovedTo time out)
    (ht : t.Sound) (htime : time ≤ Duration.longest) : out.2.Sound := by
  refine ⟨h.now ▸ htime, fun id deadline hget => ?_⟩
  obtain ⟨hlate, hget⟩ := (h.left id deadline).mp hget
  exact ⟨h.now ▸ Nat.le_of_lt hlate, (ht.deadlines id deadline hget).2⟩

theorem Sound.set (h : t.Sound) (id : Int) (after : Duration) : (t.set id after).Sound := by
  refine ⟨h.now, fun x deadline hget => ?_⟩
  rw [Timers.set, Table.get?_insert] at hget
  split at hget
  · cases hget
    exact ⟨Duration.le_saturatingAdd h.now after, Duration.saturatingAdd_le_longest ..⟩
  · exact h.deadlines x deadline hget

theorem Sound.cancel (h : t.Sound) (id : Int) : (t.cancel id).Sound := by
  refine ⟨h.now, fun x deadline hget => ?_⟩
  rw [Timers.cancel, Table.get?_erase] at hget
  split at hget
  · cases hget
  · exact h.deadlines x deadline hget

/-! ## The next deadline -/

/-- The clock was moved to the next deadline, if there is one: whose timers ran out, and the timers
that are left. -/
inductive MovedOn (t : Timers) : List Int × Timers → Prop where
  | idle (unarmed : ∀ id, t.deadlines.get? id = none) : MovedOn t ([], t)
  | next {deadline : Duration} {out : List Int × Timers}
      (least : IsLeast { x | ∃ id, t.deadlines.get? id = some x } deadline)
      (moved : t.MovedTo deadline out)
      (due : ∀ id, id ∈ out.1 ↔ t.deadlines.get? id = some deadline)
      (nonempty : out.1 ≠ []) : MovedOn t out

theorem mem_values {deadline : Duration} :
    deadline ∈ t.deadlines.values ↔ ∃ id, t.deadlines.get? id = some deadline := by
  simp only [Table.values, List.mem_map, Prod.exists, Table.get?_eq_some_iff, exists_eq_right]

theorem Sound.expireNext_movedOn (h : t.Sound) : t.MovedOn t.expireNext := by
  simp only [Timers.expireNext]
  split
  · rename_i hnone
    have hempty : t.deadlines.values = [] := List.min?_eq_none_iff.mp hnone
    refine .idle fun id => Option.eq_none_iff_forall_ne_some.mpr fun deadline hget => ?_
    have hmem := mem_values.mpr ⟨id, hget⟩
    rw [hempty] at hmem
    cases hmem
  · rename_i deadline hsome
    obtain ⟨hmem, hleast⟩ := List.min?_eq_some_iff.mp hsome
    obtain ⟨id, hget⟩ := mem_values.mp hmem
    obtain ⟨hfuture, hrange⟩ := h.deadlines id deadline hget
    have hmoved := t.advance_movedTo (deadline - t.now)
    rw [Duration.saturatingAdd_sub hfuture hrange] at hmoved
    have hdue : ∀ x, x ∈ (t.advance (deadline - t.now)).1 ↔
        t.deadlines.get? x = some deadline := by
      intro x
      rw [hmoved.due]
      constructor
      · rintro ⟨y, hle, hy⟩
        rw [hy, Nat.le_antisymm hle (hleast y (mem_values.mpr ⟨x, hy⟩))]
      · exact fun hx => ⟨deadline, Nat.le_refl _, hx⟩
    refine .next ⟨⟨id, hget⟩, ?_⟩ hmoved hdue (List.ne_nil_of_mem ((hdue id).mpr hget))
    rintro y ⟨x, hy⟩
    exact hleast y (mem_values.mpr ⟨x, hy⟩)

/-- **Each step keeps the deadlines in the future.** -/
theorem Sound.make (h : t.Sound) (step : TimerStep) : (step.make t).Sound := by
  cases step with
  | set id after => exact h.set id after
  | cancel id => exact h.cancel id
  | advance span =>
    exact (t.advance_movedTo span).sound h (Duration.saturatingAdd_le_longest ..)
  | expireNext =>
    have hmoved := h.expireNext_movedOn
    simp only [TimerStep.make]
    generalize t.expireNext = out at hmoved ⊢
    cases hmoved with
    | idle => exact h
    | next least moved =>
      obtain ⟨id, hget⟩ := least.1
      exact moved.sound h (h.deadlines id _ hget).2

theorem Sound.makeAll (h : t.Sound) (steps : List TimerStep) :
    (TimerStep.makeAll steps t).Sound := by
  induction steps generalizing t with
  | nil => exact h
  | cons step steps ih => exact ih (h.make step)

theorem sound_new : ({} : Timers).Sound :=
  ⟨Nat.zero_le _, fun _ _ hget => by cases hget⟩

/-- **Timers lose, repeat and reorder nothing.**  Take timers after any steps from the start.  No
deadline is in the past.  A span may pass in two parts: the timers are the same in the end, and the
two answers make the one.  Advancing moves the clock by the span and answers the timers that are due
then; and expiring moves it to the smallest deadline, if there is one, and answers the timers that
have it. -/
theorem passes_exactly (steps : List TimerStep) :
    let t := TimerStep.makeAll steps {}
    (∀ id deadline, t.deadlines.get? id = some deadline → t.now ≤ deadline) ∧
    (∀ first second : Duration,
      ((t.advance first).1 ++ ((t.advance first).2.advance second).1,
        ((t.advance first).2.advance second).2) = t.advance (first.saturatingAdd second)) ∧
    (∀ span, t.MovedTo (t.now.saturatingAdd span) (t.advance span)) ∧
    t.MovedOn t.expireNext := by
  have hsound := sound_new.makeAll steps
  refine ⟨fun id deadline hget => (hsound.deadlines id deadline hget).1, fun first second => ?_,
    advance_movedTo _, hsound.expireNext_movedOn⟩
  generalize TimerStep.makeAll steps {} = t at hsound
  have hfirst := t.advance_movedTo first
  have hsecond := (t.advance first).2.advance_movedTo second
  rw [hfirst.now, Duration.saturatingAdd_assoc] at hsecond
  have hlater : t.now.saturatingAdd first ≤ t.now.saturatingAdd (first.saturatingAdd second) := by
    rw [← Duration.saturatingAdd_assoc]
    exact Duration.le_saturatingAdd (Duration.saturatingAdd_le_longest ..) second
  exact (hfirst.trans hlater hsecond).unique (t.advance_movedTo _)

/-- Two spans that differ lead to one deadline where the sums stop at the longest span.  The next
deadline is that of both. -/
theorem saturated_passes_exactly :
    let t := TimerStep.makeAll
      [.advance 10, .set 2 Duration.longest, .set 1 (Duration.longest - 5)] {}
    t.deadlines.get? 2 = some Duration.longest ∧ t.now ≤ Duration.longest ∧
      t.expireNext = ([1, 2], { now := Duration.longest }) ∧ t.MovedOn t.expireNext := by
  intro t
  have hget : t.deadlines.get? 2 = some Duration.longest := by decide +kernel
  have hexact := passes_exactly
    [.advance 10, .set 2 Duration.longest, .set 1 (Duration.longest - 5)]
  exact ⟨hget, hexact.1 2 _ hget, by decide +kernel, hexact.2.2.2⟩

end Timers
end ClusterTransition
