import ClusterTransition.Timers
import Mathlib.Data.List.Basic

/-! # Which timers are armed

Setting a timer arms it, cancelling disarms it, and moving the clock forward disarms exactly the
timers that it reports as due (`Timers.advance_expires`).
-/

namespace ClusterTransition

/-! ## Entries of a table -/

namespace Table

variable {κ β : Type} [Ord κ] [DecidableEq κ] [Std.LawfulEqOrd κ]

/-- What a table answers under a key is the entry with that key. -/
theorem get?_eq_some_iff {t : Table κ β} {k : κ} {v : β} :
    t.get? k = some v ↔ (k, v) ∈ t.entries := by
  have hfind {entries : List (κ × β)}
      (hsorted : entries.Pairwise fun a b => compare a.1 b.1 = .lt) :
      find k entries = some v ↔ (k, v) ∈ entries := by
    induction entries with
    | nil => simp [find]
    | cons e rest ih =>
      obtain ⟨hhead, hrest⟩ := List.pairwise_cons.mp hsorted
      rw [find_cons, List.mem_cons, ← ih hrest]
      by_cases hk : k = e.1
      · -- no later entry has the key of the first
        have hnone : find e.1 rest = none := find_eq_none_of_lt hhead
        rw [if_pos hk, hk, hnone, Option.some.injEq, Prod.ext_iff]
        simp [eq_comm]
      · rw [if_neg hk, Prod.ext_iff]
        simp [hk]
  exact hfind t.sorted

/-- Filtering a table keeps the entries that pass the test. -/
theorem get?_filter_eq_some_iff {t : Table κ β} {p : κ → β → Bool} {k : κ} {v : β} :
    (t.filter p).get? k = some v ↔ t.get? k = some v ∧ p k v = true := by
  simp only [get?_eq_some_iff, filter, List.mem_filter]

theorem mem_keys {t : Table κ β} {k : κ} : k ∈ t.keys ↔ t.get? k ≠ none := by
  simp only [keys, List.mem_map, Prod.exists, ← get?_eq_some_iff, Option.ne_none_iff_exists',
    exists_and_right, exists_eq_right]

omit [DecidableEq κ] [Std.LawfulEqOrd κ] in
/-- No key has two entries. -/
theorem keys_nodup [Std.ReflOrd κ] (t : Table κ β) : t.keys.Nodup :=
  List.pairwise_map.mpr (t.sorted.imp fun hlt heq => by simp [heq] at hlt)

end Table

namespace Timers

variable (t : Timers)

theorem isArmed_iff {t : Timers} {id : Int} :
    t.isArmed id = true ↔ ∃ deadline, t.deadlines.get? id = some deadline :=
  Option.isSome_iff_exists

theorem isArmed_set (id : Int) (after : Duration) (x : Int) :
    (t.set id after).isArmed x = true ↔ x = id ∨ t.isArmed x = true := by
  simp only [isArmed, set, Table.contains, Table.get?_insert]
  by_cases h : x = id
  · simp [h]
  · simp [h]

theorem isArmed_cancel (id x : Int) :
    (t.cancel id).isArmed x = true ↔ x ≠ id ∧ t.isArmed x = true := by
  simp only [isArmed, cancel, Table.contains, Table.get?_erase]
  by_cases h : x = id
  · simp [h]
  · simp [h]

theorem cancel_cancel (id : Int) : (t.cancel id).cancel id = t.cancel id := by
  refine congrArg (Timers.mk t.now) (Table.ext_get? fun x => ?_)
  simp only [cancel, Table.get?_erase]
  split <;> rfl

/-- Two timers may be cancelled in either order. -/
theorem cancel_comm (id id' : Int) : (t.cancel id).cancel id' = (t.cancel id').cancel id :=
  congrArg (Timers.mk t.now) (t.deadlines.erase_comm id id')

/-- The timers that are due are those that are armed with a deadline in reach. -/
theorem mem_dueAt {time : Duration} {id : Int} :
    id ∈ t.dueAt time ↔ ∃ deadline, t.deadlines.get? id = some deadline ∧ deadline ≤ time := by
  simp only [dueAt, List.mem_map, (sortByKey_perm _ _).mem_iff, List.mem_filter, decide_eq_true_eq,
    Table.get?_eq_some_iff]
  constructor
  · rintro ⟨⟨_, deadline⟩, ⟨hmem, hle⟩, rfl⟩
    exact ⟨deadline, hmem, hle⟩
  · rintro ⟨deadline, hmem, hle⟩
    exact ⟨(id, deadline), ⟨hmem, hle⟩, rfl⟩

/-- The timers `out.2` are what is left when those of `out.1` have expired. -/
structure Expires (out : List Int × Timers) : Prop where
  due : ∀ id ∈ out.1, t.isArmed id = true
  rest : ∀ id, out.2.isArmed id = true ↔ t.isArmed id = true ∧ id ∉ out.1

/-- **Moving the clock disarms the timers that are due.** -/
theorem advance_expires (span : Duration) : t.Expires (t.advance span) := by
  refine ⟨fun id hid => ?_, fun id => ?_⟩
  · obtain ⟨deadline, hget, -⟩ := t.mem_dueAt.mp hid
    exact isArmed_iff.mpr ⟨deadline, hget⟩
  · simp only [isArmed_iff, advance, Table.get?_filter_eq_some_iff, mem_dueAt,
      Bool.not_eq_eq_eq_not, Bool.not_true, decide_eq_false_iff_not]
    constructor
    · rintro ⟨deadline, hget, hlate⟩
      refine ⟨⟨deadline, hget⟩, ?_⟩
      rintro ⟨other, hother, hle⟩
      rw [hget, Option.some.injEq] at hother
      exact hlate (hother ▸ hle)
    · rintro ⟨⟨deadline, hget⟩, hlate⟩
      exact ⟨deadline, hget, fun hle => hlate ⟨deadline, hget, hle⟩⟩

theorem expireNext_expires : t.Expires t.expireNext := by
  simp only [expireNext]
  split
  · exact ⟨by simp, by simp⟩
  · exact t.advance_expires _

end Timers
end ClusterTransition
