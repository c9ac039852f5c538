import ClusterTransition.Sorting
import Mathlib.Logic.Relation

/-! # Exchanges and stable sorting

Sorting by a key forgets in which order elements with different keys came, and nothing else.  An
exchange swaps two neighbours with different keys.  Exchanges do not change the sorted list
(`Exchange.sortByKey_eq`), and they are enough to sort a list (`exchanges_sortByKey`).  What was in
order before is in order by the key first and then as before (`sortByKey_pairwise`).
-/

namespace ClusterTransition

variable {α κ : Type} {key : α → κ}

/-- Two neighbours with different keys change places. -/
inductive Exchange (key : α → κ) : List α → List α → Prop where
  | swap (front : List α) {x y : α} (back : List α) (h : key x ≠ key y) :
      Exchange key (front ++ x :: y :: back) (front ++ y :: x :: back)

/-- Several exchanges. -/
abbrev Exchanges (key : α → κ) : List α → List α → Prop := Relation.ReflTransGen (Exchange key)

theorem Exchange.cons {l l' : List α} (h : Exchange key l l') (x : α) :
    Exchange key (x :: l) (x :: l') := by
  obtain ⟨front, back, hne⟩ := h
  exact .swap (x :: front) back hne

theorem Exchanges.cons {l l' : List α} (h : Exchanges key l l') (x : α) :
    Exchanges key (x :: l) (x :: l') :=
  h.lift (x :: ·) fun _ _ hstep => hstep.cons x

variable [Ord κ]

/-! ## Sorting by exchanges -/

/-- An element that is inserted passes elements with smaller keys only. -/
theorem exchanges_insertByKey [Std.ReflOrd κ] (x : α) (l : List α) :
    Exchanges key (x :: l) (insertByKey key x l) := by
  induction l with
  | nil => exact .refl
  | cons y l ih =>
    simp only [insertByKey]
    split
    · rename_i hgt
      have hne : key x ≠ key y := by
        intro heq
        simp [heq] at hgt
      exact .head (.swap [] l hne) (ih.cons y)
    · exact .refl

/-- **Exchanges sort a list.** -/
theorem exchanges_sortByKey [Std.ReflOrd κ] (l : List α) :
    Exchanges key l (sortByKey key l) := by
  induction l with
  | nil => exact .refl
  | cons x l ih => exact (ih.cons x).trans (exchanges_insertByKey x _)

/-! ## Exchanges before sorting -/

variable [Std.TransOrd κ]

/-- An element with a smaller key may be inserted before or after one with a larger key. -/
theorem insertByKey_comm_of_lt {x y : α} (h : compare (key x) (key y) = .lt) (l : List α) :
    insertByKey key x (insertByKey key y l) = insertByKey key y (insertByKey key x l) := by
  have hgt : compare (key y) (key x) = .gt := Std.OrientedCmp.gt_iff_lt.mpr h
  induction l with
  | nil => simp [insertByKey, h, hgt]
  | cons z l ih =>
    by_cases hx : compare (key x) (key z) = .gt
    · have hy : compare (key y) (key z) = .gt := Std.TransCmp.gt_trans hgt hx
      simp [insertByKey, hx, hy, ih]
    · by_cases hy : compare (key y) (key z) = .gt
      · simp [insertByKey, hx, hy, hgt]
      · simp [insertByKey, hx, hy, h, hgt]

/-! ## The order of a sorted list -/

/-- The key decides, and among equal keys the order that was there before. -/
def KeyedThen (key : α → κ) (R : α → α → Prop) (x y : α) : Prop :=
  compare (key x) (key y) = .lt ∨ compare (key x) (key y) = .eq ∧ R x y

/-- An element that comes before all others may be inserted by its key. -/
theorem insertByKey_pairwise {R : α → α → Prop} {x : α} {l : List α}
    (h : l.Pairwise (KeyedThen key R)) (hx : ∀ y ∈ l, R x y) :
    (insertByKey key x l).Pairwise (KeyedThen key R) := by
  induction l with
  | nil => simp [insertByKey]
  | cons y l ih =>
    obtain ⟨hy, hl⟩ := List.pairwise_cons.mp h
    obtain ⟨hxy, hxl⟩ := List.forall_mem_cons.mp hx
    simp only [insertByKey]
    split
    · rename_i hgt
      refine List.pairwise_cons.mpr ⟨fun z hz => ?_, ih hl hxl⟩
      rcases List.mem_cons.mp ((insertByKey_perm key x l).mem_iff.mp hz) with rfl | hz
      · exact .inl (Std.OrientedCmp.gt_iff_lt.mp hgt)
      · exact hy z hz
    · rename_i hgt
      have hle : (compare (key x) (key y)).isLE := by
        cases hc : compare (key x) (key y) <;> simp [hc] at hgt ⊢
      refine List.pairwise_cons.mpr ⟨fun z hz => ?_, h⟩
      -- every later key is at least that of `y`
      have hyz : (compare (key y) (key z)).isLE := by
        rcases List.mem_cons.mp hz with rfl | hz
        · simp
        · rcases hy z hz with hlt | ⟨heq, -⟩
          · simp [hlt]
          · simp [heq]
      have hxz := Std.TransCmp.isLE_trans hle hyz
      cases hc : compare (key x) (key z) with
      | lt => exact .inl hc
      | eq => exact .inr ⟨hc, hx z hz⟩
      | gt => simp [hc] at hxz

/-- **A sorted list is in order by the key, and among equal keys as before.** -/
theorem sortByKey_pairwise {R : α → α → Prop} {l : List α} (h : l.Pairwise R) :
    (sortByKey key l).Pairwise (KeyedThen key R) := by
  induction l with
  | nil => exact .nil
  | cons x l ih =>
    obtain ⟨hx, hl⟩ := List.pairwise_cons.mp h
    exact insertByKey_pairwise (ih hl) fun y hy => hx y ((sortByKey_perm key l).mem_iff.mp hy)

/-! ## Exchanges do not matter -/

variable [Std.LawfulEqOrd κ]

/-- Two elements with different keys may be inserted in either order. -/
theorem insertByKey_comm {x y : α} (h : key x ≠ key y) (l : List α) :
    insertByKey key x (insertByKey key y l) = insertByKey key y (insertByKey key x l) := by
  cases hxy : compare (key x) (key y) with
  | lt => exact insertByKey_comm_of_lt hxy l
  | eq => exact absurd (Std.LawfulEqCmp.eq_of_compare hxy) h
  | gt => exact (insertByKey_comm_of_lt (Std.OrientedCmp.gt_iff_lt.mp hxy) l).symm

/-- **An exchange does not change the sorted list.** -/
theorem Exchange.sortByKey_eq {l l' : List α} (h : Exchange key l l') :
    sortByKey key l = sortByKey key l' := by
  obtain ⟨front, back, hne⟩ := h
  induction front with
  | nil => exact insertByKey_comm hne _
  | cons z front ih => exact congrArg (insertByKey key z) ih

end ClusterTransition
