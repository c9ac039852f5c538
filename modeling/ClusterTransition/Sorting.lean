/-! # Stable sorting

Sorts a list by a key.  Elements with equal keys keep the order that they have, so the result is
fixed by the list alone.
-/

namespace ClusterTransition

variable {α κ : Type} [Ord κ]

/-- Puts `x` in front of the first element whose key is not smaller. -/
def insertByKey (key : α → κ) (x : α) : List α → List α
  | [] => [x]
  | y :: ys => if compare (key x) (key y) = .gt then y :: insertByKey key x ys else x :: y :: ys

/-- Sorts a list by increasing key. -/
def sortByKey (key : α → κ) : List α → List α
  | [] => []
  | x :: xs => insertByKey key x (sortByKey key xs)

theorem insertByKey_perm (key : α → κ) (x : α) (l : List α) :
    (insertByKey key x l).Perm (x :: l) := by
  induction l with
  | nil => exact .refl _
  | cons y ys ih =>
    simp only [insertByKey]
    split
    · exact (List.Perm.cons y ih).trans (List.Perm.swap x y ys)
    · exact .refl _

/-- Sorting keeps the elements. -/
theorem sortByKey_perm (key : α → κ) (l : List α) : (sortByKey key l).Perm l := by
  induction l with
  | nil => exact .refl _
  | cons x xs ih => exact (insertByKey_perm key x _).trans (List.Perm.cons x ih)

end ClusterTransition
