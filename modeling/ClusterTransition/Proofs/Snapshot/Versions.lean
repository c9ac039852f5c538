import ClusterTransition.Snapshot.Digest
import Mathlib.Data.List.GetD
import Mathlib.Order.Compare
import Mathlib.Order.PiLex

/-! # The order of versions

Versions are compared number by number, and numbers that are missing count as zero.  So a version
stands for the infinite sequence of its numbers with zeros after them (`Version.sequence`), and
versions compare as their sequences do in the lexicographic order (`Version.compare_compares`).  A
part of the text that is no number counts as one all the same, so this holds of any texts.

The lexicographic order of sequences is linear.  That makes the order of versions a total preorder,
in which two versions are as good as equal just if their sequences are; and peers that expect the
second digest are those from a certain place in it on (`digest_follows_version`).
-/

namespace ClusterTransition
namespace Version

/-! ## Sequences of numbers -/

/-- The numbers, and zeros after them. -/
def padded (numbers : List Nat) : Lex (Nat → Nat) := toLex fun i => numbers.getD i 0

/-- The numbers of a version, and zeros after them. -/
def sequence (version : String) : Lex (Nat → Nat) := padded (parts version)

/-- Sequences that begin with the same number compare as what comes after it. -/
theorem toLex_lt_of_tail {f g : Nat → Nat} (hhead : f 0 = g 0)
    (htail : toLex (fun i => f (i + 1)) < toLex fun i => g (i + 1)) : toLex f < toLex g := by
  obtain ⟨i, hsame, hlt⟩ := htail
  refine ⟨i + 1, fun j hj => ?_, hlt⟩
  cases j with
  | zero => exact hhead
  | succ j => exact hsame j (Nat.lt_of_succ_lt_succ hj)

/-- **One step of the comparison**: the first numbers decide, unless they are equal. -/
theorem compares_then {f g : Nat → Nat} {o : Ordering}
    (h : o.Compares (toLex fun i => f (i + 1)) (toLex fun i => g (i + 1))) :
    ((Ord.compare (f 0) (g 0)).then o).Compares (toLex f) (toLex g) := by
  rcases Nat.lt_trichotomy (f 0) (g 0) with hlt | heq | hgt
  · rw [Nat.compare_eq_lt.mpr hlt]
    exact ⟨0, fun j hj => absurd hj (Nat.not_lt_zero j), hlt⟩
  · rw [Nat.compare_eq_eq.mpr heq]
    cases o with
    | lt => exact toLex_lt_of_tail heq h
    | gt => exact toLex_lt_of_tail heq.symm h
    | eq =>
      refine congrArg toLex (funext fun i => ?_)
      cases i with
      | zero => exact heq
      | succ i => exact congrFun (toLex.injective h) i
  · rw [Nat.compare_eq_gt.mpr hgt]
    exact ⟨0, fun j hj => absurd hj (Nat.not_lt_zero j), hgt⟩

/-- **Lists of numbers compare as the sequences that they stand for.** -/
theorem compareParts_compares (xs ys : List Nat) :
    (compareParts xs ys).Compares (padded xs) (padded ys) := by
  induction xs, ys using compareParts.induct with
  | case1 =>
    rw [compareParts]
    rfl
  | case2 x xs ih =>
    rw [compareParts]
    exact compares_then (f := fun i => (x :: xs).getD i 0) (g := fun _ => 0) ih
  | case3 y ys ih =>
    rw [compareParts]
    exact compares_then (f := fun _ => 0) (g := fun i => (y :: ys).getD i 0) ih
  | case4 x xs y ys ih =>
    rw [compareParts]
    exact compares_then (f := fun i => (x :: xs).getD i 0) (g := fun i => (y :: ys).getD i 0) ih

theorem compare_compares (a b : String) :
    (compare a b).Compares (sequence a) (sequence b) :=
  compareParts_compares (parts a) (parts b)

/-! ## Zeros at the end -/

theorem padded_concat_zero (numbers : List Nat) : padded (numbers ++ [0]) = padded numbers := by
  refine congrArg toLex (funext fun i => ?_)
  rcases Nat.lt_or_ge i numbers.length with h | h
  · simp [List.getD, List.getElem?_append_left h]
  · rw [List.getD_eq_default _ _ h, List.getD, List.getElem?_append_right h,
      List.getElem?_getD_singleton_default_eq]

/-- A version with a zero written behind it has the same sequence. -/
theorem sequence_append_zero (version : String) :
    sequence (version ++ ".0") = sequence version := by
  have hsplit : parts (version ++ ".0") = parts version ++ [0] := by
    rw [parts, String.toList_append, show ".0".toList = '.' :: ['0'] from rfl, splitAll_append,
      List.map_append, ← parts]
    rfl
  rw [sequence, hsplit, padded_concat_zero, ← sequence]

theorem sequence_zeros (version : String) (n : Nat) :
    sequence ((· ++ ".0")^[n] version) = sequence version := by
  induction n with
  | zero => rfl
  | succ n ih => rw [Function.iterate_succ_apply', sequence_append_zero, ih]

end Version

open Version (sequence)

/-- **Versions are ordered by their numbers, and the digest follows that order.**  Comparing two
texts the other way round gives the reverse; the order is transitive, whatever the texts; and zeros
written behind versions make no difference.  So if peers with the feature set `v` expect the second
digest, and `w` is no earlier version, then peers with the feature set `w` expect it too, of every
snapshot and with every choice of options. -/
theorem digest_follows_version :
    (∀ a b, Version.compare b a = (Version.compare a b).swap) ∧
    (∀ a b c, Version.compare a b ≠ .gt → Version.compare b c ≠ .gt → Version.compare a c ≠ .gt) ∧
    (∀ a b m n, Version.compare ((· ++ ".0")^[m] a) ((· ++ ".0")^[n] b) = Version.compare a b) ∧
    ∀ v w, ConfigNode.usesV2 (some v) = true → Version.compare v w ≠ .gt →
      ConfigNode.usesV2 (some w) = true ∧ ∀ (n : ConfigNode) (sort filter : Bool),
        n.versionedDigest sort filter (some v) = n.digestV2 filter ∧
          n.versionedDigest sort filter (some w) = n.digestV2 filter := by
  have hle (a b : String) : Version.compare a b ≠ .gt ↔ sequence a ≤ sequence b :=
    (Version.compare_compares a b).ne_gt
  have htrans (a b c : String) (hab : Version.compare a b ≠ .gt) (hbc : Version.compare b c ≠ .gt) :
      Version.compare a c ≠ .gt :=
    (hle a c).mpr (((hle a b).mp hab).trans ((hle b c).mp hbc))
  refine ⟨fun a b => ?_, htrans, fun a b m n => ?_, fun v w hv hvw => ?_⟩
  · exact (Version.compare_compares b a).inj (Version.compare_compares a b).swap
  · have hzeros := Version.compare_compares ((· ++ ".0")^[m] a) ((· ++ ".0")^[n] b)
    rw [Version.sequence_zeros, Version.sequence_zeros] at hzeros
    exact hzeros.inj (Version.compare_compares a b)
  · have hw : ConfigNode.usesV2 (some w) = true := by
      simp only [ConfigNode.usesV2, bne_iff_ne] at hv ⊢
      exact htrans _ v w hv hvw
    exact ⟨hw, fun n sort filter => ⟨if_pos hv, if_pos hw⟩⟩

/-- Parts may have blanks around them, letters behind their number or no number at all. -/
theorem looseVersion_follows : ConfigNode.usesV2 (some "3.1") = true ∧
    Version.compare "3.1" " 3 .1rc2.x.7" = .lt ∧
    ConfigNode.usesV2 (some " 3 .1rc2.x.7") = true ∧
    ∀ (n : ConfigNode) (sort filter : Bool),
      n.versionedDigest sort filter (some " 3 .1rc2.x.7") = n.digestV2 filter := by
  have hold : Version.parts ConfigNode.v2FeatureSet = [3, 0, 5] := by decide +kernel
  have hplain : Version.parts "3.1" = [3, 1] := by decide +kernel
  have hloose : Version.parts " 3 .1rc2.x.7" = [3, 1, 0, 7] := by decide +kernel
  have hv : ConfigNode.usesV2 (some "3.1") = true := by
    simp only [ConfigNode.usesV2, Version.compare, hold, hplain, Version.compareParts]
    decide
  have hlt : Version.compare "3.1" " 3 .1rc2.x.7" = .lt := by
    simp only [Version.compare, hplain, hloose, Version.compareParts]
    decide
  obtain ⟨hw, hdigest⟩ := digest_follows_version.2.2.2 "3.1" " 3 .1rc2.x.7" hv (by simp [hlt])
  exact ⟨hv, hlt, hw, fun n sort filter => (hdigest n sort filter).2⟩

end ClusterTransition
