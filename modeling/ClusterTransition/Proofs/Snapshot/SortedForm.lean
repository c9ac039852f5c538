import ClusterTransition.Proofs.Sorting
import ClusterTransition.Snapshot.Digest

/-! # The sorted form of a snapshot

Two snapshots say the same if one comes from the other by swaps: at any depth, two neighbouring
attributes with different names or two neighbouring children with different names change places
(`ConfigNode.Swap`).  Attributes or children of one name never pass each other.

The sorted snapshot is the canonical form of this equivalence.  A swap does not change it
(`ConfigNode.Swap.sorted_eq`), and swaps lead to it (`ConfigNode.equivalent_sorted`), so snapshots
are equivalent exactly if they have the same sorted form (`sorted_eq_iff_equivalent`).
-/

namespace ClusterTransition
namespace ConfigNode

/-- Somewhere in the tree two neighbours with different names change places. -/
inductive Swap : ConfigNode → ConfigNode → Prop where
  | attributes (name : String) {l l' : List (String × String)} (children : List ConfigNode)
      (h : Exchange (·.1) l l') : Swap ⟨name, l, children⟩ ⟨name, l', children⟩
  | children (name : String) (attributes : List (String × String)) {l l' : List ConfigNode}
      (h : Exchange (·.name) l l') : Swap ⟨name, attributes, l⟩ ⟨name, attributes, l'⟩
  /-- The swap is below one of the children. -/
  | child (name : String) (attributes : List (String × String)) (front : List ConfigNode)
      {n n' : ConfigNode} (back : List ConfigNode) (h : Swap n n') :
      Swap ⟨name, attributes, front ++ n :: back⟩ ⟨name, attributes, front ++ n' :: back⟩

/-- Two snapshots that swaps lead between: the least equivalence that contains the swaps. -/
abbrev Equivalent : ConfigNode → ConfigNode → Prop := Relation.EqvGen Swap

/-! ## Swaps before sorting -/

@[simp] theorem name_sorted (n : ConfigNode) : n.sorted.name = n.name := by
  cases n
  rfl

theorem sortedChildren_eq_map (l : List ConfigNode) : sortedChildren l = l.map sorted := by
  induction l with
  | nil => rfl
  | cons n l ih => rw [sortedChildren, ih, List.map_cons]

/-- Sorting each of the children keeps their names. -/
theorem exchange_sortedChildren {l l' : List ConfigNode} (h : Exchange (·.name) l l') :
    Exchange (·.name) (sortedChildren l) (sortedChildren l') := by
  obtain ⟨front, back, hne⟩ := h
  simp only [sortedChildren_eq_map, List.map_append, List.map_cons]
  exact .swap _ _ (by simpa using hne)

/-- **A swap does not change the sorted snapshot.** -/
theorem Swap.sorted_eq {a b : ConfigNode} (h : Swap a b) : a.sorted = b.sorted := by
  induction h with
  | attributes name children h => simp only [sorted, h.sortByKey_eq]
  | children name attributes h => simp only [sorted, (exchange_sortedChildren h).sortByKey_eq]
  | child name attributes front back _ ih =>
    simp only [sorted, sortedChildren_eq_map, List.map_append, List.map_cons, ih]

theorem Equivalent.sorted_eq {a b : ConfigNode} (h : Equivalent a b) : a.sorted = b.sorted := by
  induction h with
  | rel _ _ h => exact h.sorted_eq
  | refl => rfl
  | symm _ _ _ ih => exact ih.symm
  | trans _ _ _ _ _ ih₁ ih₂ => exact ih₁.trans ih₂

/-! ## Sorting by swaps -/

/-- What exchanges do to a part of a tree is done by swaps of the tree. -/
theorem equivalent_of_exchanges {α κ : Type} {key : α → κ} {l l' : List α}
    (f : List α → ConfigNode) (hf : ∀ l l', Exchange key l l' → Swap (f l) (f l'))
    (h : Exchanges key l l') : Equivalent (f l) (f l') := by
  have hswaps : Relation.ReflTransGen Swap (f l) (f l') := h.lift f hf
  exact Relation.EqvGen.reflTransGen_le_eqvGen _ _ _ hswaps

theorem Equivalent.child {n n' : ConfigNode} (h : Equivalent n n') (name : String)
    (attributes : List (String × String)) (front back : List ConfigNode) :
    Equivalent ⟨name, attributes, front ++ n :: back⟩ ⟨name, attributes, front ++ n' :: back⟩ := by
  induction h with
  | rel _ _ h => exact .rel _ _ (.child name attributes front back h)
  | refl => exact .refl _
  | symm _ _ _ ih => exact .symm _ _ ih
  | trans _ _ _ _ _ ih₁ ih₂ => exact .trans _ _ _ ih₁ ih₂

mutual

/-- **Swaps lead from a snapshot to its sorted form.** -/
theorem equivalent_sorted : (n : ConfigNode) → Equivalent n n.sorted
  | ⟨name, attributes, children⟩ => by
    have hsort₁ : Exchanges (·.1) attributes (sortByKey (·.1) attributes) :=
      exchanges_sortByKey attributes
    have hattributes := equivalent_of_exchanges (⟨name, ·, children⟩)
      (fun _ _ => .attributes name children) hsort₁
    have hchildren := equivalent_sortedChildren name (sortByKey (·.1) attributes) [] children
    have hsort₂ : Exchanges (·.name) (sortedChildren children)
        (sortByKey (·.name) (sortedChildren children)) := exchanges_sortByKey _
    have horder := equivalent_of_exchanges (⟨name, sortByKey (·.1) attributes, ·⟩)
      (fun _ _ => .children name _) hsort₂
    exact hattributes.trans _ _ _ (hchildren.trans _ _ _ horder)

/-- Each of the children may be sorted, from the first to the last. -/
theorem equivalent_sortedChildren (name : String) (attributes : List (String × String))
    (front : List ConfigNode) : (children : List ConfigNode) →
    Equivalent ⟨name, attributes, front ++ children⟩
      ⟨name, attributes, front ++ sortedChildren children⟩
  | [] => .refl _
  | n :: rest => by
    have hfirst := (equivalent_sorted n).child name attributes front rest
    have hrest := equivalent_sortedChildren name attributes (front ++ [n.sorted]) rest
    simp only [List.append_assoc, List.singleton_append] at hrest
    exact hfirst.trans _ _ _ hrest

end

/-- Sorted snapshots are equal exactly if the snapshots are equivalent. -/
theorem sorted_eq_iff_equivalent {a b : ConfigNode} : a.sorted = b.sorted ↔ Equivalent a b := by
  refine ⟨fun h => ?_, Equivalent.sorted_eq⟩
  have hb := (equivalent_sorted b).symm
  rw [← h] at hb
  exact (equivalent_sorted a).trans _ _ _ hb

/-- **The sorted snapshot is a canonical form.**  Two snapshots have the same sorted form exactly if
swaps lead from one to the other.  Sorting a sorted snapshot changes nothing, and each snapshot is
equivalent to its sorted form.  Hence all digests of sorted snapshots, which hash one text, hash the
same one for equivalent snapshots. -/
theorem sorted_canonical (a b : ConfigNode) :
    (a.sorted = b.sorted ↔ Equivalent a b) ∧
    a.sorted.sorted = a.sorted ∧ Equivalent a a.sorted ∧
    (a.digestV1 true = Sha256.textDigest (a.v1Buffer true) ∧
      a.operationDigest = Sha256.textDigest (a.v1Buffer true)) ∧
    (Equivalent a b → a.v1Buffer true = b.v1Buffer true ∧ a.digestV1 true = b.digestV1 true ∧
      a.operationDigest = b.operationDigest) := by
  refine ⟨sorted_eq_iff_equivalent, (equivalent_sorted a).sorted_eq.symm, equivalent_sorted a,
    ⟨rfl, rfl⟩, fun h => ?_⟩
  have hbuffer : a.v1Buffer true = b.v1Buffer true := by
    simp only [v1Buffer, if_true, h.sorted_eq]
  have hdigest : a.digestV1 true = b.digestV1 true := congrArg Sha256.textDigest hbuffer
  exact ⟨hbuffer, hdigest, hdigest⟩

/-- Two resources with an operation between them, and an attribute that is there twice. -/
def resources : ConfigNode where
  name := "resources"
  attributes := [("owner", "admin"), ("epoch", "7"), ("owner", "root")]
  children :=
    [{ name := "primitive", attributes := [("id", "db")] }, { name := "op" },
     { name := "primitive", attributes := [("id", "web")] }]

/-- The operation stands first and the attributes are turned, each name in its old order. -/
def resourcesTurned : ConfigNode where
  name := "resources"
  attributes := [("epoch", "7"), ("owner", "admin"), ("owner", "root")]
  children :=
    [{ name := "op" }, { name := "primitive", attributes := [("id", "db")] },
     { name := "primitive", attributes := [("id", "web")] }]

/-- The two have the same digest of an operation.  Were the two resources to change places, no swaps
would lead back. -/
theorem resources_canonical :
    Equivalent resources resourcesTurned ∧
    resources.operationDigest = resourcesTurned.operationDigest ∧
    ¬ Equivalent resources { resources with children := resources.children.reverse } := by
  have hturned : Equivalent resources resourcesTurned := (sorted_canonical _ _).1.mp rfl
  refine ⟨hturned, ((sorted_canonical _ _).2.2.2.2 hturned).2.2, fun h => ?_⟩
  have hsorted := (sorted_canonical _ _).1.mpr h
  have hids := congrArg (fun n => n.children.map (·.attributes)) hsorted
  exact absurd hids (by decide +kernel)

end ConfigNode
end ClusterTransition
