import ClusterTransition.Proofs.Document.Loading
import Mathlib.Data.List.Flatten
import Mathlib.Data.List.Nodup
import Mathlib.Data.List.Pairwise
import Mathlib.Data.List.Perm.Basic
import Mathlib.Order.Bounds.Basic

/-! # Orders in which synapses can be carried out

Some positions of a document are closed if they include every synapse whose inputs are all owned by
synapses among them.  The synapses that can be carried out at all are those at the positions that
are least among the closed ones.

An order of positions is ready if each synapse in it waits only for actions of earlier ones.  The
positions of such an order are in every closed set; and if no synapse can be added to the order,
they are closed themselves (`GraphDocument.ReadyOrder.isLeast`).  Neither needs the dependencies to
be acyclic: what lies on a cycle, or behind one, is in no ready order.
-/

namespace ClusterTransition
namespace GraphDocument

variable (d : GraphDocument)

/-- The ids of the actions of the synapse at a position. -/
def idsAt (p : Nat) : List Int := ((d.synapses[p]?).map fun s => s.actions.map (·.id)).getD []

/-- Synapses at the positions `S` own all that the synapse waits for. -/
def Supports (S : Set Nat) (s : SynapseDocument) : Prop := ∀ id ∈ s.inputs, ∃ q ∈ S, id ∈ d.idsAt q

/-- The positions include every synapse all of whose inputs are actions of synapses among them. -/
def Closed (S : Set Nat) : Prop := ∀ p s, d.synapses[p]? = some s → d.Supports S s → p ∈ S

/-- Distinct positions, each of a synapse that waits only for actions of the ones before. -/
inductive ReadyOrder : List Nat → Prop where
  | nil : ReadyOrder []
  | snoc {order : List Nat} {p : Nat} {s : SynapseDocument} (h : ReadyOrder order)
      (hnew : p ∉ order) (hs : d.synapses[p]? = some s)
      (hready : d.Supports { q | q ∈ order } s) : ReadyOrder (order ++ [p])

variable {d} {p : Nat} {s : SynapseDocument}

theorem idsAt_eq (hs : d.synapses[p]? = some s) : d.idsAt p = s.actions.map (·.id) := by
  simp [idsAt, hs]

theorem exists_synapse_of_mem_idsAt {id : Int} (h : id ∈ d.idsAt p) :
    ∃ s, d.synapses[p]? = some s ∧ id ∈ s.actions.map (·.id) := by
  cases hs : d.synapses[p]? with
  | none => simp [idsAt, hs] at h
  | some s => exact ⟨s, rfl, idsAt_eq hs ▸ h⟩

/-- All positions together have the ids of the document. -/
theorem flatMap_idsAt (d : GraphDocument) :
    (List.range d.synapses.length).flatMap d.idsAt = d.arena.map (·.id) := by
  have hall : (List.range d.synapses.length).map d.idsAt =
      d.synapses.map fun s => s.actions.map (·.id) := by
    refine List.ext_getElem (by simp) fun p hp hp' => ?_
    have hlt : p < d.synapses.length := by simpa using hp
    simpa using idsAt_eq (List.getElem?_eq_getElem hlt)
  rw [List.flatMap_def, hall, arena, List.map_flatMap, List.flatMap_def]

/-- No id has two owners in a document that loads. -/
theorem owner_unique (hids : (d.arena.map (·.id)).Nodup) {q : Nat} {id : Int}
    (hp : id ∈ d.idsAt p) (hq : id ∈ d.idsAt q) : p = q := by
  have hrange {r : Nat} (hr : id ∈ d.idsAt r) : r ∈ List.range d.synapses.length := by
    obtain ⟨s, hs, -⟩ := exists_synapse_of_mem_idsAt hr
    exact List.mem_range.mpr (List.getElem?_eq_some_iff.mp hs).1
  rw [← flatMap_idsAt] at hids
  by_contra hne
  have hsymm : Std.Symm (Function.onFun List.Disjoint d.idsAt) :=
    ⟨fun _ _ hdisjoint _ h h' => hdisjoint h' h⟩
  exact (List.nodup_flatMap.mp hids).2.forall (hrange hp) (hrange hq) hne hp hq

namespace ReadyOrder

variable {order : List Nat}

theorem nodup (h : d.ReadyOrder order) : order.Nodup := by
  induction h with
  | nil => exact List.nodup_nil
  | snoc _ hnew _ _ ih =>
    simp only [List.nodup_append, List.nodup_cons, List.mem_singleton]
    exact ⟨ih, by simp, by rintro q hq _ rfl rfl; exact hnew hq⟩

theorem lt_length (h : d.ReadyOrder order) (hp : p ∈ order) : p < d.synapses.length := by
  induction h with
  | nil => cases hp
  | snoc _ _ hs _ ih =>
    rcases List.mem_append.mp hp with hp | hp
    · exact ih hp
    · obtain rfl := List.mem_singleton.mp hp
      exact (List.getElem?_eq_some_iff.mp hs).1

/-- **What a ready order carries out is in every closed set.** -/
theorem subset_of_closed {S : Set Nat} (h : d.ReadyOrder order) (hS : d.Closed S) :
    ∀ p ∈ order, p ∈ S := by
  induction h with
  | nil => simp
  | @snoc order p s _ _ hs hready ih =>
    intro q hq
    rcases List.mem_append.mp hq with hq | hq
    · exact ih q hq
    · obtain rfl := List.mem_singleton.mp hq
      refine hS q s hs fun id hid => ?_
      obtain ⟨r, hr, howns⟩ := hready id hid
      exact ⟨r, ih r hr, howns⟩

/-- **A ready order to which nothing can be added carries out all that can be carried out.** -/
theorem isLeast (h : d.ReadyOrder order) (hclosed : d.Closed { p | p ∈ order }) :
    IsLeast { S | d.Closed S } { p | p ∈ order } :=
  ⟨hclosed, fun _ hS p hp => h.subset_of_closed hS p hp⟩

/-- The positions of the order, as they stand in the document. -/
theorem perm_range (h : d.ReadyOrder order) :
    order.Perm ((List.range d.synapses.length).filter (· ∈ order)) := by
  refine (List.perm_ext_iff_of_nodup h.nodup (List.nodup_range.filter _)).mpr fun p => ?_
  simp only [List.mem_filter, List.mem_range, decide_eq_true_eq]
  exact ⟨fun hp => ⟨h.lt_length hp, hp⟩, fun hp => hp.2⟩

theorem length_le (h : d.ReadyOrder order) : order.length ≤ d.synapses.length := by
  have hle := List.length_filter_le (fun p => decide (p ∈ order)) (List.range d.synapses.length)
  rw [h.perm_range.length_eq]
  simpa using hle

/-- No id occurs twice in a ready order of a document that loads. -/
theorem nodup_ids (h : d.ReadyOrder order) (hids : (d.arena.map (·.id)).Nodup) :
    (order.flatMap d.idsAt).Nodup := by
  rw [(h.perm_range.flatMap_right d.idsAt).nodup_iff]
  refine List.Nodup.sublist ?_ (flatMap_idsAt d ▸ hids)
  exact List.Sublist.flatMap List.filter_sublist _

/-- **Each action comes after all that its synapse waits for.** -/
theorem inputs_before (h : d.ReadyOrder order) (hids : (d.arena.map (·.id)).Nodup)
    {before after : List Int} {id : Int} (hsplit : order.flatMap d.idsAt = before ++ id :: after)
    (hp : d.synapses[p]? = some s) (howns : id ∈ s.actions.map (·.id)) :
    ∀ input ∈ s.inputs, input ∈ before := by
  induction h generalizing after with
  | nil => simp at hsplit
  | @snoc order q t h hnew ht hready ih =>
    have hlast (hmem : id ∈ d.idsAt q) (hsub : order.flatMap d.idsAt ⊆ before) :
        ∀ input ∈ s.inputs, input ∈ before := by
      obtain rfl := owner_unique hids (idsAt_eq hp ▸ howns) hmem
      obtain rfl : s = t := Option.some.inj (hp.symm.trans ht)
      intro input hinput
      obtain ⟨r, hr, hid⟩ := hready input hinput
      exact hsub (List.mem_flatMap.mpr ⟨r, hr, hid⟩)
    rw [List.flatMap_append, List.flatMap_cons, List.flatMap_nil, List.append_nil] at hsplit
    rcases List.append_eq_append_iff.mp hsplit with ⟨pre, rfl, hpre⟩ | ⟨mid, horder, hmid⟩
    · exact hlast (by simp [hpre]) (List.subset_append_left ..)
    · cases mid with
      | nil =>
        have hmem : id ∈ d.idsAt q := by
          rw [← List.nil_append (d.idsAt q), ← hmid]
          exact List.mem_cons_self ..
        exact hlast hmem (by simp [horder])
      | cons head mid =>
        obtain rfl : id = head := by simpa using congrArg List.head? hmid
        exact ih horder

end ReadyOrder

end GraphDocument
end ClusterTransition
