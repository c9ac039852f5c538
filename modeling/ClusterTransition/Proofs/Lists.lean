/-! # Lists

Facts about lists which the library lacks: about a change of one element, by which a graph changes
its actions and synapses, and about the splits of a list that grows at its end, as a history does.
-/

namespace ClusterTransition

variable {α : Type} {l : List α}

/-! ## Changes of one element -/

/-- A replacement of all elements turns a change of one of them into the matching change. -/
theorem map_modify {β : Type} {f : α → α} {f' : β → β} {h : α → β}
    (hf : ∀ a, h (f a) = f' (h a)) (l : List α) (i : Nat) :
    (l.modify i f).map h = (l.map h).modify i f' := by
  apply List.ext_getElem?
  intro j
  simp only [List.getElem?_map, List.getElem?_modify, Option.map_eq_map, Option.map_map]
  congr 1
  funext a
  simp only [Function.comp_apply]
  split
  · exact hf a
  · rfl

theorem map_modify_of_eq {β : Type} {f : α → α} {h : α → β} (hf : ∀ a, h (f a) = h a)
    (l : List α) (i : Nat) : (l.modify i f).map h = l.map h :=
  (map_modify hf l i).trans (List.modify_id i _)

theorem modify_map (h f : α → α) (hf : ∀ a, f (h a) = h (f a)) (l : List α) (k : Nat) :
    (l.map h).modify k f = (l.modify k f).map h :=
  (map_modify (fun a => (hf a).symm) l k).symm

theorem modify_congr {f h : α → α} {k : Nat} (heq : ∀ a, l[k]? = some a → f a = h a) :
    l.modify k f = l.modify k h := by
  apply List.ext_getElem?
  intro j
  rw [List.getElem?_modify, List.getElem?_modify]
  by_cases hj : k = j
  · subst hj
    cases ha : l[k]? with
    | none => rfl
    | some a => simp [heq a ha]
  · simp only [if_neg hj]

theorem modify_of_eq {f : α → α} {k : Nat} (h : ∀ a, l[k]? = some a → f a = a) :
    l.modify k f = l :=
  (modify_congr h).trans (List.modify_id k l)

/-! ## Splits of a list with one more entry -/

/-- Where a list is split at one of its entries, that is the last entry or one of those before. -/
theorem append_singleton_eq_append_cons_iff {a b : α} {before after : List α} :
    l ++ [a] = before ++ b :: after ↔
      (after = [] ∧ l = before ∧ a = b) ∨
        ∃ rest, after = rest ++ [a] ∧ l = before ++ b :: rest := by
  constructor
  · intro h
    rcases List.eq_nil_or_concat after with rfl | ⟨rest, last, rfl⟩
    · exact .inl ⟨rfl, List.append_singleton_inj.mp h⟩
    · rw [List.concat_eq_append, ← List.cons_append, ← List.append_assoc] at h
      obtain ⟨rfl, rfl⟩ := List.append_singleton_inj.mp h
      exact .inr ⟨rest, List.concat_eq_append, rfl⟩
  · rintro (⟨rfl, rfl, rfl⟩ | ⟨rest, rfl, rfl⟩)
    · rfl
    · simp

end ClusterTransition
