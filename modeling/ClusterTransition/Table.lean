/-! # Ordered tables

A table holds one value for each of finitely many keys, in increasing order of the keys.  The order
is part of the type, so two tables that answer every lookup alike are equal (`Table.ext_get?`), and
what a table prints does not depend on the order in which it was filled.

The laws of this module say what each operation does to the lookups: `get?_insert`, `get?_erase`
and `get?_mapValues`.
-/

namespace ClusterTransition

variable {κ β γ : Type} [Ord κ]

/-- A finite map whose entries are kept in strictly increasing order of their keys. -/
structure Table (κ β : Type) [Ord κ] where
  /-- The entries, by increasing key. -/
  entries : List (κ × β)
  /-- Each key is smaller than all the later ones. -/
  sorted : entries.Pairwise (fun a b => compare a.1 b.1 = .lt)
  deriving DecidableEq

namespace Table

/-! ## Entry lists -/

/-- The value stored under `k`. -/
def find (k : κ) : List (κ × β) → Option β
  | [] => none
  | (k', v) :: rest => if compare k k' = .eq then some v else find k rest

/-- Stores `v` under `k`, in the place that the order gives to `k`. -/
def put (k : κ) (v : β) : List (κ × β) → List (κ × β)
  | [] => [(k, v)]
  | (k', v') :: rest =>
    match compare k k' with
    | .lt => (k, v) :: (k', v') :: rest
    | .eq => (k, v) :: rest
    | .gt => (k', v') :: put k v rest

/-- Forgets what is stored under `k`. -/
def drop (k : κ) (entries : List (κ × β)) : List (κ × β) :=
  entries.filter (fun e => compare k e.1 != .eq)

theorem key_of_mem_put {k : κ} {v : β} {entries : List (κ × β)} {e : κ × β}
    (h : e ∈ put k v entries) : e = (k, v) ∨ e ∈ entries := by
  induction entries with
  | nil => simpa [put] using h
  | cons head rest ih =>
    simp only [put] at h
    split at h
    · simpa using h
    · simp only [List.mem_cons] at h ⊢
      rcases h with h | h
      · exact .inl h
      · exact .inr (.inr h)
    · simp only [List.mem_cons] at h ⊢
      rcases h with h | h
      · exact .inr (.inl h)
      · rcases ih h with h | h
        · exact .inl h
        · exact .inr (.inr h)

theorem sorted_put [Std.TransOrd κ] [Std.LawfulEqOrd κ] (k : κ) (v : β)
    {entries : List (κ × β)} (h : entries.Pairwise (fun a b => compare a.1 b.1 = .lt)) :
    (put k v entries).Pairwise (fun a b => compare a.1 b.1 = .lt) := by
  induction entries with
  | nil => simp [put]
  | cons head rest ih =>
    obtain ⟨hhead, hrest⟩ := List.pairwise_cons.mp h
    simp only [put]
    split
    · rename_i hlt
      refine List.pairwise_cons.mpr ⟨?_, h⟩
      intro e he
      rcases List.mem_cons.mp he with rfl | he
      · exact hlt
      · exact Std.TransCmp.lt_trans hlt (hhead e he)
    · rename_i heq
      refine List.pairwise_cons.mpr ⟨?_, hrest⟩
      intro e he
      rw [Std.LawfulEqCmp.eq_of_compare heq]
      exact hhead e he
    · rename_i hgt
      refine List.pairwise_cons.mpr ⟨?_, ih hrest⟩
      intro e he
      rcases key_of_mem_put he with rfl | he
      · exact Std.OrientedCmp.gt_iff_lt.mp hgt
      · exact hhead e he

theorem sorted_drop (k : κ) {entries : List (κ × β)}
    (h : entries.Pairwise (fun a b => compare a.1 b.1 = .lt)) :
    (drop k entries).Pairwise (fun a b => compare a.1 b.1 = .lt) :=
  h.filter _

/-! ## Operations -/

/-- The table without entries. -/
def empty : Table κ β := ⟨[], .nil⟩

instance : Inhabited (Table κ β) := ⟨empty⟩

/-- The value under `k`, if there is one. -/
def get? (t : Table κ β) (k : κ) : Option β := find k t.entries

/-- Whether `k` has an entry. -/
def contains (t : Table κ β) (k : κ) : Bool := (t.get? k).isSome

/-- Stores `v` under `k`, in place of what was there. -/
def insert [Std.TransOrd κ] [Std.LawfulEqOrd κ] (t : Table κ β) (k : κ) (v : β) : Table κ β :=
  ⟨put k v t.entries, sorted_put k v t.sorted⟩

/-- Removes the entry of `k`. -/
def erase (t : Table κ β) (k : κ) : Table κ β :=
  ⟨drop k t.entries, sorted_drop k t.sorted⟩

/-- Keeps the entries that pass the test. -/
def filter (p : κ → β → Bool) (t : Table κ β) : Table κ β :=
  ⟨t.entries.filter (fun e => p e.1 e.2), t.sorted.filter _⟩

/-- Replaces every value, keeping the keys. -/
def mapValues (f : β → γ) (t : Table κ β) : Table κ γ :=
  ⟨t.entries.map (fun e => (e.1, f e.2)), t.sorted.map _ fun _ _ h => h⟩

/-- The number of entries. -/
def size (t : Table κ β) : Nat := t.entries.length

/-- The keys, in increasing order. -/
def keys (t : Table κ β) : List κ := t.entries.map (·.1)

/-- The values, in the order of their keys. -/
def values (t : Table κ β) : List β := t.entries.map (·.2)

/-- The table of a list of entries; of several with one key the last counts. -/
def ofList [Std.TransOrd κ] [Std.LawfulEqOrd κ] (l : List (κ × β)) : Table κ β :=
  l.foldl (fun t e => t.insert e.1 e.2) empty

/-! ## Lookups -/

@[simp] theorem get?_empty (k : κ) : (empty : Table κ β).get? k = none := rfl

theorem find_cons [DecidableEq κ] [Std.LawfulEqOrd κ] (x : κ) (e : κ × β)
    (rest : List (κ × β)) :
    find x (e :: rest) = if x = e.1 then some e.2 else find x rest := by
  simp [find, Std.LawfulEqCmp.compare_eq_iff_eq]

theorem find_eq_none_of_lt {k : κ} {entries : List (κ × β)}
    (h : ∀ e ∈ entries, compare k e.1 = .lt) : find k entries = none := by
  induction entries with
  | nil => rfl
  | cons head rest ih =>
    simp only [find, h head (List.mem_cons_self ..)]
    exact ih fun e he => h e (List.mem_cons_of_mem _ he)

section Lookups

variable [DecidableEq κ] [Std.LawfulEqOrd κ]

theorem find_put (k x : κ) (v : β) (entries : List (κ × β)) :
    find x (put k v entries) = if x = k then some v else find x entries := by
  induction entries with
  | nil => simp [put, find_cons, find]
  | cons head rest ih =>
    simp only [put]
    split
    · simp [find_cons]
    · rename_i heq
      have hk : k = head.1 := Std.LawfulEqCmp.eq_of_compare heq
      by_cases h : x = k
      · simp [find_cons, h]
      · simp [find_cons, h, show ¬ x = head.1 from hk ▸ h]
    · rename_i hgt
      have hne : ¬ head.1 = k := fun h => by simp [h] at hgt
      by_cases hx : x = head.1
      · simp [find_cons, hx, hne]
      · simp [find_cons, hx, ih]

/-- An insertion changes the answer for its own key and for no other. -/
theorem get?_insert [Std.TransOrd κ] (t : Table κ β) (k x : κ) (v : β) :
    (t.insert k v).get? x = if x = k then some v else t.get? x :=
  find_put k x v t.entries

theorem find_drop (k x : κ) (entries : List (κ × β)) :
    find x (drop k entries) = if x = k then none else find x entries := by
  have eq (a b : κ) : compare a b = .eq ↔ a = b := Std.LawfulEqCmp.compare_eq_iff_eq
  unfold drop
  induction entries with
  | nil => simp [find]
  | cons head rest ih =>
    by_cases hk : k = head.1
    · rw [List.filter_cons_of_neg (by simp [← hk]), ih, find_cons]
      by_cases hx : x = k
      · simp [hx]
      · simp [hx, show ¬ x = head.1 from hk ▸ hx]
    · rw [List.filter_cons_of_pos (by simpa [eq] using hk), find_cons, find_cons, ih]
      by_cases hx : x = head.1
      · simp [hx, show ¬ head.1 = k from fun h => hk h.symm]
      · simp [hx]

/-- Erasing a key changes the answer for that key and for no other. -/
theorem get?_erase (t : Table κ β) (k x : κ) :
    (t.erase k).get? x = if x = k then none else t.get? x :=
  find_drop k x t.entries

end Lookups

theorem find_map (f : β → γ) (x : κ) (entries : List (κ × β)) :
    find x (entries.map fun e => (e.1, f e.2)) = (find x entries).map f := by
  induction entries with
  | nil => rfl
  | cons head rest ih =>
    simp only [List.map_cons, find]
    split
    · rfl
    · exact ih

/-- Replacing the values replaces the answers. -/
theorem get?_mapValues (f : β → γ) (t : Table κ β) (x : κ) :
    (t.mapValues f).get? x = (t.get? x).map f :=
  find_map f x t.entries

/-! ## Equality -/

section Equality

variable [DecidableEq κ] [Std.TransOrd κ] [Std.LawfulEqOrd κ]

/-- Sorted entry lists with the same lookups are the same list. -/
theorem entries_eq_of_find {a b : List (κ × β)}
    (ha : a.Pairwise (fun x y => compare x.1 y.1 = .lt))
    (hb : b.Pairwise (fun x y => compare x.1 y.1 = .lt))
    (h : ∀ k, find k a = find k b) : a = b := by
  induction a generalizing b with
  | nil =>
    cases b with
    | nil => rfl
    | cons e rest => simpa [find, find_cons] using h e.1
  | cons e rest ih =>
    cases b with
    | nil => simpa [find, find_cons] using h e.1
    | cons e' rest' =>
      obtain ⟨he, hrest⟩ := List.pairwise_cons.mp ha
      obtain ⟨he', hrest'⟩ := List.pairwise_cons.mp hb
      have hkey : e.1 = e'.1 := by
        cases hc : compare e.1 e'.1 with
        | eq => exact Std.LawfulEqCmp.eq_of_compare hc
        | lt =>
          have hnone : find e.1 (e' :: rest') = none := by
            apply find_eq_none_of_lt
            intro x hx
            rcases List.mem_cons.mp hx with rfl | hx
            · exact hc
            · exact Std.TransCmp.lt_trans hc (he' x hx)
          have := h e.1
          rw [hnone, find_cons] at this
          simp at this
        | gt =>
          have hc' : compare e'.1 e.1 = .lt := Std.OrientedCmp.gt_iff_lt.mp hc
          have hnone : find e'.1 (e :: rest) = none := by
            apply find_eq_none_of_lt
            intro x hx
            rcases List.mem_cons.mp hx with rfl | hx
            · exact hc'
            · exact Std.TransCmp.lt_trans hc' (he x hx)
          have := h e'.1
          rw [hnone, find_cons] at this
          simp at this
      have hval : e.2 = e'.2 := by
        have := h e.1
        rw [find_cons, find_cons, if_pos rfl, if_pos hkey] at this
        exact Option.some.inj this
      have htail : rest = rest' := by
        refine ih hrest hrest' fun k => ?_
        by_cases hk : k = e.1
        · rw [find_eq_none_of_lt (fun x hx => hk ▸ he x hx),
            find_eq_none_of_lt (fun x hx => hk ▸ hkey ▸ he' x hx)]
        · have := h k
          rwa [find_cons, find_cons, if_neg hk, if_neg (hkey ▸ hk)] at this
      rw [Prod.ext hkey hval, htail]

/-- Tables with the same lookups are equal. -/
theorem ext_get? {a b : Table κ β} (h : ∀ k, a.get? k = b.get? k) : a = b := by
  cases a with
  | mk as ha =>
    cases b with
    | mk bs hb =>
      have := entries_eq_of_find ha hb h
      subst this
      rfl

/-- Two keys may be erased in either order. -/
theorem erase_comm (t : Table κ β) (j k : κ) : (t.erase j).erase k = (t.erase k).erase j := by
  refine ext_get? fun x => ?_
  simp only [get?_erase]
  split <;> split <;> rfl

end Equality

end Table

end ClusterTransition
