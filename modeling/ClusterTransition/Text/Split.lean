/-! # Cutting texts

A text is cut at every place where a separator stands.  There is always at least one part, and parts
may be empty.
-/

namespace ClusterTransition

/-- Cuts a list of characters at every `sep`. -/
def splitAll (sep : Char) : List Char → List (List Char)
  | [] => [[]]
  | c :: cs =>
    match splitAll sep cs with
    | [] => [[c]]
    | field :: fields => if c = sep then [] :: field :: fields else (c :: field) :: fields

/-- There is at least one part. -/
theorem splitAll_ne_nil (sep : Char) (cs : List Char) : splitAll sep cs ≠ [] := by
  cases cs with
  | nil => simp [splitAll]
  | cons c cs =>
    simp only [splitAll]
    split
    · simp
    · split <;> simp

/-- A text without a separator is one part. -/
theorem splitAll_of_notMem {sep : Char} {cs : List Char} (h : sep ∉ cs) :
    splitAll sep cs = [cs] := by
  induction cs with
  | nil => rfl
  | cons c cs ih =>
    simp only [List.mem_cons, not_or] at h
    simp [splitAll, ih h.2, Ne.symm h.1]

/-- One more character makes a part of its own or is added to the first part. -/
theorem exists_splitAll_cons (sep c : Char) (cs : List Char) :
    ∃ field fields, splitAll sep cs = field :: fields ∧
      splitAll sep (c :: cs) =
        if c = sep then [] :: field :: fields else (c :: field) :: fields := by
  obtain ⟨field, fields, h⟩ := List.exists_cons_of_ne_nil (splitAll_ne_nil sep cs)
  exact ⟨field, fields, h, by simp [splitAll, h]⟩

/-- The parts of a text are those before a separator and those after it. -/
theorem splitAll_append (sep : Char) (cs ds : List Char) :
    splitAll sep (cs ++ sep :: ds) = splitAll sep cs ++ splitAll sep ds := by
  induction cs with
  | nil =>
    obtain ⟨field, fields, hds, hsep⟩ := exists_splitAll_cons sep sep ds
    simp [hds, hsep, splitAll]
  | cons c cs ih =>
    obtain ⟨field, fields, hcs, hc⟩ := exists_splitAll_cons sep c cs
    obtain ⟨field', fields', hall, hc'⟩ := exists_splitAll_cons sep c (cs ++ sep :: ds)
    rw [ih, hcs] at hall
    obtain ⟨rfl, rfl⟩ := List.cons_eq_cons.mp hall
    rw [List.cons_append, hc, hc']
    split <;> rfl

/-- A text without a separator goes on with the last part of the text before it. -/
theorem splitAll_append_of_notMem {sep : Char} {cs ds : List Char} (hds : sep ∉ ds)
    {front : List (List Char)} {last : List Char} (h : splitAll sep cs = front ++ [last]) :
    splitAll sep (cs ++ ds) = front ++ [last ++ ds] := by
  induction cs generalizing front last with
  | nil =>
    cases front with
    | nil =>
      obtain rfl := List.singleton_inj.mp h
      exact splitAll_of_notMem hds
    | cons => simp [splitAll] at h
  | cons c cs ih =>
    obtain ⟨field, fields, hcs, hc⟩ := exists_splitAll_cons sep c cs
    obtain ⟨field', fields', hall, hc'⟩ := exists_splitAll_cons sep c (cs ++ ds)
    rw [hc] at h
    rw [List.cons_append, hc']
    split at h
    · -- the separator makes a part of its own
      cases front with
      | nil => simp at h
      | cons part front =>
        obtain ⟨rfl, hrest⟩ := List.cons_eq_cons.mp h
        rw [if_pos ‹_›, ← hall, ih (hcs.trans hrest)]
        rfl
    · rw [if_neg ‹_›]
      cases front with
      | nil =>
        obtain ⟨rfl, rfl⟩ := List.cons_eq_cons.mp h
        rw [@ih [] field hcs] at hall
        obtain ⟨rfl, rfl⟩ := List.cons_eq_cons.mp hall
        rfl
      | cons part front =>
        obtain ⟨rfl, rfl⟩ := List.cons_eq_cons.mp h
        rw [@ih (field :: front) _ hcs] at hall
        obtain ⟨rfl, rfl⟩ := List.cons_eq_cons.mp hall
        rfl

end ClusterTransition
