import ClusterTransition.Record.Document
import ClusterTransition.Json.Scalar
import ClusterTransition.Proofs.Json.RoundTrip

/-! # Reading the fields of a record

A record is written as an object that leaves some of its fields out.  Where the names of the fields
differ, asking such an object for its fields gives what was written or left out, field by field
(`Json.fields?_present`).  What is left to show of a record is then a matter of single fields: a
field that may be left out is left out exactly when it has the value that stands in for it.
-/

namespace ClusterTransition

/-! ## Tables -/

namespace Table

variable {κ β : Type} [Ord κ] [DecidableEq κ] [Std.TransOrd κ] [Std.LawfulEqOrd κ]

theorem get?_foldl_insert {l : List (κ × β)}
    (hsorted : l.Pairwise fun a b => compare a.1 b.1 = .lt) (t : Table κ β) (k : κ) :
    (l.foldl (fun t e => t.insert e.1 e.2) t).get? k = (find k l).or (t.get? k) := by
  induction l generalizing t with
  | nil => rfl
  | cons e rest ih =>
    obtain ⟨hhead, hrest⟩ := List.pairwise_cons.mp hsorted
    rw [List.foldl_cons, ih hrest, get?_insert, find_cons]
    by_cases hk : k = e.1
    · rw [if_pos hk, if_pos hk, hk, find_eq_none_of_lt hhead]
      rfl
    · rw [if_neg hk, if_neg hk]

/-- The entries of a table make the table. -/
theorem ofList_entries (t : Table κ β) : ofList t.entries = t := by
  refine ext_get? fun k => ?_
  rw [ofList, get?_foldl_insert t.sorted, get?_empty, Option.or_none]
  rfl

end Table

/-! ## Reading the members of a list -/

theorem mapM_congr {α β : Type} {f g : α → Option β} {l : List α} (h : ∀ a ∈ l, f a = g a) :
    l.mapM f = l.mapM g := by
  induction l with
  | nil => rfl
  | cons a l ih =>
    rw [List.mapM_cons, List.mapM_cons, h a (List.mem_cons_self ..),
      ih fun b hb => h b (List.mem_cons_of_mem _ hb)]

/-- What is read back one by one is read back as a list. -/
theorem mapM_map_eq_some {α β : Type} {f : β → Option α} {g : α → β} {l : List α}
    (h : ∀ a ∈ l, f (g a) = some a) : (l.map g).mapM f = some l := by
  rw [List.mapM_map]
  exact (mapM_congr h).trans (List.mapM_pure.trans (congrArg some l.map_id'))

namespace Json

/-! ## Members -/

/-- The members of an object that has the given values for its fields, or none. -/
def present : List String → List (Option Json) → List (String × Json)
  | name :: names, value :: values => member? name id value ++ present names values
  | _, _ => []

@[simp] theorem member?_some (name : String) (v : Json) :
    member? name id (some v) = [(name, v)] := rfl

@[simp] theorem member?_map {α : Type} (name : String) (f : α → Json) (o : Option α) :
    member? name id (o.map f) = member? name f o := by
  cases o <;> rfl

theorem mem_present {names : List String} {values : List (Option Json)} {m : String × Json}
    (h : m ∈ present names values) : m.1 ∈ names ∧ some m.2 ∈ values := by
  induction names generalizing values with
  | nil => simp [present] at h
  | cons name names ih =>
    cases values with
    | nil => simp [present] at h
    | cons value values =>
      rcases List.mem_append.mp h with h | h
      · cases value with
        | none => simp [member?] at h
        | some v =>
          obtain rfl := List.mem_singleton.mp h
          simp
      · obtain ⟨hname, hvalue⟩ := ih h
        exact ⟨List.mem_cons_of_mem _ hname, List.mem_cons_of_mem _ hvalue⟩

theorem mapM_textMember? (members : List (String × Json)) :
    (members.map fun m => (some m.1, m.2)).mapM textMember? = some members :=
  mapM_map_eq_some fun _ _ => rfl

/-- Asking an object with some of its fields for a field that it may have. -/
theorem uniqueValue?_cons {name other : String} {value : Option Json}
    {members : List (String × Json)} (h : name ≠ other) :
    uniqueValue? (member? name id value ++ members) other = uniqueValue? members other := by
  cases value with
  | none => rfl
  | some v => simp [uniqueValue?, h]

theorem uniqueValue?_self {name : String} {value : Option Json} {members : List (String × Json)}
    (h : ∀ m ∈ members, m.1 ≠ name) :
    uniqueValue? (member? name id value ++ members) name = some value := by
  have hnone : members.filter (·.1 = name) = [] := by simpa using h
  cases value with
  | none => simp [uniqueValue?, member?, hnone]
  | some v => simp [uniqueValue?, hnone]

theorem mapM_uniqueValue? {names : List String} (hnames : names.Nodup)
    {values : List (Option Json)} (hlength : names.length = values.length) :
    names.mapM (uniqueValue? (present names values)) = some values := by
  induction names generalizing values with
  | nil =>
    obtain rfl := List.length_eq_zero_iff.mp hlength.symm
    rfl
  | cons name names ih =>
    obtain ⟨value, values, rfl⟩ := List.exists_cons_of_length_eq_add_one hlength.symm
    obtain ⟨hnew, hnames⟩ := List.nodup_cons.mp hnames
    have hself : uniqueValue? (present (name :: names) (value :: values)) name = some value :=
      uniqueValue?_self fun m hm hname => hnew (hname ▸ (mem_present hm).1)
    have hothers : names.mapM (uniqueValue? (present (name :: names) (value :: values))) =
        names.mapM (uniqueValue? (present names values)) := by
      refine mapM_congr fun other hother => uniqueValue?_cons ?_
      rintro rfl
      exact hnew hother
    rw [List.mapM_cons, hself, hothers, ih hnames (by simpa using hlength)]
    rfl

/-- The fields of an object are what was written for them. -/
theorem fields?_present {names : List String} (hnames : names.Nodup)
    {values : List (Option Json)} (hlength : names.length = values.length) :
    fields? names (object (present names values)) = some values := by
  rw [object, fields?, mapM_textMember?, Option.bind_some, mapM_uniqueValue? hnames hlength]

/-! ## Values -/

@[simp] theorem string?_text (s : String) : string? (text s) = some s := rfl

@[simp] theorem bool?_bool (b : Bool) : bool? (.bool b) = some b := rfl

@[simp] theorem case?_text (s : String) : case? (text s) = some s := rfl

@[simp] theorem caseOf?_text {α : Type} (ofName : String → Option α) (name : String) :
    reader.caseOf? ofName (text name) = ofName name := rfl

@[simp] theorem reader_string? : reader.string? = string? := rfl

@[simp] theorem reader_bool? : reader.bool? = bool? := rfl

@[simp] theorem reader_fields? : reader.fields? = Json.fields? := rfl

@[simp] theorem int?_int (n : Int) : (int n).int? = some n := by
  by_cases hn : n < 0
  · have hne : n.natAbs ≠ 0 := by omega
    have habs : -(n.natAbs : Int) = n := by omega
    rw [int, decide_eq_true hn]
    show (if n.natAbs = 0 then none else some (-(n.natAbs : Int))) = some n
    rw [if_neg hne, habs]
  · have habs : (n.natAbs : Int) = n := by omega
    rw [int, decide_eq_false hn]
    show some (n.natAbs : Int) = some n
    rw [habs]

@[simp] theorem nat?_nat (n : Nat) : (nat n).nat? = some n := rfl

theorem filter_eq_some {α : Type} {o : Option α} {a : α} {p : α → Bool} (ho : o = some a)
    (h : p a = true) : o.filter p = some a := by
  rw [ho, Option.filter_some, if_pos h]

/-! Numbers are read back by the reading of the range that they are in. -/

theorem int32?_int {n : Int} (h : Numeral.isInt32 n = true) : reader.int32? (int n) = some n :=
  filter_eq_some (int?_int n) h

theorem int64?_int {n : Int} (h : Numeral.isInt64 n = true) : reader.int64? (int n) = some n :=
  filter_eq_some (int?_int n) h

theorem nat32?_nat {n : Nat} (h : Numeral.isNat32 n = true) : reader.nat32? (nat n) = some n :=
  filter_eq_some (nat?_nat n) h

theorem nat64?_nat {n : Nat} (h : Numeral.isNat64 n = true) : reader.nat64? (nat n) = some n :=
  filter_eq_some (nat?_nat n) h

section Parts

variable {α : Type} {f : Json → Option α} {g : α → Json}

theorem listOf?_list {items : List α} (h : ∀ a ∈ items, f (g a) = some a) :
    reader.listOf? f (list g items) = some items :=
  mapM_map_eq_some h

theorem tableOf?_tableJson {t : Table String α} (h : ∀ e ∈ t.entries, f (g e.2) = some e.2) :
    reader.tableOf? f (tableJson g t) = some t := by
  have hentries : (tableJson g t).entries? = some (t.entries.map fun e => (e.1, g e.2)) :=
    mapM_textMember? _
  have hread : (t.entries.map fun e => (e.1, g e.2)).mapM (fun e => (f e.2).map (e.1, ·)) =
      some t.entries :=
    mapM_map_eq_some fun e he => by rw [h e he, Option.map_some]
  show (tableJson g t).entries?.bind _ = _
  rw [hentries, Option.bind_some, hread, Option.map_some, t.ofList_entries]

/-! ## Fields -/

@[simp] theorem required_some {ν α : Type} (f : ν → Option α) (v : ν) :
    required f (some v) = f v := rfl

@[simp] theorem defaulting_some {ν α : Type} (default : α) (f : ν → Option α) (v : ν) :
    defaulting default f (some v) = f v := rfl

/-- A field that is left out when it has no value. -/
theorem optional_map {o : Option α}
    (h : ∀ a, o = some a → (g a).isNull = false ∧ f (g a) = some a) :
    reader.optional f (o.map g) = some o := by
  cases o with
  | none => rfl
  | some a =>
    obtain ⟨hnull, hread⟩ := h a rfl
    simp [ValueReader.optional, reader, hnull, hread]

@[simp] theorem optional_text (o : Option String) :
    reader.optional string? (o.map text) = some o :=
  optional_map fun _ _ => ⟨rfl, rfl⟩

/-- A field that is null when it has no value. -/
theorem optional_optional {o : Option α}
    (h : ∀ a, o = some a → (g a).isNull = false ∧ f (g a) = some a) :
    reader.optional f (some (optional g o)) = some o := by
  cases o with
  | none => rfl
  | some a => exact optional_map (o := some a) h

/-- The value for a field that holds a table, which is left out when the table is empty. -/
def tableValue (g : α → Json) (t : Table String α) : Option Json :=
  if t.entries.isEmpty then none else some (tableJson g t)

@[simp] theorem member?_tableValue (name : String) (t : Table String α) :
    member? name id (tableValue g t) = tableMember? name g t := by
  by_cases h : t.entries.isEmpty = true
  · rw [tableValue, tableMember?, if_pos h, if_pos h]
    rfl
  · rw [tableValue, tableMember?, if_neg h, if_neg h]
    rfl

theorem defaulting_tableValue {t : Table String α} (h : ∀ e ∈ t.entries, f (g e.2) = some e.2) :
    defaulting .empty (reader.tableOf? f) (tableValue g t) = some t := by
  by_cases hempty : t.entries.isEmpty
  · rw [tableValue, if_pos hempty, ← t.ofList_entries, List.isEmpty_iff.mp hempty]
    rfl
  · rw [tableValue, if_neg hempty]
    exact tableOf?_tableJson h

/-! ## Whole numbers -/

@[simp] theorem whole_text (s : String) : (text s).Whole := .str _

@[simp] theorem whole_bool (b : Bool) : (Json.bool b).Whole := .bool b

@[simp] theorem whole_int (n : Int) : (int n).Whole := .integer _ _

@[simp] theorem whole_nat (n : Nat) : (nat n).Whole := .integer _ _

theorem whole_list {items : List α} (h : ∀ a ∈ items, (g a).Whole) : (list g items).Whole := by
  refine .arr fun j hj => ?_
  obtain ⟨a, ha, rfl⟩ := List.mem_map.mp hj
  exact h a ha

theorem whole_object {members : List (String × Json)} (h : ∀ m ∈ members, m.2.Whole) :
    (object members).Whole := by
  refine .obj fun m hm => ?_
  obtain ⟨m, hmem, rfl⟩ := List.mem_map.mp hm
  exact h m hmem

/-- What was written for a field, if anything, holds whole numbers only. -/
def WholeField (value : Option Json) : Prop := ∀ v, value = some v → v.Whole

@[simp] theorem wholeField_some {v : Json} : WholeField (some v) ↔ v.Whole := by
  simp [WholeField]

@[simp] theorem wholeField_map {o : Option α} :
    WholeField (o.map g) ↔ ∀ a, o = some a → (g a).Whole := by
  cases o <;> simp [WholeField]

/-- A field that is left out on some condition. -/
theorem wholeField_ite {p : Prop} [Decidable p] {v : Json} (h : v.Whole) :
    WholeField (if p then none else some v) := by
  split
  · intro v hv
    cases hv
  · exact wholeField_some.mpr h

theorem wholeField_tableValue {t : Table String α} (h : ∀ e ∈ t.entries, (g e.2).Whole) :
    WholeField (tableValue g t) := by
  refine wholeField_ite (whole_object fun m hm => ?_)
  obtain ⟨e, he, rfl⟩ := List.mem_map.mp hm
  exact h e he

theorem whole_present {names : List String} {values : List (Option Json)}
    (h : ∀ value ∈ values, WholeField value) : (object (present names values)).Whole :=
  whole_object fun _ hm => h _ (mem_present hm).2 _ rfl

end Parts

/-! ## Records -/

/-- A value whose JSON holds no numbers but whole ones, and is read as the value. -/
structure Restores {α : Type} (write : α → Json) (read : Json → Option α) (x : α) : Prop where
  whole : (write x).Whole
  back : read (write x) = some x

/-- A record is read back if it is written as an object of its fields, and what was written for the
fields is read back. -/
theorem Restores.of_fields {α : Type} {write : α → Json} {read : Json → Option α} {x : α}
    (names : List String) (values : List (Option Json))
    (hwrite : write x = object (present names values)) (hnames : names.Nodup)
    (hlength : names.length = values.length) (hwhole : ∀ value ∈ values, WholeField value)
    (hread : Json.fields? names (write x) = some values → read (write x) = some x) :
    Restores write read x :=
  ⟨hwrite ▸ whole_present hwhole, hread (hwrite ▸ fields?_present hnames hlength)⟩

end Json
end ClusterTransition
