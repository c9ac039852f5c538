import ClusterTransition.Proofs.Record.ReadBack
import ClusterTransition.Record.Snapshot

/-! # Reading snapshots that were written

An element of a snapshot lies two levels above its children in the JSON that is written for it: they
stand in a list that is a member of its object.  The reader counts the levels in the same way, so it
reaches the bottom of every element that nests no deeper than the format allows
(`ConfigNode.readWithin?_toJson`).

With the snapshots all records are read back from their texts (`records_read_back`).
-/

namespace ClusterTransition
namespace Json

/-! ## Nesting -/

mutual

/-- How many lists and objects lie inside each other in a value. -/
def nesting : Json → Nat
  | .arr items => nestingItems items + 1
  | .obj members => nestingMembers members + 1
  | .null | .bool _ | .num _ | .str _ => 0

/-- The deepest nesting among the items of a list. -/
def nestingItems : List Json → Nat
  | [] => 0
  | item :: items => max (nesting item) (nestingItems items)

/-- The deepest nesting among the members of an object. -/
def nestingMembers : List (Option String × Json) → Nat
  | [] => 0
  | (_, value) :: members => max (nesting value) (nestingMembers members)

end

theorem nesting_arr {j : Json} {items : List Json} (h : j ∈ items) :
    j.nesting + 1 ≤ (Json.arr items).nesting := by
  have hitems : j.nesting ≤ nestingItems items := by
    induction items with
    | nil => cases h
    | cons item items ih =>
      rw [nestingItems]
      rcases List.mem_cons.mp h with rfl | h
      · exact Nat.le_max_left ..
      · exact Nat.le_trans (ih h) (Nat.le_max_right ..)
  rw [nesting]
  omega

theorem nesting_object {name : String} {j : Json} {members : List (String × Json)}
    (h : (name, j) ∈ members) : j.nesting + 1 ≤ (object members).nesting := by
  have hmembers : j.nesting ≤ nestingMembers (members.map fun m => (some m.1, m.2)) := by
    induction members with
    | nil => cases h
    | cons member members ih =>
      rw [List.map_cons, nestingMembers]
      rcases List.mem_cons.mp h with rfl | h
      · exact Nat.le_max_left ..
      · exact Nat.le_trans (ih h) (Nat.le_max_right ..)
  rw [object, nesting]
  omega

end Json

namespace ConfigNode

open Json

/-! ## Writing -/

theorem childrenJson_eq (children : List ConfigNode) :
    childrenJson children = children.map toJson := by
  induction children with
  | nil => rfl
  | cons n rest ih => rw [childrenJson, ih, List.map_cons]

/-- What is written for the attributes of an element. -/
def attributesValue (attributes : List (String × String)) : Option Json :=
  if attributes.isEmpty then none
  else some (object (attributes.map fun a => (a.1, text a.2)))

/-- What is written for the children of an element. -/
def childrenValue (children : List ConfigNode) : Option Json :=
  if children.isEmpty then none else some (list toJson children)

variable {name : String} {attributes : List (String × String)} {children : List ConfigNode}

theorem toJson_eq : toJson ⟨name, attributes, children⟩ =
    object (present ["name", "attributes", "children"]
      [some (text name), attributesValue attributes, childrenValue children]) := by
  have hattributes : member? "attributes" id (attributesValue attributes) =
      if attributes.isEmpty then []
      else [("attributes", object (attributes.map fun a => (a.1, text a.2)))] := by
    rw [attributesValue]
    split <;> rfl
  have hchildren : member? "children" id (childrenValue children) =
      if children.isEmpty then [] else [("children", .arr (childrenJson children))] := by
    rw [childrenValue, childrenJson_eq]
    split <;> rfl
  rw [toJson, ← hattributes, ← hchildren]
  simp [present]

/-- An element lies two levels above its children. -/
theorem nesting_child (name : String) (attributes : List (String × String)) {c : ConfigNode}
    (hc : c ∈ children) : c.toJson.nesting + 2 ≤ (toJson ⟨name, attributes, children⟩).nesting := by
  have hne : children ≠ [] := List.ne_nil_of_mem hc
  have hmem : ("children", list toJson children) ∈ present ["name", "attributes", "children"]
      [some (text name), attributesValue attributes, childrenValue children] := by
    simp [present, childrenValue, hne]
  have harr := nesting_arr (List.mem_map_of_mem (f := toJson) hc)
  have hobject := nesting_object hmem
  rw [← toJson_eq, list] at hobject
  omega

/-- An element lies a level above its attributes. -/
theorem nesting_attributes (name : String) (children : List ConfigNode) (h : attributes ≠ []) :
    2 ≤ (toJson ⟨name, attributes, children⟩).nesting := by
  have hmem : ("attributes", object (attributes.map fun a => (a.1, text a.2))) ∈
      present ["name", "attributes", "children"]
        [some (text name), attributesValue attributes, childrenValue children] := by
    simp [present, attributesValue, h]
  have hobject := nesting_object hmem
  rw [← toJson_eq, object, nesting] at hobject
  omega

/-! ## Reading -/

theorem readElement?_toJson {nested : Bool} {child : Json → Option ConfigNode}
    (hflat : nested = false → attributes = [] ∧ children = [])
    (hchild : ∀ c ∈ children, child c.toJson = some c) :
    readElement? reader nested child (toJson ⟨name, attributes, children⟩) =
      some ⟨name, attributes, children⟩ := by
  have hfields : Json.fields? _ (toJson ⟨name, attributes, children⟩) = some _ :=
    toJson_eq ▸ fields?_present (by decide) rfl
  have hattributes : defaulting [] (readAttributes? reader) (attributesValue attributes) =
      some attributes := by
    cases attributes with
    | nil => rfl
    | cons a rest =>
      have hentries := mapM_textMember? ((a :: rest).map fun a => (a.1, text a.2))
      show ((object _).entries?.bind _) = _
      rw [object, entries?, hentries]
      exact mapM_map_eq_some fun _ _ => rfl
  have hchildren : defaulting [] (reader.listOf? child) (childrenValue children) =
      some children := by
    cases children with
    | nil => rfl
    | cons c rest => exact listOf?_list hchild
  have hshallow : nested = false →
      attributesValue attributes = none ∧ childrenValue children = none := by
    intro hnested
    obtain ⟨rfl, rfl⟩ := hflat hnested
    exact ⟨rfl, rfl⟩
  simpa [readElement?, hfields, hattributes, hchildren] using hshallow

/-- An element is read back if the reader goes as deep as it nests. -/
theorem readWithin?_toJson : (depth : Nat) → (n : ConfigNode) → n.toJson.nesting ≤ depth →
    readWithin? reader depth n.toJson = some n
  | 0, ⟨name, attributes, children⟩, h => by
    rw [toJson_eq, object, nesting] at h
    omega
  -- on the last level there is room for a name only, and nothing else was written
  | 1, ⟨name, attributes, children⟩, h => by
    have hnone {c : ConfigNode} (hc : c ∈ children) : False := by
      have := nesting_child name attributes hc
      omega
    refine readElement?_toJson (fun _ => ⟨?_, ?_⟩) fun c hc => (hnone hc).elim
    · by_contra hne
      have := nesting_attributes name children hne
      omega
    · exact List.eq_nil_iff_forall_not_mem.mpr fun c hc => hnone hc
  | depth + 2, ⟨name, attributes, children⟩, h => by
    refine readElement?_toJson (fun hnested => absurd hnested (by decide)) fun c hc => ?_
    have := nesting_child name attributes hc
    exact readWithin?_toJson depth c (by omega)

mutual

theorem whole_toJson : (n : ConfigNode) → n.toJson.Whole
  | ⟨name, attributes, children⟩ => by
    have hattributes : WholeField (attributesValue attributes) := by
      refine wholeField_ite (whole_object fun m hm => ?_)
      obtain ⟨a, -, rfl⟩ := List.mem_map.mp hm
      exact whole_text a.2
    have hchildren : WholeField (childrenValue children) :=
      wholeField_ite (whole_list (whole_of_mem children))
    rw [toJson_eq]
    exact whole_present (by simp [hattributes, hchildren])

theorem whole_of_mem : (children : List ConfigNode) → ∀ c ∈ children, c.toJson.Whole
  | [] => by simp
  | n :: rest => List.forall_mem_cons.mpr ⟨whole_toJson n, whole_of_mem rest⟩

end

theorem restores {n : ConfigNode} (h : n.toJson.nesting ≤ 127) :
    Restores toJson (read? reader) n :=
  ⟨n.whole_toJson, readWithin?_toJson 127 n h⟩

end ConfigNode

/-! ## The text of a record -/

/-- The text that is written for a value, without blanks or on lines of its own, is read as the
value. -/
def ReadsBack {α : Type} (write : α → Json) (read : Json → Option α) (x : α) : Prop :=
  (Json.parse? (write x).compact).bind read = some x ∧
    (Json.parse? (write x).pretty).bind read = some x

theorem Json.Restores.readsBack {α : Type} {write : α → Json} {read : Json → Option α} {x : α}
    (h : Restores write read x) : ReadsBack write read x := by
  have htext (w : Json.Layout) : (Json.parse? (w.text (write x))).bind read = some x := by
    rw [Json.parse?_text h.whole, Option.bind_some, h.back]
  exact ⟨Json.Layout.text_dense (write x) ▸ htext .dense,
    Json.Layout.text_lines (write x) ▸ htext .lines⟩

open Json in
/-- **Whatever is stored is read back.**  The numbers of a record are in the ranges of its fields;
there is no condition on texts, on which fields are left out, or on how often the attributes of an
element repeat a name.  Elements may nest as deep as the format allows. -/
theorem records_read_back :
    (∀ d : GraphDocument, d.InRange →
      ReadsBack GraphDocument.toJson (GraphDocument.read? reader) d) ∧
    (∀ c : EngineConfig, c.InRange →
      ReadsBack EngineConfig.toJson (EngineConfig.read? reader) c) ∧
    (∀ a : Action, a.InRange → ReadsBack Action.toJson Action.ofJson? a) ∧
    (∀ op : Operation, op.InRange → ReadsBack Operation.toJson Operation.ofJson? op) ∧
    (∀ q : ActionRequest, q.InRange → ReadsBack ActionRequest.toJson ActionRequest.ofJson? q) ∧
    (∀ r : ActionResult, r.InRange → ReadsBack ActionResult.toJson ActionResult.ofJson? r) ∧
    (∀ s : Synapse, s.InRange → ReadsBack Synapse.toJson Synapse.ofJson? s) ∧
    (∀ c : PassCounters, c.InRange → ReadsBack PassCounters.toJson PassCounters.ofJson? c) ∧
    (∀ x : ConfigWarning, ReadsBack ConfigWarning.toJson (ConfigWarning.read? reader) x) ∧
    ∀ n : ConfigNode, n.toJson.nesting ≤ 127 →
      ReadsBack ConfigNode.toJson (ConfigNode.read? reader) n :=
  ⟨fun _ h => (GraphDocument.restores h).readsBack,
    fun _ h => (EngineConfig.restores h).readsBack,
    fun _ h => (Action.restores h).readsBack,
    fun _ h => (Operation.restores h).readsBack,
    fun _ h => (ActionRequest.restores h).readsBack,
    fun _ h => (ActionResult.restores h).readsBack,
    fun _ h => (Synapse.restores h).readsBack,
    fun _ h => (PassCounters.restores h).readsBack,
    fun x => x.restores.readsBack,
    fun _ h => (ConfigNode.restores h).readsBack⟩

/-- A graph whose only synapse waits for its own action. -/
def GraphDocument.delayed : GraphDocument where
  transitionId := -7
  batchLimit := some 2
  networkDelay := some 500
  synapses :=
    [{ id := 0
       actions :=
         [{ id := 1
            kind := .resource
            task := some "start"
            resource := some ⟨"db \"1\"", none, some "", none⟩
            params := Table.ofList [("b", "\u0001\\"), ("a", "é")]
            timeout := some 20 }]
       inputs := [1] }]

/-- An element that repeats an attribute and has a child. -/
def ConfigNode.repeated : ConfigNode where
  name := "nvpair"
  attributes := [("name", "b"), ("id", "\n"), ("name", "a")]
  children := [{ name := "rule" }]

/-- The action of the delayed graph after its failure. -/
def Action.failedStart : Action where
  id := 1
  kind := .resource
  op := { task := some "start", timeoutMs := 20 }
  status := .failed .timedOut

/-- Records with fields left out, texts with escapes and repeated names. -/
theorem delayed_read_back :
    ReadsBack GraphDocument.toJson (GraphDocument.read? Json.reader) .delayed ∧
    ReadsBack EngineConfig.toJson (EngineConfig.read? Json.reader) { node := "node1" } ∧
    ReadsBack Action.toJson Action.ofJson? .failedStart ∧
    ReadsBack Operation.toJson Operation.ofJson? Action.failedStart.op ∧
    ReadsBack ActionRequest.toJson ActionRequest.ofJson?
      { action := 1, kind := .resource, task := "start", transitionKey := "", target := "node1"
        op := Action.failedStart.op } ∧
    ReadsBack ActionResult.toJson ActionResult.ofJson?
      { transitionKey := "", status := .error, rc := -1 } ∧
    ReadsBack Synapse.toJson Synapse.ofJson?
      { id := 0, priority := 0, actions := [0], inputs := [⟨0, true⟩] } ∧
    ReadsBack PassCounters.toJson PassCounters.ofJson? { fired := 1 } ∧
    ReadsBack ConfigNode.toJson (ConfigNode.read? Json.reader) .repeated := by
  obtain ⟨hdocument, hconfig, haction, hop, hrequest, hresult, hsynapse, hcounters, -, hnode⟩ :=
    records_read_back
  refine ⟨hdocument _ ?_, hconfig _ ?_, haction _ ⟨rfl, rfl⟩, hop _ rfl, hrequest _ ⟨rfl, rfl⟩,
    hresult _ rfl, hsynapse _ ?_, hcounters _ ⟨rfl, rfl, rfl, rfl, rfl⟩, hnode _ ?_⟩
  · refine ⟨rfl, ?_, rfl, ?_, ?_, ?_, fun s hs => ?_⟩
    · rintro _ ⟨⟩
      rfl
    · rintro _ ⟨⟩
      rfl
    · rintro _ ⟨⟩
    · rintro _ ⟨⟩
    · obtain rfl := List.mem_singleton.mp hs
      refine ⟨rfl, rfl, fun a ha => ?_, by decide⟩
      obtain rfl := List.mem_singleton.mp ha
      refine ⟨rfl, ?_⟩
      rintro _ ⟨⟩
      rfl
  · exact ⟨rfl, ⟨rfl, by simp [Table.empty]⟩, ⟨rfl, rfl, rfl, rfl⟩, rfl⟩
  · exact ⟨rfl, rfl, by decide, by decide⟩
  · decide

end ClusterTransition
