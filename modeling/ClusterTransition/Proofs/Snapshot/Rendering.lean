import ClusterTransition.Snapshot.Node

/-! # What the rendering of a snapshot tells

Replicas compare digests of renderings, so a rendering must not hide anything.  It does not, as long
as the names of elements and attributes hold none of the characters that delimit them: the rendering
is then uniquely decodable, whatever the values of the attributes are (`toXml_eq_iff`).

Each part of the text is read back from the left.  A name ends at the first delimiter after it; a
value ends at the first quotation mark, since it has none of its own after escaping; an attribute
starts with a blank, which what follows the attributes does not; and a closing tag differs from a
child in its second character.
-/

namespace ClusterTransition

/-- A text without certain characters ends where the first of them stands. -/
theorem append_inj_of_stop {α : Type} {stop : α → Prop} {l l' : List α}
    (hl : ∀ x ∈ l, ¬ stop x) (hl' : ∀ x ∈ l', ¬ stop x) {d d' : α} (hd : stop d) (hd' : stop d')
    {u v : List α} (h : l ++ d :: u = l' ++ d' :: v) : l = l' ∧ d :: u = d' :: v := by
  induction l generalizing l' with
  | nil =>
    cases l' with
    | nil => exact ⟨rfl, h⟩
    | cons y l' =>
      obtain ⟨rfl, -⟩ := List.cons.inj h
      exact absurd hd (hl' _ (List.mem_cons_self ..))
  | cons x l ih =>
    cases l' with
    | nil =>
      obtain ⟨rfl, -⟩ := List.cons.inj h
      exact absurd hd' (hl _ (List.mem_cons_self ..))
    | cons y l' =>
      obtain ⟨rfl, htail⟩ := List.cons.inj h
      obtain ⟨rfl, hrest⟩ := ih (fun z hz => hl z (List.mem_cons_of_mem _ hz))
        (fun z hz => hl' z (List.mem_cons_of_mem _ hz)) htail
      exact ⟨rfl, hrest⟩

namespace ConfigNode

/-! ## Names -/

/-- The characters that end a name in the rendering or start something else. -/
def delimiters : List Char := [' ', '<', '>', '/', '=', '"']

/-- A name that can be told from what surrounds it.  Of all white space only the plain blank would
be taken for the end of the name. -/
def IsName (name : String) : Prop := name ≠ "" ∧ ∀ c ∈ name.toList, c ∉ delimiters

instance (name : String) : Decidable (IsName name) :=
  decidable_of_iff (name ≠ "" ∧ name.toList.all (fun c => c ∉ delimiters) = true) (by simp [IsName])

/-- All elements and attributes of the tree have proper names. -/
inductive WellNamed : ConfigNode → Prop where
  | mk {name : String} {attributes : List (String × String)} {children : List ConfigNode}
      (hname : IsName name) (hattributes : ∀ a ∈ attributes, IsName a.1)
      (hchildren : ∀ n ∈ children, WellNamed n) : WellNamed ⟨name, attributes, children⟩

/-- A name is followed by a delimiter and ends there. -/
theorem IsName.append_inj {m n : String} (hm : IsName m) (hn : IsName n) {c d : Char}
    (hc : c ∈ delimiters) (hd : d ∈ delimiters) {u v : List Char}
    (h : m.toList ++ c :: u = n.toList ++ d :: v) : m = n ∧ c :: u = d :: v := by
  obtain ⟨hname, hrest⟩ := append_inj_of_stop hm.2 hn.2 hc hd h
  exact ⟨String.toList_inj.mp hname, hrest⟩

/-- A name starts with a character that is no delimiter. -/
theorem IsName.exists_cons {name : String} (h : IsName name) :
    ∃ c cs, name.toList = c :: cs ∧ c ∉ delimiters := by
  cases hcs : name.toList with
  | nil => exact absurd (String.toList_inj.mp hcs) h.1
  | cons c cs => exact ⟨c, cs, rfl, h.2 c (hcs ▸ List.mem_cons_self ..)⟩

/-! ## Values -/

/-- Reads one written character, and answers it together with what follows. -/
def readChar : List Char → Option (Char × List Char)
  | '&' :: 'a' :: 'm' :: 'p' :: ';' :: u => some ('&', u)
  | '&' :: 'l' :: 't' :: ';' :: u => some ('<', u)
  | '&' :: 'g' :: 't' :: ';' :: u => some ('>', u)
  | '&' :: 'q' :: 'u' :: 'o' :: 't' :: ';' :: u => some ('"', u)
  | '&' :: 'a' :: 'p' :: 'o' :: 's' :: ';' :: u => some ('\'', u)
  | c :: u => some (c, u)
  | [] => none

/-- Every character is read back from its written form. -/
theorem readChar_escapeChar (c : Char) (u : List Char) :
    readChar (escapeChar c ++ u) = some (c, u) := by
  by_cases h : c ∈ ['&', '<', '>', '"', '\'']
  · simp only [List.mem_cons, List.not_mem_nil, or_false] at h
    rcases h with rfl | rfl | rfl | rfl | rfl <;> rfl
  · simp only [List.mem_cons, List.not_mem_nil, or_false, not_or] at h
    simp [escapeChar, h, readChar]

/-- The written form of a character does not start like that of another one. -/
theorem escapeChar_append_inj {c d : Char} {u v : List Char}
    (h : escapeChar c ++ u = escapeChar d ++ v) : c = d ∧ u = v := by
  have hread := congrArg readChar h
  simpa only [readChar_escapeChar, Option.some.injEq, Prod.mk.injEq] using hread

/-- No written form of a character starts with a quotation mark. -/
theorem escapeChar_append_ne (c : Char) (u v : List Char) : escapeChar c ++ u ≠ '"' :: v := by
  intro h
  have hread := congrArg readChar h
  rw [readChar_escapeChar] at hread
  obtain ⟨rfl, rfl⟩ : c = '"' ∧ u = v := by simpa [readChar] using hread
  simp [escapeChar] at h

/-- **An escaped value ends at the first quotation mark, and can be read back.** -/
theorem escape_append_inj {x y u v : List Char}
    (h : x.flatMap escapeChar ++ '"' :: u = y.flatMap escapeChar ++ '"' :: v) : x = y ∧ u = v := by
  induction x generalizing y with
  | nil =>
    cases y with
    | nil => exact ⟨rfl, (List.cons.inj h).2⟩
    | cons d y =>
      rw [List.flatMap_cons, List.append_assoc] at h
      exact absurd h.symm (escapeChar_append_ne d _ _)
  | cons c x ih =>
    cases y with
    | nil =>
      rw [List.flatMap_cons, List.append_assoc] at h
      exact absurd h (escapeChar_append_ne c _ _)
    | cons d y =>
      simp only [List.flatMap_cons, List.append_assoc] at h
      obtain ⟨rfl, htail⟩ := escapeChar_append_inj h
      obtain ⟨rfl, hrest⟩ := ih htail
      exact ⟨rfl, hrest⟩

/-! ## Attributes -/

theorem renderAttribute_append (a : String × String) (u : List Char) :
    renderAttribute a ++ u =
      ' ' :: (a.1.toList ++ '=' :: ('"' :: (a.2.toList.flatMap escapeChar ++ '"' :: u))) := by
  simp [renderAttribute]

/-- One attribute can be read back. -/
theorem renderAttribute_append_inj {a b : String × String} (ha : IsName a.1) (hb : IsName b.1)
    {u v : List Char} (h : renderAttribute a ++ u = renderAttribute b ++ v) : a = b ∧ u = v := by
  rw [renderAttribute_append, renderAttribute_append] at h
  obtain ⟨hname, hrest⟩ := ha.append_inj hb (by decide) (by decide) (List.cons.inj h).2
  obtain ⟨hvalue, huv⟩ := escape_append_inj (List.cons.inj (List.cons.inj hrest).2).2
  exact ⟨Prod.ext hname (String.toList_inj.mp hvalue), huv⟩

/-- **The attributes can be read back**, up to the first character that is no blank. -/
theorem attributes_append_inj {l l' : List (String × String)} (hl : ∀ a ∈ l, IsName a.1)
    (hl' : ∀ a ∈ l', IsName a.1) {c d : Char} (hc : c ≠ ' ') (hd : d ≠ ' ') {u v : List Char}
    (h : l.flatMap renderAttribute ++ c :: u = l'.flatMap renderAttribute ++ d :: v) :
    l = l' ∧ c :: u = d :: v := by
  induction l generalizing l' with
  | nil =>
    cases l' with
    | nil => exact ⟨rfl, h⟩
    | cons b l' =>
      rw [List.flatMap_cons, List.append_assoc, renderAttribute_append] at h
      exact absurd (List.cons.inj h).1 hc
  | cons a l ih =>
    cases l' with
    | nil =>
      rw [List.flatMap_cons, List.append_assoc, renderAttribute_append] at h
      exact absurd (List.cons.inj h).1.symm hd
    | cons b l' =>
      simp only [List.flatMap_cons, List.append_assoc] at h
      obtain ⟨rfl, htail⟩ := renderAttribute_append_inj (hl a (List.mem_cons_self ..))
        (hl' b (List.mem_cons_self ..)) h
      obtain ⟨rfl, hrest⟩ := ih (fun z hz => hl z (List.mem_cons_of_mem _ hz))
        (fun z hz => hl' z (List.mem_cons_of_mem _ hz)) htail
      exact ⟨rfl, hrest⟩

/-! ## Elements -/

/-- What follows the attributes of an element. -/
def renderContent (filter : Bool) (name : String) (children : List ConfigNode) : List Char :=
  match children with
  | [] => ['/', '>']
  | _ => '>' :: (renderChildren filter children ++ '<' :: '/' :: (name.toList ++ ['>']))

theorem renderXml_eq (filter : Bool) (name : String) (attributes : List (String × String))
    (children : List ConfigNode) : renderXml filter ⟨name, attributes, children⟩ =
      '<' :: (name.toList ++ ((keptAttributes filter attributes).flatMap renderAttribute ++
        renderContent filter name children)) := by
  cases children <;> simp [renderXml, renderContent, renderChildren]

/-- The attributes are followed by a delimiter that is no blank. -/
theorem exists_renderContent (name : String) (children : List ConfigNode) (u : List Char) :
    ∃ c v, renderContent false name children ++ u = c :: v ∧ c ∈ delimiters ∧ c ≠ ' ' := by
  cases children with
  | nil => exact ⟨'/', _, rfl, by decide, by decide⟩
  | cons n rest => exact ⟨'>', _, rfl, by decide, by decide⟩

/-- The name of an element is followed by a delimiter. -/
theorem exists_attributes_append (attributes : List (String × String)) (name : String)
    (children : List ConfigNode) (u : List Char) :
    ∃ c v, attributes.flatMap renderAttribute ++ (renderContent false name children ++ u) = c :: v ∧
      c ∈ delimiters := by
  cases attributes with
  | nil =>
    obtain ⟨c, v, hcontent, hc, -⟩ := exists_renderContent name children u
    exact ⟨c, v, hcontent, hc⟩
  | cons a rest =>
    rw [List.flatMap_cons, List.append_assoc, renderAttribute_append]
    exact ⟨' ', _, rfl, by decide⟩

/-- An element starts with a character that no closing tag has in this place. -/
theorem WellNamed.exists_renderXml {n : ConfigNode} (h : WellNamed n) (u : List Char) :
    ∃ c v, renderXml false n ++ u = '<' :: c :: v ∧ c ≠ '/' := by
  obtain ⟨hname, -, -⟩ := h
  obtain ⟨c, cs, hcs, hc⟩ := hname.exists_cons
  rw [renderXml_eq, hcs]
  refine ⟨c, _, rfl, ?_⟩
  rintro rfl
  exact hc (by decide)

/-- What follows the attributes can be read back if the children can. -/
theorem renderContent_append_inj {name : String} {l l' : List ConfigNode} {u v : List Char}
    (hread : ∀ {u v : List Char}, renderChildren false l ++ '<' :: '/' :: u =
      renderChildren false l' ++ '<' :: '/' :: v → l = l' ∧ u = v)
    (h : renderContent false name l ++ u = renderContent false name l' ++ v) : l = l' ∧ u = v := by
  cases l with
  | nil =>
    cases l' with
    | nil => exact ⟨rfl, by simpa [renderContent] using h⟩
    | cons n' l' => simp [renderContent] at h
  | cons n l =>
    cases l' with
    | nil => simp [renderContent] at h
    | cons n' l' =>
      simp only [renderContent, List.cons_append, List.append_assoc, List.cons.injEq,
        true_and] at h
      obtain ⟨hchildren, hrest⟩ := hread h
      exact ⟨hchildren, (List.cons.inj (List.append_cancel_left hrest)).2⟩

mutual

/-- **An element can be read back.** -/
theorem renderXml_append_inj : {a b : ConfigNode} → WellNamed a → WellNamed b → {u v : List Char} →
    renderXml false a ++ u = renderXml false b ++ v → a = b ∧ u = v
  | ⟨name, attributes, children⟩, ⟨name', attributes', children'⟩, ha, hb, u, v, h => by
    obtain ⟨hname, hattributes, hchildren⟩ := ha
    obtain ⟨hname', hattributes', hchildren'⟩ := hb
    simp only [renderXml_eq, keptAttributes, Bool.false_eq_true, if_false, List.cons_append,
      List.append_assoc, List.cons.injEq, true_and] at h
    obtain ⟨c, w, hw, hc⟩ := exists_attributes_append attributes name children u
    obtain ⟨c', w', hw', hc'⟩ := exists_attributes_append attributes' name' children' v
    rw [hw, hw'] at h
    obtain ⟨rfl, hrest⟩ := hname.append_inj hname' hc hc' h
    rw [← hw, ← hw'] at hrest
    obtain ⟨d, t, ht, -, hd⟩ := exists_renderContent name children u
    obtain ⟨d', t', ht', -, hd'⟩ := exists_renderContent name children' v
    rw [ht, ht'] at hrest
    obtain ⟨rfl, hcontent⟩ := attributes_append_inj hattributes hattributes' hd hd' hrest
    rw [← ht, ← ht'] at hcontent
    obtain ⟨rfl, huv⟩ := renderContent_append_inj
      (renderChildren_append_inj hchildren hchildren') hcontent
    exact ⟨rfl, huv⟩

/-- **The children of an element can be read back**, up to its closing tag. -/
theorem renderChildren_append_inj : {l l' : List ConfigNode} → (∀ n ∈ l, WellNamed n) →
    (∀ n ∈ l', WellNamed n) → {u v : List Char} →
    renderChildren false l ++ '<' :: '/' :: u = renderChildren false l' ++ '<' :: '/' :: v →
    l = l' ∧ u = v
  | [], [], _, _, u, v, h => by
    simpa [renderChildren] using h
  | [], n' :: l', _, hl', u, v, h => by
    obtain ⟨c, w, hw, hc⟩ := (hl' n' (List.mem_cons_self ..)).exists_renderXml
      (renderChildren false l' ++ '<' :: '/' :: v)
    rw [renderChildren, renderChildren, List.append_assoc, hw] at h
    exact absurd (List.cons.inj (List.cons.inj h).2).1.symm hc
  | n :: l, [], hl, _, u, v, h => by
    obtain ⟨c, w, hw, hc⟩ := (hl n (List.mem_cons_self ..)).exists_renderXml
      (renderChildren false l ++ '<' :: '/' :: u)
    rw [renderChildren, renderChildren, List.append_assoc, hw] at h
    exact absurd (List.cons.inj (List.cons.inj h).2).1 hc
  | n :: l, n' :: l', hl, hl', u, v, h => by
    simp only [renderChildren, List.append_assoc] at h
    obtain ⟨rfl, htail⟩ := renderXml_append_inj (hl n (List.mem_cons_self ..))
      (hl' n' (List.mem_cons_self ..)) h
    obtain ⟨rfl, huv⟩ := renderChildren_append_inj (fun m hm => hl m (List.mem_cons_of_mem _ hm))
      (fun m hm => hl' m (List.mem_cons_of_mem _ hm)) htail
    exact ⟨rfl, huv⟩

end

/-! ## Filtered renderings -/

mutual

/-- The tree without the volatile attributes, at every depth. -/
def withoutVolatile : ConfigNode → ConfigNode
  | ⟨name, attributes, children⟩ =>
    ⟨name, attributes.filter fun a => a.1 ∉ volatileAttributes, withoutVolatileAll children⟩

/-- The trees without their volatile attributes. -/
def withoutVolatileAll : List ConfigNode → List ConfigNode
  | [] => []
  | n :: rest => withoutVolatile n :: withoutVolatileAll rest

end

mutual

/-- **The filter leaves the volatile attributes out, and nothing else.** -/
theorem renderXml_withoutVolatile : (n : ConfigNode) →
    renderXml true n = renderXml false n.withoutVolatile
  | ⟨name, attributes, children⟩ => by
    have hattributes : keptAttributes true attributes =
        attributes.filter fun a => a.1 ∉ volatileAttributes := by
      simp [keptAttributes]
    have hcontent : renderContent true name children =
        renderContent false name (withoutVolatileAll children) := by
      have hchildren := renderChildren_withoutVolatile children
      cases children with
      | nil => rfl
      | cons n rest => simp only [renderContent, hchildren, withoutVolatileAll]
    rw [withoutVolatile, renderXml_eq, renderXml_eq, hattributes, hcontent]
    rfl

theorem renderChildren_withoutVolatile : (l : List ConfigNode) →
    renderChildren true l = renderChildren false (withoutVolatileAll l)
  | [] => rfl
  | n :: rest => by
    rw [renderChildren, withoutVolatileAll, renderChildren, renderXml_withoutVolatile n,
      renderChildren_withoutVolatile rest]

end

mutual

theorem WellNamed.withoutVolatile : {n : ConfigNode} → WellNamed n → WellNamed n.withoutVolatile
  | ⟨_, _, _⟩, ⟨hname, hattributes, hchildren⟩ =>
    .mk hname (fun a ha => hattributes a (List.mem_filter.mp ha).1)
      (wellNamed_withoutVolatileAll hchildren)

theorem wellNamed_withoutVolatileAll : {l : List ConfigNode} → (∀ n ∈ l, WellNamed n) →
    ∀ n ∈ withoutVolatileAll l, WellNamed n
  | [], _ => by simp [withoutVolatileAll]
  | n :: rest, hl => by
    intro m hm
    rcases List.mem_cons.mp hm with rfl | hm
    · exact (hl n (List.mem_cons_self ..)).withoutVolatile
    · exact wellNamed_withoutVolatileAll (fun m hm => hl m (List.mem_cons_of_mem _ hm)) m hm

end

/-- **A rendering tells everything that it is meant to tell.**  Take two snapshots whose elements
and attributes have names without blanks and without `<`, `>`, `/`, `=` and `"`; the values of the
attributes may be any texts, and names may be there twice.  The renderings are the same exactly if
the snapshots are; with the filter, exactly if they are the same without the volatile attributes at
all depths. -/
theorem toXml_eq_iff {a b : ConfigNode} (ha : WellNamed a) (hb : WellNamed b) (filter : Bool) :
    a.toXml filter = b.toXml filter ↔
      if filter then a.withoutVolatile = b.withoutVolatile else a = b := by
  have hplain {a b : ConfigNode} (ha : WellNamed a) (hb : WellNamed b)
      (h : renderXml false a = renderXml false b) : a = b :=
    (renderXml_append_inj ha hb (congrArg (· ++ []) h)).1
  have htext : a.toXml filter = b.toXml filter ↔ renderXml filter a = renderXml filter b :=
    String.ofList_inj
  rw [htext]
  cases filter with
  | false => exact ⟨hplain ha hb, congrArg (renderXml false)⟩
  | true =>
    rw [renderXml_withoutVolatile, renderXml_withoutVolatile]
    exact ⟨hplain ha.withoutVolatile hb.withoutVolatile, congrArg (renderXml false)⟩

/-- A snapshot that was last written by the given user, with a value full of delimiters below. -/
def writtenBy (user : String) : ConfigNode where
  name := "cib"
  attributes := [("epoch", "7"), ("update-user", user)]
  children := [{ name := "op", attributes := [("rule", "a < b && \"c\" /> <op"), ("rule", "")] }]

/-- Who wrote a snapshot last is told by its rendering, but not with the filter. -/
theorem writtenBy_toXml :
    WellNamed (writtenBy "admin") ∧ WellNamed (writtenBy "root") ∧
    (writtenBy "admin").toXml true = (writtenBy "root").toXml true ∧
    (writtenBy "admin").toXml false ≠ (writtenBy "root").toXml false := by
  have hnamed (user : String) : WellNamed (writtenBy user) := by
    refine .mk (by decide) ?_ fun n hn => ?_
    · simp only [List.mem_cons, List.not_mem_nil, or_false]
      rintro a (rfl | rfl) <;> dsimp only <;> decide
    · rw [List.mem_singleton.mp hn]
      exact .mk (by decide) (by decide) (by simp)
  refine ⟨hnamed _, hnamed _, (toXml_eq_iff (hnamed _) (hnamed _) true).mpr rfl, fun h => ?_⟩
  have hsame := (toXml_eq_iff (hnamed _) (hnamed _) false).mp h
  exact absurd (congrArg attributes hsame) (by decide)

end ConfigNode
end ClusterTransition
