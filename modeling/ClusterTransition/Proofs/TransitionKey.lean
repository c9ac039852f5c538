import ClusterTransition.TransitionKey
import Mathlib.Data.List.Basic

/-! # Keys that come back

A result is known by the key that went out with its request, so a key must be read as it was
written.  The fields in front of the uuid are numbers, which hold no separator; so the first three
colons of a written key are those between its fields, whatever the uuid looks like, and the readings
for shorter keys do not come into play (`TransitionKey.splitFields_render`).

The uuid is filled up with blanks, and whoever reads it cannot tell these from blanks of its own:
all blanks at its end go, and then all that is beyond 36 characters (`TransitionKey.received`).  So
a key comes back as it was just if nothing of its uuid is lost in this way
(`TransitionKey.decode_encode_iff`), and the same holds of magic
(`TransitionMagic.decode_encode_iff`).
-/

namespace ClusterTransition

/-! ## Blanks at the ends -/

/-- A text without blanks keeps all its characters. -/
theorem trimBlank_of_forall {cs : List Char} (h : ∀ c ∈ cs, isBlank c = false) :
    trimBlank cs = cs := by
  have hdrop {l : List Char} (hl : ∀ c ∈ l, isBlank c = false) : l.dropWhile isBlank = l := by
    cases l with
    | nil => rfl
    | cons c l => exact List.dropWhile_cons_of_neg (by simp [hl c (List.mem_cons_self ..)])
  rw [trimBlank, trimStart, hdrop h, trimEnd, hdrop (by simpa using h), List.reverse_reverse]

theorem trimEnd_append_replicate (cs : List Char) (n : Nat) :
    trimEnd (cs ++ List.replicate n ' ') = trimEnd cs := by
  induction n with
  | zero => simp
  | succ n ih =>
    rw [List.replicate_succ', ← List.append_assoc, trimEnd_concat_blank (by decide), ih]

theorem trimEnd_isPrefix (cs : List Char) : trimEnd cs <+: cs := by
  have h := List.dropWhile_suffix (l := cs.reverse) isBlank
  rw [← List.reverse_prefix, List.reverse_reverse] at h
  exact h

/-- The text does not end in a blank. -/
def EndsSolid (cs : List Char) : Prop := ∀ c, cs.getLast? = some c → isBlank c = false

instance (cs : List Char) : Decidable (EndsSolid cs) :=
  decidable_of_iff (cs.getLast?.all fun c => !isBlank c) (by
    cases h : cs.getLast? <;> simp [EndsSolid, h])

/-- Nothing is cut off at the end just if the text does not end in a blank. -/
theorem trimEnd_eq_self_iff {cs : List Char} : trimEnd cs = cs ↔ EndsSolid cs := by
  rcases List.eq_nil_or_concat' cs with rfl | ⟨front, last, rfl⟩
  · simp [trimEnd, EndsSolid]
  · simp only [EndsSolid, List.getLast?_concat, Option.some.injEq, forall_eq']
    constructor
    · intro h
      by_contra hblank
      rw [Bool.not_eq_false] at hblank
      rw [trimEnd_concat_blank hblank] at h
      have hle := (trimEnd_isPrefix front).length_le
      rw [h, List.length_append, List.length_singleton] at hle
      omega
    · exact trimEnd_concat

/-! ## Fields -/

/-- A field without a separator ends at the separator after it. -/
theorem splitFirst_append {sep : Char} {field : List Char} (h : sep ∉ field) (rest : List Char) :
    splitFirst sep (field ++ sep :: rest) = some (field, rest) := by
  induction field with
  | nil => simp [splitFirst]
  | cons c field ih =>
    rw [List.mem_cons, not_or] at h
    simp [splitFirst, Ne.symm h.1, ih h.2]

theorem splitFields_append {sep : Char} {field : List Char} (h : sep ∉ field) (n : Nat)
    (rest : List Char) :
    splitFields sep (n + 1) (field ++ sep :: rest) = field :: splitFields sep n rest := by
  rw [splitFields, splitFirst_append h]

/-- A written number is made of digits and perhaps a minus sign. -/
theorem mem_renderInt {n : Int} {c : Char} (h : c ∈ Numeral.renderInt n) :
    c.isDigit = true ∨ c = '-' := by
  cases n with
  | ofNat n => exact .inl (Numeral.isDigit_of_mem_renderNat h)
  | negSucc n =>
    rcases List.mem_cons.mp h with rfl | h
    · exact .inr rfl
    · exact .inl (Numeral.isDigit_of_mem_renderNat h)

theorem colon_notMem_renderInt (n : Int) : ':' ∉ Numeral.renderInt n := fun h => by
  rcases mem_renderInt h with h | h <;> exact absurd h (by decide)

theorem semicolon_notMem_renderInt (n : Int) : ';' ∉ Numeral.renderInt n := fun h => by
  rcases mem_renderInt h with h | h <;> exact absurd h (by decide)

/-- No digit is a blank. -/
theorem isBlank_of_isDigit {c : Char} (h : c.isDigit = true) : isBlank c = false := by
  simp only [Char.isDigit, Bool.and_eq_true, decide_eq_true_eq, UInt32.le_iff_toNat_le] at h
  obtain ⟨hlow, hhigh⟩ := h
  have hlow' : 48 ≤ c.toNat := hlow
  have hhigh' : c.toNat ≤ 57 := hhigh
  simp only [isBlank, Bool.or_eq_false_iff, Bool.and_eq_false_iff, decide_eq_false_iff_not,
    beq_eq_false_iff_ne]
  omega

namespace TransitionKey

/-- A number of 32 bits is read back from a field. -/
theorem intField_renderInt {n : Int} (h : Numeral.isInt32 n = true) :
    intField (Numeral.renderInt n) = some n := by
  have hsolid : ∀ c ∈ Numeral.renderInt n, isBlank c = false := by
    intro c hc
    rcases mem_renderInt hc with hdigit | rfl
    · exact isBlank_of_isDigit hdigit
    · decide
  rw [intField, trimBlank_of_forall hsolid, Numeral.parseInt32?, Numeral.parseInt?_renderInt]
  simp [Option.filter, h]

/-! ## The uuid -/

/-- What is read of a uuid that was written. -/
def received (uuid : String) : String := uuidField uuid.toList

theorem uuidField_padUuid (uuid : String) : uuidField (padUuid uuid.toList) = received uuid := by
  rw [uuidField, padUuid, trimEnd_append_replicate]
  rfl

/-- A uuid is received as it is just if it is not too long and does not end in a blank. -/
theorem received_eq_self_iff {uuid : String} :
    received uuid = uuid ↔ uuid.length ≤ uuidWidth ∧ EndsSolid uuid.toList := by
  have hchars : received uuid = uuid ↔
      (trimEnd uuid.toList).take uuidWidth = uuid.toList := by
    rw [← String.toList_inj, received, uuidField, String.toList_ofList]
  have hprefix := trimEnd_isPrefix uuid.toList
  rw [hchars, ← trimEnd_eq_self_iff, ← String.length_toList]
  constructor
  · intro h
    have hlength := congrArg List.length h
    rw [List.length_take] at hlength
    have hle := hprefix.length_le
    exact ⟨by omega, hprefix.eq_of_length (by omega)⟩
  · rintro ⟨hfits, hsolid⟩
    rw [hsolid, List.take_of_length_le hfits]

/-- The uuid comes back from a written key. -/
structure Portable (uuid : String) : Prop where
  nonempty : uuid ≠ ""
  fits : uuid.length ≤ uuidWidth
  solid : EndsSolid uuid.toList

instance (uuid : String) : Decidable (Portable uuid) :=
  decidable_of_iff (uuid ≠ "" ∧ uuid.length ≤ uuidWidth ∧ EndsSolid uuid.toList)
    ⟨fun ⟨h, h', h''⟩ => ⟨h, h', h''⟩, fun ⟨h, h', h''⟩ => ⟨h, h', h''⟩⟩

theorem portable_iff {uuid : String} : Portable uuid ↔ uuid ≠ "" ∧ received uuid = uuid := by
  rw [received_eq_self_iff]
  exact ⟨fun ⟨h, h', h''⟩ => ⟨h, h', h''⟩, fun ⟨h, h', h''⟩ => ⟨h, h', h''⟩⟩

/-! ## Keys -/

/-- The numbers of the key are numbers of 32 bits. -/
structure InRange (k : TransitionKey) : Prop where
  action : Numeral.isInt32 k.action = true
  transition : Numeral.isInt32 k.transition = true
  targetRc : Numeral.isInt32 k.targetRc = true

/-- The fields of a written key are its numbers and the padded uuid, whatever the uuid holds. -/
theorem splitFields_render (k : TransitionKey) : splitFields ':' 3 k.render =
    [Numeral.renderInt k.action, Numeral.renderInt k.transition, Numeral.renderInt k.targetRc,
      padUuid k.uuid.toList] := by
  simp only [render, List.append_assoc, List.cons_append]
  rw [splitFields_append (colon_notMem_renderInt _),
    splitFields_append (colon_notMem_renderInt _), splitFields_append (colon_notMem_renderInt _)]
  rfl

/-- **What is read from a written key**: its numbers, and what was received of its uuid. -/
theorem decode_encode {k : TransitionKey} (h : k.InRange) :
    decode k.encode =
      if received k.uuid = "" then .error (.invalidTransitionKey k.encode)
      else .ok { k with uuid := received k.uuid } := by
  have hfields : ofFields? (splitFields ':' 3 k.render) =
      some { k with uuid := received k.uuid } := by
    rw [splitFields_render, ofFields?, intField_renderInt h.action,
      intField_renderInt h.transition, intField_renderInt h.targetRc, uuidField_padUuid]
    rfl
  rw [decode, encode, String.toList_ofList, parse?, hfields]
  by_cases hempty : received k.uuid = "" <;> simp [Option.filter, hempty]

/-- **A key comes back just if its uuid does.** -/
theorem decode_encode_iff {k : TransitionKey} (h : k.InRange) :
    decode k.encode = .ok k ↔ Portable k.uuid := by
  rw [decode_encode h, portable_iff]
  split
  · rename_i hempty
    simp only [reduceCtorEq, false_iff, not_and]
    intro hne heq
    exact hne (heq.symm.trans hempty)
  · rename_i hreceived
    rw [Except.ok.injEq]
    constructor
    · intro hk
      have huuid : received k.uuid = k.uuid := congrArg TransitionKey.uuid hk
      exact ⟨huuid ▸ hreceived, huuid⟩
    · rintro ⟨-, huuid⟩
      rw [huuid]

/-- A uuid with colons, in which no field of an older form is seen. -/
example : decode (TransitionKey.mk 3 (-41) 0 "1:2:ä ;").encode =
    .ok (TransitionKey.mk 3 (-41) 0 "1:2:ä ;") := by rfl

end TransitionKey

/-! ## Magic -/

namespace TransitionMagic

/-- The numbers of the magic and of its key are numbers of 32 bits. -/
structure InRange (m : TransitionMagic) : Prop where
  opStatus : Numeral.isInt32 m.opStatus = true
  opRc : Numeral.isInt32 m.opRc = true
  key : m.key.InRange

/-- **What is read from written magic**: the codes in front, and what is read from the key. -/
theorem decode_encode {m : TransitionMagic} (h : m.InRange) :
    decode m.encode = (TransitionKey.decode m.key.encode).map fun key => { m with key } := by
  let codes := Numeral.renderInt m.opStatus ++ ':' :: Numeral.renderInt m.opRc
  have hsemicolon : ';' ∉ codes := by
    simp [codes, semicolon_notMem_renderInt]
  have hsplit : splitFirst ';' m.render = some (codes, m.key.render) := by
    rw [show m.render = codes ++ ';' :: m.key.render by simp [render, codes]]
    exact splitFirst_append hsemicolon _
  have hcodes : codes? codes = some (m.opStatus, m.opRc) := by
    simp [codes?, codes, splitFirst_append (colon_notMem_renderInt _),
      TransitionKey.intField_renderInt h.opStatus, TransitionKey.intField_renderInt h.opRc]
  simp only [decode, encode, String.toList_ofList, hsplit, hcodes]
  rw [show String.ofList m.key.render = m.key.encode from rfl]
  cases TransitionKey.decode m.key.encode <;> rfl

/-- **Magic comes back just if the uuid of its key does.** -/
theorem decode_encode_iff {m : TransitionMagic} (h : m.InRange) :
    decode m.encode = .ok m ↔ TransitionKey.Portable m.key.uuid := by
  rw [decode_encode h, ← TransitionKey.decode_encode_iff h.key]
  cases TransitionKey.decode m.key.encode with
  | error e => simp [Except.map]
  | ok key =>
    simp only [Except.map, Except.ok.injEq]
    exact ⟨congrArg TransitionMagic.key, fun hkey => by rw [hkey]⟩

end TransitionMagic
end ClusterTransition
