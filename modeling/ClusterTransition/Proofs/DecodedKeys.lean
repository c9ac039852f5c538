import ClusterTransition.Proofs.TransitionKey
import Mathlib.Data.List.DropRight

/-! # Keys that are read, written and read again

Whoever reads a key cuts off the blanks at the end of its uuid, and after that all beyond 36
characters.  The cut may leave a blank in the last column.  Written again, the uuid ends in that
blank, which the next reader takes for filling; so a key that was read need not come back, and one
whose uuid begins with 36 blanks is even refused.

A key that was read comes back exactly if the character in the last column is no blank
(`TransitionKey.CutSolid`); what gets lost otherwise are the blanks at the end of the uuid, and only
once, since a key that was read from a written one comes back (`decoded_stable_iff`).
-/

namespace ClusterTransition

/-- There are no blanks left to cut off. -/
theorem endsSolid_trimEnd (cs : List Char) : EndsSolid (trimEnd cs) := by
  rw [← trimEnd_eq_self_iff]
  exact List.rdropWhile_idempotent isBlank cs

namespace TransitionKey

/-! ## What is read of a text -/

/-- The part of a text that a reader takes for the uuid. -/
def uuidText (cs : List Char) : List Char := (splitFields ':' 3 cs).getLast?.getD []

/-- No blank stands in the last column of the uuid, or it does not reach that far. -/
def CutSolid (cs : List Char) : Prop :=
  ∀ c, (trimEnd (uuidText cs))[uuidWidth - 1]? = some c → isBlank c = false

instance (cs : List Char) : Decidable (CutSolid cs) :=
  decidable_of_iff ((trimEnd (uuidText cs))[uuidWidth - 1]?.all fun c => !isBlank c) (by
    cases h : (trimEnd (uuidText cs))[uuidWidth - 1]? <;> simp [CutSolid, h])

/-- What is known of a key that was read from the text. -/
structure ReadFrom (cs : List Char) (k : TransitionKey) : Prop where
  inRange : k.InRange
  uuid : k.uuid = uuidField (uuidText cs)
  nonempty : k.uuid ≠ ""

theorem isInt32_of_intField {field : List Char} {n : Int} (h : intField field = some n) :
    Numeral.isInt32 n = true :=
  (Option.filter_eq_some_iff.mp h).2

/-- The numbers are in range, and the uuid comes from the last field, in each of the three forms. -/
theorem ofFields?_eq_some {fields : List (List Char)} {k : TransitionKey}
    (h : ofFields? fields = some k) :
    k.InRange ∧ k.uuid = uuidField (fields.getLast?.getD []) := by
  have hleft : Numeral.isInt32 (-1) = true := by decide
  unfold ofFields? at h
  split at h
  · simp only [bind, Option.bind_eq_some_iff, pure, Option.some.injEq] at h
    obtain ⟨action, ha, transition, ht, rc, hrc, rfl⟩ := h
    exact ⟨⟨isInt32_of_intField ha, isInt32_of_intField ht, isInt32_of_intField hrc⟩, rfl⟩
  · simp only [bind, Option.bind_eq_some_iff, pure, Option.some.injEq] at h
    obtain ⟨action, ha, transition, ht, rfl⟩ := h
    exact ⟨⟨isInt32_of_intField ha, isInt32_of_intField ht, hleft⟩, rfl⟩
  · simp only [bind, Option.bind_eq_some_iff, pure, Option.some.injEq] at h
    obtain ⟨transition, ht, rfl⟩ := h
    exact ⟨⟨hleft, isInt32_of_intField ht, hleft⟩, rfl⟩
  · cases h

theorem readFrom_of_decode {text : String} {k : TransitionKey} (h : decode text = .ok k) :
    ReadFrom text.toList k := by
  have hparse : parse? text.toList = some k := by
    unfold decode at h
    split at h
    · rename_i heq
      rw [heq, Except.ok.inj h]
    · cases h
  obtain ⟨hfields, hnonempty⟩ := Option.filter_eq_some_iff.mp hparse
  obtain ⟨hrange, huuid⟩ := ofFields?_eq_some hfields
  exact ⟨hrange, huuid, by simpa using hnonempty⟩

/-! ## Reading it again -/

/-- A uuid that is not too long loses no more than the blanks at its end. -/
theorem received_of_fits {uuid : String} (h : uuid.length ≤ uuidWidth) :
    received uuid = String.ofList (trimEnd uuid.toList) := by
  have hle := (trimEnd_isPrefix uuid.toList).length_le
  rw [String.length_toList] at hle
  rw [received, uuidField, List.take_of_length_le (hle.trans h)]

/-- What was received is received as it is. -/
theorem received_received (uuid : String) (h : uuid.length ≤ uuidWidth) :
    received (received uuid) = received uuid := by
  rw [received_eq_self_iff, received_of_fits h, String.toList_ofList, String.length_ofList]
  refine ⟨?_, endsSolid_trimEnd _⟩
  exact ((trimEnd_isPrefix uuid.toList).length_le.trans_eq (String.length_toList ..)).trans h

/-- The uuid ends in no blank just if none stands where it was cut. -/
theorem endsSolid_uuidField_iff (field : List Char) :
    EndsSolid (uuidField field).toList ↔
      ∀ c, (trimEnd field)[uuidWidth - 1]? = some c → isBlank c = false := by
  rw [uuidField, String.toList_ofList]
  rcases Nat.lt_or_ge (trimEnd field).length uuidWidth with h | h
  · rw [List.take_of_length_le h.le, List.getElem?_eq_none (by omega)]
    exact iff_of_true (endsSolid_trimEnd field) (by simp)
  · have hlast : ((trimEnd field).take uuidWidth).getLast? = (trimEnd field)[uuidWidth - 1]? := by
      rw [List.getLast?_eq_getElem?, List.length_take, Nat.min_eq_left h,
        List.getElem?_take_of_lt (by decide)]
    simp only [EndsSolid, hlast]

namespace ReadFrom

variable {cs : List Char} {k : TransitionKey}

theorem fits (h : ReadFrom cs k) : k.uuid.length ≤ uuidWidth := by
  rw [h.uuid, uuidField, String.length_ofList]
  exact List.length_take_le ..

/-- The key comes back just if its uuid was cut behind a character that is no blank. -/
theorem stable_iff (h : ReadFrom cs k) : decode k.encode = .ok k ↔ CutSolid cs := by
  rw [decode_encode_iff h.inRange, CutSolid, ← endsSolid_uuidField_iff, ← h.uuid]
  exact ⟨fun hportable => hportable.solid, fun hsolid => ⟨h.nonempty, h.fits, hsolid⟩⟩

/-- Nothing comes back just if the uuid is made of blanks. -/
theorem refused_iff (h : ReadFrom cs k) :
    (∃ e, decode k.encode = .error e) ↔ ∀ c ∈ k.uuid.toList, isBlank c = true := by
  have hblank : received k.uuid = "" ↔ ∀ c ∈ k.uuid.toList, isBlank c = true := by
    rw [received_of_fits h.fits, ← String.toList_inj, String.toList_ofList]
    exact List.rdropWhile_eq_nil_iff
  rw [decode_encode h.inRange, ← hblank]
  split
  · exact iff_of_true ⟨_, rfl⟩ ‹_›
  · exact iff_of_false (by simp) ‹_›

/-- What comes back, if anything does, has lost the blanks at the end of its uuid. -/
theorem eq_of_again (h : ReadFrom cs k) {k' : TransitionKey} (hagain : decode k.encode = .ok k') :
    k' = { k with uuid := String.ofList (trimEnd k.uuid.toList) } := by
  rw [decode_encode h.inRange, received_of_fits h.fits] at hagain
  split at hagain
  · cases hagain
  · exact (Except.ok.inj hagain).symm

/-- What came back once comes back always. -/
theorem settles (h : ReadFrom cs k) {k' : TransitionKey} (hagain : decode k.encode = .ok k') :
    decode k'.encode = .ok k' := by
  have hread := readFrom_of_decode hagain
  rw [decode_encode_iff hread.inRange, portable_iff]
  refine ⟨hread.nonempty, ?_⟩
  rw [h.eq_of_again hagain, ← received_of_fits h.fits]
  exact received_received k.uuid h.fits

end ReadFrom
end TransitionKey

/-! ## Magic -/

namespace TransitionMagic

/-- The key of magic is what is read behind the first semicolon. -/
theorem exists_key_of_decode {text : String} {m : TransitionMagic} (h : decode text = .ok m) :
    m.InRange ∧ ∃ codes key, splitFirst ';' text.toList = some (codes, key) ∧
      TransitionKey.decode (String.ofList key) = .ok m.key := by
  unfold decode at h
  split at h
  · cases h
  · rename_i codes key hsplit
    split at h
    · cases h
    · rename_i status rc hcodes
      simp only [codes?, bind, Option.bind_eq_some_iff, pure, Option.some.injEq,
        Prod.mk.injEq] at hcodes
      obtain ⟨⟨_, _⟩, -, _, hstatus, _, hrc, rfl, rfl⟩ := hcodes
      split at h
      · cases h
      · rename_i k hkey
        obtain rfl := Except.ok.inj h
        have hread := TransitionKey.readFrom_of_decode hkey
        exact ⟨⟨TransitionKey.isInt32_of_intField hstatus, TransitionKey.isInt32_of_intField hrc,
          hread.inRange⟩, codes, key, hsplit, hkey⟩

/-- Magic comes back as its key does. -/
theorem decode_encode_eq_ok_iff {m m' : TransitionMagic} (h : m.InRange) :
    decode m.encode = .ok m' ↔ ∃ key, TransitionKey.decode m.key.encode = .ok key ∧
      m' = { m with key } := by
  rw [decode_encode h]
  cases TransitionKey.decode m.key.encode with
  | error e => simp [Except.map]
  | ok key => simp [Except.map, eq_comm]

end TransitionMagic

/-- **What was read comes back if it was not cut behind a blank.**  A key that was read from a text,
in any of the three forms, comes back when it is written and read again just if the last column of
the uuid in the text holds no blank, once the blanks at the end are gone.  It does not come back at
all just if its uuid is made of blanks; otherwise it loses the blanks at the end of its uuid, and
what comes back then comes back always.  The same holds of magic and the key in it. -/
theorem decoded_stable_iff (text : String) :
    (∀ k, TransitionKey.decode text = .ok k →
      (TransitionKey.decode k.encode = .ok k ↔ TransitionKey.CutSolid text.toList) ∧
      ((∃ e, TransitionKey.decode k.encode = .error e) ↔
        ∀ c ∈ k.uuid.toList, isBlank c = true) ∧
      ∀ k', TransitionKey.decode k.encode = .ok k' →
        k' = { k with uuid := String.ofList (trimEnd k.uuid.toList) } ∧
          TransitionKey.decode k'.encode = .ok k') ∧
    ∀ m, TransitionMagic.decode text = .ok m → ∃ codes key,
      splitFirst ';' text.toList = some (codes, key) ∧
      (TransitionMagic.decode m.encode = .ok m ↔ TransitionKey.CutSolid key) ∧
      ((∃ e, TransitionMagic.decode m.encode = .error e) ↔
        ∀ c ∈ m.key.uuid.toList, isBlank c = true) ∧
      ∀ m', TransitionMagic.decode m.encode = .ok m' →
        m' = { m with key := { m.key with uuid := String.ofList (trimEnd m.key.uuid.toList) } } ∧
          TransitionMagic.decode m'.encode = .ok m' := by
  refine ⟨fun k h => ?_, fun m h => ?_⟩
  · have hread := TransitionKey.readFrom_of_decode h
    exact ⟨hread.stable_iff, hread.refused_iff,
      fun k' hagain => ⟨hread.eq_of_again hagain, hread.settles hagain⟩⟩
  · obtain ⟨hrange, codes, key, hsplit, hkey⟩ := TransitionMagic.exists_key_of_decode h
    have hread := TransitionKey.readFrom_of_decode hkey
    rw [String.toList_ofList] at hread
    refine ⟨codes, key, hsplit, ?_, ?_, fun m' hagain => ?_⟩
    · rw [TransitionMagic.decode_encode_iff hrange, ← TransitionKey.decode_encode_iff hrange.key,
        hread.stable_iff]
    · rw [← hread.refused_iff, TransitionMagic.decode_encode hrange]
      cases TransitionKey.decode m.key.encode <;> simp [Except.map]
    · obtain ⟨key', hagain', rfl⟩ := (TransitionMagic.decode_encode_eq_ok_iff hrange).mp hagain
      refine ⟨by rw [hread.eq_of_again hagain'], ?_⟩
      have hrange' : ({ m with key := key' } : TransitionMagic).InRange :=
        ⟨hrange.opStatus, hrange.opRc, (TransitionKey.readFrom_of_decode hagain').inRange⟩
      exact (TransitionMagic.decode_encode_eq_ok_iff hrange').mpr
        ⟨key', hread.settles hagain', rfl⟩

/-- A key of the oldest form, whose uuid is too long but is not cut behind a blank. -/
theorem longKey_stable : ∃ k,
    TransitionKey.decode " 41:6f1e8a52-7d0c-4c1b-9a3e-2b5d4c3a1f00 and more " = .ok k ∧
      k.uuid = "6f1e8a52-7d0c-4c1b-9a3e-2b5d4c3a1f00" ∧ TransitionKey.decode k.encode = .ok k := by
  let k : TransitionKey := ⟨-1, 41, -1, "6f1e8a52-7d0c-4c1b-9a3e-2b5d4c3a1f00"⟩
  have hread :
      TransitionKey.decode " 41:6f1e8a52-7d0c-4c1b-9a3e-2b5d4c3a1f00 and more " = .ok k := by
    decide +kernel
  refine ⟨k, hread, rfl, ?_⟩
  exact ((decoded_stable_iff _).1 k hread).1.mpr (by decide +kernel)

/-- A uuid with a blank in the last column comes back shorter, and one that begins with 36 blanks
does not come back. -/
theorem gappedKeys_unstable :
    (∃ k k', TransitionKey.decode "1:1:0:6f1e8a52-7d0c-4c1b-9a3e-2b5d4c3a1f0 0" = .ok k ∧
      k.uuid = "6f1e8a52-7d0c-4c1b-9a3e-2b5d4c3a1f0 " ∧ TransitionKey.decode k.encode = .ok k' ∧
      k'.uuid = "6f1e8a52-7d0c-4c1b-9a3e-2b5d4c3a1f0") ∧
    (∃ k, TransitionKey.decode "1:1:0:                                    x" = .ok k ∧
      TransitionKey.decode k.encode = .error (.invalidTransitionKey k.encode)) ∧
    ¬ (∀ text k, TransitionKey.decode text = .ok k → TransitionKey.decode k.encode = .ok k) ∧
    ¬ ∀ text m, TransitionMagic.decode text = .ok m → TransitionMagic.decode m.encode = .ok m := by
  let gapped : TransitionKey := ⟨1, 1, 0, "6f1e8a52-7d0c-4c1b-9a3e-2b5d4c3a1f0 "⟩
  let closed : TransitionKey := ⟨1, 1, 0, "6f1e8a52-7d0c-4c1b-9a3e-2b5d4c3a1f0"⟩
  let empty : TransitionKey := ⟨1, 1, 0, "                                    "⟩
  have hgapped :
      TransitionKey.decode "1:1:0:6f1e8a52-7d0c-4c1b-9a3e-2b5d4c3a1f0 0" = .ok gapped := by
    decide +kernel
  have hclosed : TransitionKey.decode gapped.encode = .ok closed := by decide +kernel
  have hempty : TransitionKey.decode "1:1:0:                                    x" = .ok empty := by
    decide +kernel
  refine ⟨⟨gapped, closed, hgapped, rfl, hclosed, rfl⟩, ⟨empty, hempty, by decide +kernel⟩,
    fun hstable => ?_, fun hstable => ?_⟩
  · have hsame := hstable _ gapped hgapped
    rw [hclosed] at hsame
    revert hsame
    decide +kernel
  · have hsame := hstable "0:0;1:1:0:6f1e8a52-7d0c-4c1b-9a3e-2b5d4c3a1f0 0" ⟨0, 0, gapped⟩
      (by decide +kernel)
    revert hsame
    decide +kernel

end ClusterTransition
