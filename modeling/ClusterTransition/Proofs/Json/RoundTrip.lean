import ClusterTransition.Json.Printer
import ClusterTransition.Json.Reader
import Mathlib.Data.List.Basic

/-! # Reading JSON that was written

Both ways of writing a value put the same parts in the same order and differ in the blanks between
them, so both are one function of a `Layout`.  The reader takes what any layout writes back to the
value (`Json.parse?_write`).

A reader of a part must know where the part ends.  A string ends with its quote and a list with its
bracket, but a number ends where something else begins: what follows a value is a comma, a closing
bracket or a blank, or nothing (`Json.Ends`).  The fuel that a value takes is bounded by twice the
length of its text, whatever the value is, so no value runs out of it.
-/

namespace ClusterTransition
namespace Json

/-! ## Layouts -/

/-- The blanks of a text: in front of each item, each member and each closing bracket, according to
the level, and after the colon of a member. -/
structure Layout where
  line : Nat → List Char
  gap : List Char
  line_blank : ∀ level, ∀ c ∈ line level, isSpace c = true
  gap_blank : ∀ c ∈ gap, isSpace c = true

namespace Layout

/-- The layout without blanks. -/
def dense : Layout := ⟨fun _ => [], [], by simp, by simp⟩

/-- The layout on lines. -/
def lines : Layout where
  line := newline
  gap := [' ']
  line_blank level c hc := by
    rcases List.mem_cons.mp hc with rfl | hc
    · rfl
    · rw [List.eq_of_mem_replicate hc]
      rfl
  gap_blank c hc := by
    rw [List.mem_singleton.mp hc]
    rfl

variable (w : Layout)

mutual

/-- Writes a value that stands at a level. -/
def write (level : Nat) : Json → List Char
  | .null => ['n', 'u', 'l', 'l']
  | .bool b => renderBool b
  | .num n => renderNumber n
  | .str s => renderString s
  | .arr [] => ['[', ']']
  | .arr (item :: items) =>
    '[' :: w.line (level + 1) ++ write (level + 1) item ++ writeItems level items
  | .obj [] => ['\x7b', '\x7d']
  | .obj ((name, value) :: members) =>
    '\x7b' :: w.line (level + 1) ++ renderString name ++ ':' :: w.gap ++ write (level + 1) value ++
      writeMembers level members

/-- Writes the items after the first, and the end of the list. -/
def writeItems (level : Nat) : List Json → List Char
  | [] => w.line level ++ [']']
  | item :: items =>
    ',' :: w.line (level + 1) ++ write (level + 1) item ++ writeItems level items

/-- Writes the members after the first, and the end of the object. -/
def writeMembers (level : Nat) : List (Option String × Json) → List Char
  | [] => w.line level ++ ['\x7d']
  | (name, value) :: members =>
    ',' :: w.line (level + 1) ++ renderString name ++ ':' :: w.gap ++ write (level + 1) value ++
      writeMembers level members

end

mutual

theorem write_dense (level : Nat) : ∀ j, dense.write level j = j.render
  | .null | .bool _ | .num _ | .str _ => by simp only [write, render]
  | .arr [] | .obj [] => by simp only [write, render]
  | .arr (item :: items) => by
    simp [write, render, dense, ← write_dense (level + 1) item, ← writeItems_dense level items]
  | .obj ((name, value) :: members) => by
    simp [write, render, dense, ← write_dense (level + 1) value,
      ← writeMembers_dense level members]

theorem writeItems_dense (level : Nat) : ∀ items, dense.writeItems level items = renderItems items
  | [] => by simp [writeItems, renderItems, dense]
  | item :: items => by
    simp [writeItems, renderItems, dense, ← write_dense (level + 1) item,
      ← writeItems_dense level items]

theorem writeMembers_dense (level : Nat) :
    ∀ members, dense.writeMembers level members = renderMembers members
  | [] => by simp [writeMembers, renderMembers, dense]
  | (name, value) :: members => by
    simp [writeMembers, renderMembers, dense, ← write_dense (level + 1) value,
      ← writeMembers_dense level members]

end

mutual

theorem write_lines (level : Nat) : ∀ j, lines.write level j = j.renderLines level
  | .null | .bool _ | .num _ | .str _ => by simp only [write, renderLines]
  | .arr [] | .obj [] => by simp only [write, renderLines]
  | .arr (item :: items) => by
    simp [write, renderLines, lines, ← write_lines (level + 1) item,
      ← writeItems_lines level items]
  | .obj ((name, value) :: members) => by
    simp [write, renderLines, lines, ← write_lines (level + 1) value,
      ← writeMembers_lines level members]

theorem writeItems_lines (level : Nat) :
    ∀ items, lines.writeItems level items = renderItemLines level items
  | [] => by simp [writeItems, renderItemLines, lines]
  | item :: items => by
    simp [writeItems, renderItemLines, lines, ← write_lines (level + 1) item,
      ← writeItems_lines level items]

theorem writeMembers_lines (level : Nat) :
    ∀ members, lines.writeMembers level members = renderMemberLines level members
  | [] => by simp [writeMembers, renderMemberLines, lines]
  | (name, value) :: members => by
    simp [writeMembers, renderMemberLines, lines, ← write_lines (level + 1) value,
      ← writeMembers_lines level members]

end

/-- The text of a value in a layout. -/
def text (j : Json) : String := String.ofList (w.write 0 j)

theorem text_dense (j : Json) : dense.text j = j.compact := by
  rw [text, write_dense, compact]

theorem text_lines (j : Json) : lines.text j = j.pretty := by
  rw [text, write_lines, pretty]

end Layout

/-! ## Strings -/

theorem parseUnits_code (a b c d : Char) (rest : List Char) :
    parseUnits ('\\' :: 'u' :: a :: b :: c :: d :: rest) =
      (Numeral.parseBase? 16 [a, b, c, d]).bind fun n =>
        (parseUnits rest).map fun p => (.code n :: p.1, p.2) := by
  simp only [parseUnits]
  cases Numeral.parseBase? 16 [a, b, c, d] with
  | none => rfl
  | some n => cases parseUnits rest <;> rfl

theorem parseUnits_escape {e c : Char} (h : shortEscape e = some c) (rest : List Char) :
    parseUnits ('\\' :: e :: rest) = (parseUnits rest).map fun p => (.char c :: p.1, p.2) := by
  conv_lhs => unfold parseUnits
  split
  · contradiction
  · rename_i heq
    cases heq
  · rename_i heq
    cases heq
    cases h
  · rename_i heq
    cases heq
    rw [h]
    cases parseUnits rest <;> rfl
  · rename_i hne heq
    cases heq
    exact (hne e rest rfl rfl).elim

theorem parseUnits_plain {c : Char} (hquote : c ≠ '"') (hback : c ≠ '\\') (hplain : ¬ c.toNat < 32)
    (rest : List Char) :
    parseUnits (c :: rest) = (parseUnits rest).map fun p => (.char c :: p.1, p.2) := by
  conv_lhs => unfold parseUnits
  split
  · contradiction
  · rename_i heq
    cases heq
    exact absurd rfl hquote
  · rename_i heq
    cases heq
    exact absurd rfl hback
  · rename_i heq
    cases heq
    exact absurd rfl hback
  · rename_i heq
    cases heq
    rw [if_neg hplain]
    cases parseUnits rest <;> rfl

theorem joinUnits_code {n : Nat} (h : n < 0xD800) (us : List StringUnit) :
    joinUnits (.code n :: us) = (joinUnits us).map (Char.ofNat n :: ·) := by
  rw [joinUnits.eq_def]
  simp only
  rw [if_neg (by omega), if_neg (by omega)]

theorem parseBase?_hexDigit : ∀ n < 32,
    Numeral.parseBase? 16 ['0', '0', hexDigit (n / 16), hexDigit (n % 16)] = some n := by
  decide +kernel

/-- An escaped character is one unit, which stands for the character. -/
theorem exists_unit (c : Char) : ∃ u : StringUnit,
    (∀ rest, parseUnits (escapeChar c ++ rest) =
      (parseUnits rest).map fun p => (u :: p.1, p.2)) ∧
    ∀ us, joinUnits (u :: us) = (joinUnits us).map (c :: ·) := by
  have hshort {e : Char} (h : shortEscape e = some c) : ∃ u : StringUnit,
      (∀ rest, parseUnits (['\\', e] ++ rest) = (parseUnits rest).map fun p => (u :: p.1, p.2)) ∧
      ∀ us, joinUnits (u :: us) = (joinUnits us).map (c :: ·) :=
    ⟨.char c, fun rest => parseUnits_escape h rest, fun us => rfl⟩
  have hof (n : Nat) (h : c.toNat = n) : Char.ofNat n = c := by rw [← h, Char.ofNat_toNat]
  -- seven characters have a short escape; of the others those below the blank have a code
  simp only [escapeChar]
  split
  · subst_vars
    exact hshort rfl
  split
  · subst_vars
    exact hshort rfl
  split
  · subst_vars
    exact hshort rfl
  split
  · subst_vars
    exact hshort rfl
  split
  · subst_vars
    exact hshort rfl
  split
  · rename_i h
    exact hshort (by rw [← hof 8 h]; rfl)
  split
  · rename_i h
    exact hshort (by rw [← hof 12 h]; rfl)
  split
  · rename_i h
    refine ⟨.code c.toNat, fun rest => ?_, fun us => ?_⟩
    · rw [List.cons_append, List.cons_append, List.cons_append, List.cons_append, List.cons_append,
        List.cons_append, List.nil_append, parseUnits_code, parseBase?_hexDigit _ h]
      rfl
    · rw [joinUnits_code (by omega), Char.ofNat_toNat]
  · rename_i hquote hback _ _ _ _ _ hplain
    exact ⟨.char c, fun rest => parseUnits_plain hquote hback hplain rest, fun us => rfl⟩

/-- A written text is read up to its closing quote. -/
theorem parseString_renderText (cs rest : List Char) :
    parseString (cs.flatMap escapeChar ++ '"' :: rest) = some (some (String.ofList cs), rest) := by
  have hunits : ∃ units, parseUnits (cs.flatMap escapeChar ++ '"' :: rest) = some (units, rest) ∧
      joinUnits units = some cs := by
    induction cs with
    | nil => exact ⟨[], by simp [parseUnits], rfl⟩
    | cons c cs ih =>
      obtain ⟨units, hparse, hjoin⟩ := ih
      obtain ⟨u, hunit, htext⟩ := exists_unit c
      refine ⟨u :: units, ?_, ?_⟩
      · rw [List.flatMap_cons, List.append_assoc, hunit, hparse]
        rfl
      · rw [htext, hjoin]
        rfl
  obtain ⟨units, hparse, hjoin⟩ := hunits
  rw [parseString, hparse, Option.map_some, hjoin, Option.map_some]

/-- A written string is a quote and what is read after it. -/
theorem parseString_renderString (s : Option String) (rest : List Char) :
    ∃ body, renderString s ++ rest = '"' :: body ∧ parseString body = some (s, rest) := by
  cases s with
  | none =>
    refine ⟨['\\', 'u', 'd', '8', '0', '0', '"'] ++ rest, rfl, ?_⟩
    rfl
  | some s =>
    refine ⟨s.toList.flatMap escapeChar ++ '"' :: rest, by simp [renderString, renderText], ?_⟩
    rw [parseString_renderText, String.ofList_toList]

/-! ## Numbers -/

/-- What may follow a value: a comma, a closing bracket or a blank, or nothing. -/
def Ends (cs : List Char) : Prop :=
  ∀ c, cs.head? = some c → isSpace c = true ∨ c = ',' ∨ c = ']' ∨ c = '\x7d'

theorem Ends.blanks {blanks cs : List Char} (h : Ends cs)
    (hblank : ∀ c ∈ blanks, isSpace c = true) : Ends (blanks ++ cs) := by
  intro c hc
  cases blanks with
  | nil => exact h c hc
  | cons b blanks =>
    obtain rfl := Option.some.inj hc
    exact .inl (hblank _ (List.mem_cons_self ..))

/-- What may follow a value does not go on with a number. -/
theorem Ends.stops {cs : List Char} (h : Ends cs) {c : Char} (hc : cs.head? = some c) :
    c.isDigit = false ∧ c ≠ '.' ∧ c ≠ 'e' ∧ c ≠ 'E' := by
  rcases h c hc with h | rfl | rfl | rfl
  · simp only [isSpace, Bool.or_eq_true, decide_eq_true_eq] at h
    rcases h with ((rfl | rfl) | rfl) | rfl <;> decide
  all_goals decide

/-- A number starts with a zero only if it is zero. -/
theorem renderNat_of_zero {n : Nat} {cs : List Char} (h : Numeral.renderNat n = '0' :: cs) :
    cs = [] := by
  -- the digits in front of the last one are those of `n / 10`, so they do not begin with a zero
  induction n using Nat.strongRecOn generalizing cs with
  | ind n ih =>
    rw [Numeral.renderNat, Nat.toDigits_eq_if (by decide)] at h
    split at h
    · exact (List.cons.inj h).2.symm
    · rename_i hten
      cases hhead : Numeral.renderNat (n / 10) with
      | nil => exact absurd hhead (Numeral.renderNat_ne_nil _)
      | cons c rest =>
        rw [← Numeral.renderNat, hhead, List.cons_append] at h
        obtain ⟨rfl, -⟩ := List.cons.inj h
        have hzero := ih (n / 10) (by omega) hhead
        have hvalue := Numeral.parseNat?_renderNat (n / 10)
        rw [hhead, hzero] at hvalue
        have : n / 10 = 0 := (Option.some.inj hvalue).symm
        omega

theorem parseWhole_renderNat (n : Nat) {rest : List Char} (h : Ends rest) :
    parseWhole (Numeral.renderNat n ++ rest) = some (n, rest) := by
  have hdigits : ∀ c ∈ Numeral.renderNat n, c.isDigit = true :=
    fun c => Numeral.isDigit_of_mem_renderNat
  have hspan : spanDigits (Numeral.renderNat n ++ rest) = (Numeral.renderNat n, rest) := by
    rw [spanDigits, List.takeWhile_append_of_pos hdigits, List.dropWhile_append_of_pos hdigits]
    cases rest with
    | nil => simp
    | cons c rest => simp [(h.stops rfl).1]
  have hvalue : Nat.ofDigitChars 10 (Numeral.renderNat n) 0 = n :=
    Nat.ofDigitChars_toDigits (by decide) (by decide)
  rw [parseWhole, hspan]
  split
  · rename_i heq
    exact absurd (Prod.mk.inj heq).1 (Numeral.renderNat_ne_nil n)
  · rename_i heq
    cases renderNat_of_zero (Prod.mk.inj heq).1
  · rename_i heq
    obtain ⟨rfl, rfl⟩ := Prod.mk.inj heq
    rw [hvalue]

theorem parseNumber_renderNat (negative : Bool) (n : Nat) {rest : List Char} (h : Ends rest) :
    parseNumber negative (Numeral.renderNat n ++ rest) =
      some (.num (.integer negative n), rest) := by
  have hfraction : parseFraction rest = some ([], rest) := by
    cases rest with
    | nil => rfl
    | cons c rest =>
      unfold parseFraction
      split
      · rename_i heq
        cases heq
        exact absurd rfl (h.stops rfl).2.1
      · rfl
  have hexponent : parseExponent rest = some (none, rest) := by
    cases rest with
    | nil => rfl
    | cons c rest =>
      obtain ⟨-, -, he, hE⟩ := h.stops rfl
      exact if_neg (by simp [he, hE])
  simp [parseNumber, parseWhole_renderNat n h, hfraction, hexponent]

/-! ## Blanks -/

section Blanks

variable {fuel : Nat} {blanks : List Char} (h : ∀ c ∈ blanks, isSpace c = true) (cs : List Char)

include h

theorem skipSpace_blanks : skipSpace (blanks ++ cs) = skipSpace cs :=
  List.dropWhile_append_of_pos h

theorem parseValue_blanks : parseValue fuel (blanks ++ cs) = parseValue fuel cs := by
  cases fuel with
  | zero => rfl
  | succ fuel => rw [parseValue, parseValue, skipSpace_blanks h]

theorem parseItems_blanks : parseItems fuel (blanks ++ cs) = parseItems fuel cs := by
  cases fuel with
  | zero => rfl
  | succ fuel => rw [parseItems, parseItems, parseValue_blanks h]

theorem parseMembers_blanks : parseMembers fuel (blanks ++ cs) = parseMembers fuel cs := by
  cases fuel with
  | zero => rfl
  | succ fuel => rw [parseMembers, parseMembers, skipSpace_blanks h]

end Blanks

theorem skipSpace_cons {c : Char} (h : isSpace c = false) (cs : List Char) :
    skipSpace (c :: cs) = c :: cs :=
  List.dropWhile_cons_of_neg (by simp [h])

/-! ## Values -/

/-- All numbers in a value are whole numbers. -/
inductive Whole : Json → Prop
  | null : Whole .null
  | bool (b : Bool) : Whole (.bool b)
  | integer (negative : Bool) (n : Nat) : Whole (.num (.integer negative n))
  | str (s : Option String) : Whole (.str s)
  | arr {items : List Json} (h : ∀ j ∈ items, Whole j) : Whole (.arr items)
  | obj {members : List (Option String × Json)} (h : ∀ m ∈ members, Whole m.2) :
    Whole (.obj members)

/-- The text of a value in the layout is read back, at any level, whatever follows, and with twice
as much fuel as the text is long. -/
def Reads (w : Layout) (j : Json) : Prop :=
  ∀ (level fuel : Nat) {rest : List Char}, Ends rest → 2 * (w.write level j).length ≤ fuel →
    parseValue fuel (w.write level j ++ rest) = some (j, rest)

variable {w : Layout} {level fuel : Nat}

theorem ends_cons {c : Char} (h : c = ',' ∨ c = ']' ∨ c = '\x7d') (cs : List Char) :
    Ends (c :: cs) := by
  intro c' hc
  obtain rfl := Option.some.inj hc
  exact .inr h

/-- The text of the later items begins with what may follow a value. -/
theorem ends_writeItems (w : Layout) (level : Nat) (items : List Json) (rest : List Char) :
    Ends (w.writeItems level items ++ rest) := by
  cases items with
  | nil =>
    rw [Layout.writeItems, List.append_assoc]
    exact (ends_cons (.inr (.inl rfl)) _).blanks (w.line_blank level)
  | cons item items =>
    rw [Layout.writeItems]
    exact ends_cons (.inl rfl) _

/-- The text of the later members begins with what may follow a value. -/
theorem ends_writeMembers (w : Layout) (level : Nat) (members : List (Option String × Json))
    (rest : List Char) : Ends (w.writeMembers level members ++ rest) := by
  cases members with
  | nil =>
    rw [Layout.writeMembers, List.append_assoc]
    exact (ends_cons (.inr (.inr rfl)) _).blanks (w.line_blank level)
  | cons member members =>
    rw [Layout.writeMembers]
    exact ends_cons (.inl rfl) _

/-- The items of a list are read up to its bracket. -/
theorem parseItems_write {item : Json} {items : List Json} (h : ∀ j ∈ item :: items, Reads w j)
    {rest : List Char}
    (hfuel : 2 * ((w.write (level + 1) item).length + (w.writeItems level items).length) ≤ fuel) :
    parseItems fuel (w.write (level + 1) item ++ (w.writeItems level items ++ rest)) =
      some (item :: items, rest) := by
  induction items generalizing item fuel with
  | nil =>
    simp only [Layout.writeItems, List.length_append, List.length_cons, List.length_nil] at hfuel
    obtain ⟨fuel, rfl⟩ : ∃ n, fuel = n + 1 := ⟨fuel - 1, by omega⟩
    have hitem := h item (List.mem_cons_self ..) (level + 1) fuel
      (ends_writeItems w level [] rest) (by omega)
    rw [parseItems, hitem]
    simp only [Layout.writeItems, List.append_assoc, skipSpace_blanks (w.line_blank level)]
    rfl
  | cons next items ih =>
    simp only [Layout.writeItems, List.length_append, List.length_cons] at hfuel
    obtain ⟨fuel, rfl⟩ : ∃ n, fuel = n + 1 := ⟨fuel - 1, by omega⟩
    have hitem := h item (List.mem_cons_self ..) (level + 1) fuel
      (ends_writeItems w level (next :: items) rest) (by omega)
    have hrest : parseItems fuel _ = some (next :: items, rest) :=
      ih (fun j hj => h j (List.mem_cons_of_mem _ hj)) (by omega)
    rw [parseItems, hitem]
    simp only [Layout.writeItems, List.cons_append, List.append_assoc,
      skipSpace_cons (c := ',') rfl, parseItems_blanks (w.line_blank (level + 1)), hrest,
      Option.map_some]

/-- The members of an object are read up to its brace. -/
theorem parseMembers_write {name : Option String} {value : Json}
    {members : List (Option String × Json)} (h : ∀ m ∈ (name, value) :: members, Reads w m.2)
    {rest : List Char}
    (hfuel : 2 * ((w.write (level + 1) value).length + 1 +
      (w.writeMembers level members).length) ≤ fuel) :
    parseMembers fuel (renderString name ++ ':' :: (w.gap ++
      (w.write (level + 1) value ++ (w.writeMembers level members ++ rest)))) =
      some ((name, value) :: members, rest) := by
  have hreads : Reads w value := h (name, value) (List.mem_cons_self ..)
  induction members generalizing name value fuel with
  | nil =>
    simp only [Layout.writeMembers, List.length_append, List.length_cons, List.length_nil]
      at hfuel
    obtain ⟨fuel, rfl⟩ : ∃ n, fuel = n + 1 := ⟨fuel - 1, by omega⟩
    have hvalue := hreads (level + 1) fuel (ends_writeMembers w level [] rest) (by omega)
    obtain ⟨body, hbody, hname⟩ := parseString_renderString name (':' :: (w.gap ++
      (w.write (level + 1) value ++ (w.writeMembers level [] ++ rest))))
    rw [parseMembers, hbody, skipSpace_cons rfl]
    simp only [hname, skipSpace_cons (c := ':') rfl, parseValue_blanks w.gap_blank, hvalue]
    simp only [Layout.writeMembers, List.append_assoc, skipSpace_blanks (w.line_blank level)]
    rfl
  | cons next members ih =>
    obtain ⟨name', value'⟩ := next
    simp only [Layout.writeMembers, List.length_append, List.length_cons] at hfuel
    obtain ⟨fuel, rfl⟩ : ∃ n, fuel = n + 1 := ⟨fuel - 1, by omega⟩
    have hvalue := hreads (level + 1) fuel
      (ends_writeMembers w level ((name', value') :: members) rest) (by omega)
    have hmembers : ∀ m ∈ (name', value') :: members, Reads w m.2 :=
      fun m hm => h m (List.mem_cons_of_mem _ hm)
    have hrest : parseMembers fuel _ = some ((name', value') :: members, rest) :=
      ih hmembers (by omega) (hmembers _ (List.mem_cons_self ..))
    obtain ⟨body, hbody, hname⟩ := parseString_renderString name (':' :: (w.gap ++
      (w.write (level + 1) value ++
        (w.writeMembers level ((name', value') :: members) ++ rest))))
    rw [parseMembers, hbody, skipSpace_cons rfl]
    simp only [hname, skipSpace_cons (c := ':') rfl, parseValue_blanks w.gap_blank, hvalue]
    simp only [Layout.writeMembers, List.cons_append, List.append_assoc,
      skipSpace_cons (c := ',') rfl, parseMembers_blanks (w.line_blank (level + 1)), hrest,
      Option.map_some]

theorem isSpace_of_isDigit {c : Char} (hc : c.isDigit = true) : isSpace c = false := by
  rw [Bool.eq_false_iff]
  intro h
  simp only [isSpace, Bool.or_eq_true, decide_eq_true_eq] at h
  rcases h with ((rfl | rfl) | rfl) | rfl <;> exact absurd hc (by decide)

/-- What begins with a digit is read as a number. -/
theorem parseValue_digit {c : Char} (hc : c.isDigit = true) (cs : List Char) :
    parseValue (fuel + 1) (c :: cs) = parseNumber false (c :: cs) := by
  rw [parseValue, skipSpace_cons (isSpace_of_isDigit hc)]
  split
  case h_8 => rfl
  all_goals
    rename_i heq
    cases heq
    exact absurd hc (by decide)

theorem exists_digit (n : Nat) :
    ∃ c cs, Numeral.renderNat n = c :: cs ∧ c.isDigit = true := by
  obtain ⟨c, cs, hcs⟩ := List.exists_cons_of_ne_nil (Numeral.renderNat_ne_nil n)
  exact ⟨c, cs, hcs, Numeral.isDigit_of_mem_renderNat (hcs ▸ List.mem_cons_self ..)⟩

/-- The text of a value begins with neither a blank nor a closing bracket. -/
theorem Whole.exists_head {j : Json} (h : j.Whole) (w : Layout) (level : Nat) :
    ∃ c cs, w.write level j = c :: cs ∧ isSpace c = false ∧ c ≠ ']' := by
  cases h with
  | null => exact ⟨_, _, rfl, rfl, by decide⟩
  | bool b => cases b <;> exact ⟨_, _, rfl, rfl, by decide⟩
  | integer negative n =>
    rw [Layout.write, renderNumber]
    cases negative with
    | true => exact ⟨_, _, rfl, rfl, by decide⟩
    | false =>
      obtain ⟨c, cs, hcs, hc⟩ := exists_digit n
      refine ⟨c, cs, hcs, isSpace_of_isDigit hc, ?_⟩
      rintro rfl
      exact absurd hc (by decide)
  | str s => cases s <;> exact ⟨_, _, rfl, rfl, by decide⟩
  | @arr items _ => cases items <;> exact ⟨_, _, rfl, rfl, by decide⟩
  | @obj members _ => cases members <;> exact ⟨_, _, rfl, rfl, by decide⟩

/-- **A written value is read back.** -/
theorem Whole.reads {j : Json} (h : j.Whole) (w : Layout) : Reads w j := by
  -- no text is empty, so there is fuel for the value itself
  have hfuel {j : Json} (h : j.Whole) {level fuel : Nat}
      (hfuel : 2 * (w.write level j).length ≤ fuel) : ∃ n, fuel = n + 1 := by
    obtain ⟨c, cs, hcs, -⟩ := h.exists_head w level
    rw [hcs, List.length_cons] at hfuel
    exact ⟨fuel - 1, by omega⟩
  induction h with
  | null =>
    intro level fuel rest _ hlen
    obtain ⟨fuel, rfl⟩ := hfuel .null hlen
    rw [parseValue, Layout.write]
    rfl
  | bool b =>
    intro level fuel rest _ hlen
    obtain ⟨fuel, rfl⟩ := hfuel (.bool b) hlen
    rw [parseValue, Layout.write]
    cases b <;> rfl
  | integer negative n =>
    intro level fuel rest hends hlen
    obtain ⟨fuel, rfl⟩ := hfuel (.integer negative n) hlen
    have hnumber := parseNumber_renderNat negative n hends
    rw [Layout.write, renderNumber]
    cases negative with
    | true =>
      rw [parseValue]
      exact hnumber
    | false =>
      obtain ⟨c, cs, hcs, hc⟩ := exists_digit n
      rw [hcs] at hnumber ⊢
      exact (parseValue_digit hc _).trans hnumber
  | str s =>
    intro level fuel rest _ hlen
    obtain ⟨fuel, rfl⟩ := hfuel (.str s) hlen
    obtain ⟨body, hbody, hparse⟩ := parseString_renderString s rest
    rw [parseValue, Layout.write, hbody, skipSpace_cons rfl]
    simp only [hparse, Option.map_some]
  | @arr items h ih =>
    intro level fuel rest _ hlen
    obtain ⟨fuel, rfl⟩ := hfuel (.arr h) hlen
    cases items with
    | nil =>
      rw [parseValue, Layout.write]
      rfl
    | cons item items =>
      simp only [Layout.write, List.length_append, List.length_cons] at hlen
      have hitems : parseItems fuel (_ ++ (w.writeItems level items ++ rest)) = _ :=
        parseItems_write ih (by omega)
      obtain ⟨c, cs, hcs, hspace, hclose⟩ :=
        (h item (List.mem_cons_self ..)).exists_head w (level + 1)
      rw [parseValue, Layout.write]
      simp only [List.cons_append, List.append_assoc, skipSpace_cons (c := '[') rfl,
        skipSpace_blanks (w.line_blank (level + 1))]
      rw [hcs] at hitems ⊢
      rw [List.cons_append, skipSpace_cons hspace]
      split
      · rename_i heq
        cases heq
        exact absurd rfl hclose
      · rw [← List.cons_append, hitems]
        rfl
  | @obj members h ih =>
    intro level fuel rest _ hlen
    obtain ⟨fuel, rfl⟩ := hfuel (.obj h) hlen
    cases members with
    | nil =>
      rw [parseValue, Layout.write]
      rfl
    | cons member members =>
      obtain ⟨name, value⟩ := member
      simp only [Layout.write, List.length_append, List.length_cons] at hlen
      have hmembers : parseMembers fuel (_ ++ ':' :: (w.gap ++
          (_ ++ (w.writeMembers level members ++ rest)))) = _ :=
        parseMembers_write ih (by omega)
      obtain ⟨body, hbody, -⟩ := parseString_renderString name (':' :: (w.gap ++
        (w.write (level + 1) value ++ (w.writeMembers level members ++ rest))))
      rw [parseValue, Layout.write]
      simp only [List.cons_append, List.append_assoc, skipSpace_cons (c := '\x7b') rfl,
        skipSpace_blanks (w.line_blank (level + 1))]
      rw [hbody] at hmembers ⊢
      rw [skipSpace_cons rfl]
      split
      · rename_i heq
        cases heq
      · rw [hmembers]
        rfl

/-- **The text of a value holds the value.** -/
theorem parse?_text {j : Json} (h : j.Whole) (w : Layout) : parse? (w.text j) = some j := by
  have hends : Ends [] := by
    intro c hc
    cases hc
  have hread := h.reads w 0 (2 * (w.write 0 j).length + 2) hends (by omega)
  rw [List.append_nil] at hread
  simp only [parse?, Layout.text, String.toList_ofList, hread]
  rfl

end Json
end ClusterTransition
