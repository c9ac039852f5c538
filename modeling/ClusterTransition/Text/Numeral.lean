import ClusterTransition.Text.Blank

/-! # Decimal numerals

Whole numbers as texts.  A numeral is a nonempty run of decimal digits, for a signed number with an
optional sign in front; a reader also states the range that the number must lie in.  A written
number is read back as the same number (`parseInt?_renderInt`).
-/

namespace ClusterTransition
namespace Numeral

/-! ## Ranges -/

/-- Whether a number fits into 32 bits with a sign. -/
def isInt32 (n : Int) : Bool := -2147483648 ≤ n && n ≤ 2147483647

/-- Whether a number fits into 64 bits with a sign. -/
def isInt64 (n : Int) : Bool := -9223372036854775808 ≤ n && n ≤ 9223372036854775807

/-- Whether a number fits into 32 bits without a sign. -/
def isNat32 (n : Nat) : Bool := n ≤ 4294967295

/-- Whether a number fits into 64 bits without a sign. -/
def isNat64 (n : Nat) : Bool := n ≤ 18446744073709551615

/-- The number of the signed 64-bit range nearest to `n`. -/
def clampInt64 (n : Int) : Int := max (-9223372036854775808) (min n 9223372036854775807)

/-! ## Reading -/

/-- The number written by a nonempty list of digits. -/
def parseNat? (cs : List Char) : Option Nat :=
  if cs ≠ [] ∧ cs.all Char.isDigit then some (Nat.ofDigitChars 10 cs 0) else none

/-- The number written by a list of digits with an optional sign. -/
def parseInt? : List Char → Option Int
  | '-' :: cs => (parseNat? cs).map fun n => -(n : Int)
  | '+' :: cs => (parseNat? cs).map Int.ofNat
  | cs => (parseNat? cs).map Int.ofNat

/-- A signed 32-bit number. -/
def parseInt32? (cs : List Char) : Option Int := (parseInt? cs).filter isInt32

/-- A signed 64-bit number. -/
def parseInt64? (cs : List Char) : Option Int := (parseInt? cs).filter isInt64

/-- An unsigned 64-bit number, which a plus sign may precede. -/
def parseNat64? : List Char → Option Nat
  | '+' :: cs => (parseNat? cs).filter isNat64
  | cs => (parseNat? cs).filter isNat64

/-- The value of a digit to a base of at most sixteen. -/
def digitValue? (base : Nat) (c : Char) : Option Nat :=
  let value? : Option Nat :=
    if '0' ≤ c && c ≤ '9' then some (c.toNat - '0'.toNat)
    else if 'a' ≤ c && c ≤ 'f' then some (c.toNat - 'a'.toNat + 10)
    else if 'A' ≤ c && c ≤ 'F' then some (c.toNat - 'A'.toNat + 10)
    else none
  value?.filter (· < base)

/-- The number written by a nonempty list of digits to a base. -/
def parseBase? (base : Nat) (cs : List Char) : Option Nat :=
  if cs = [] then none
  else cs.foldlM (fun n c => (digitValue? base c).map (n * base + ·)) 0

/-! ## Writing -/

/-- The digits of a number, without leading zeros. -/
def renderNat (n : Nat) : List Char := Nat.toDigits 10 n

/-- The digits of a number after its sign, if it is negative. -/
def renderInt : Int → List Char
  | .ofNat n => renderNat n
  | .negSucc n => '-' :: renderNat (n + 1)

/-- `renderNat` as a string. -/
def natText (n : Nat) : String := String.ofList (renderNat n)

/-- `renderInt` as a string. -/
def intText (n : Int) : String := String.ofList (renderInt n)

/-! ## Reading what was written -/

theorem isDigit_of_mem_renderNat {n : Nat} {c : Char} (h : c ∈ renderNat n) : c.isDigit = true :=
  Nat.isDigit_of_mem_toDigits (by decide) (by decide) h

theorem renderNat_ne_nil (n : Nat) : renderNat n ≠ [] := Nat.toDigits_ne_nil

@[simp] theorem parseNat?_renderNat (n : Nat) : parseNat? (renderNat n) = some n := by
  have hall : (renderNat n).all Char.isDigit = true :=
    List.all_eq_true.mpr fun _ h => isDigit_of_mem_renderNat h
  rw [parseNat?, if_pos ⟨renderNat_ne_nil n, hall⟩]
  exact congrArg some (Nat.ofDigitChars_toDigits (by decide) (by decide))

theorem parseInt?_of_isDigit {c : Char} {cs : List Char} (h : c.isDigit = true) :
    parseInt? (c :: cs) = (parseNat? (c :: cs)).map Int.ofNat := by
  unfold parseInt?
  split
  · rename_i heq
    cases heq
    exact absurd h (by decide)
  · rename_i heq
    cases heq
    exact absurd h (by decide)
  · rfl

/-- A written number is read back as itself. -/
@[simp] theorem parseInt?_renderInt (n : Int) : parseInt? (renderInt n) = some n := by
  cases n with
  | ofNat n =>
    show parseInt? (renderNat n) = _
    cases hd : renderNat n with
    | nil => exact absurd hd (renderNat_ne_nil n)
    | cons c cs =>
      rw [parseInt?_of_isDigit (isDigit_of_mem_renderNat (hd ▸ List.mem_cons_self ..)), ← hd,
        parseNat?_renderNat]
      rfl
  | negSucc n =>
    rw [renderInt, parseInt?, parseNat?_renderNat]
    rfl

end Numeral
end ClusterTransition
