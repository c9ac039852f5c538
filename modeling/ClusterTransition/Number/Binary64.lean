/-! # Binary floating point numbers of 64 bits

A finite number that is not negative is a mantissa below two to the power of 53 times a power of two
that is at least the power of -1074.  All arithmetic here rounds the exact result to the nearest
such number, and halfway cases to the even mantissa; there is no result where that would be
infinite.
-/

namespace ClusterTransition

/-- The number `mantissa * 2 ^ exponent`. -/
structure Binary64 where
  mantissa : Nat
  exponent : Int
  deriving DecidableEq, Repr, Inhabited

namespace Binary64

/-- Zero. -/
def zero : Binary64 := ⟨0, -1074⟩

/-- The smallest exponent. -/
def minExponent : Int := -1074

/-- The largest exponent. -/
def maxExponent : Int := 971

/-- The whole number nearest to a quotient; of two equally near ones the even one. -/
def roundQuotient (num den : Nat) : Nat :=
  let q := num / den
  let r := num % den
  if den < 2 * r ∨ (2 * r = den ∧ q % 2 = 1) then q + 1 else q

/-- A fraction times a power of two, as a numerator and a denominator. -/
def scale (num den : Nat) (power : Int) : Nat × Nat :=
  match power with
  | .ofNat n => (num * Nat.pow 2 n, den)
  | .negSucc n => (num, den * Nat.pow 2 (n + 1))

/-- The largest power of two that is not above a positive fraction. -/
def binaryOrder (num den : Nat) : Int :=
  let k : Int := (Nat.log2 num : Int) - Nat.log2 den
  let (n, d) := scale num den (-k)
  if d ≤ n then k else k - 1

/-- The number nearest to a fraction, whose denominator is not zero. -/
def ofFraction (num den : Nat) : Option Binary64 :=
  if num = 0 then some zero
  else
    let exponent := max (binaryOrder num den - 52) minExponent
    let (n, d) := scale num den (-exponent)
    let m := roundQuotient n d
    let result : Binary64 :=
      if m = Nat.pow 2 53 then ⟨Nat.pow 2 52, exponent + 1⟩ else ⟨m, exponent⟩
    if result.exponent ≤ maxExponent then some result else none

/-- The number as a fraction. -/
def toFraction (x : Binary64) : Nat × Nat := scale x.mantissa 1 x.exponent

/-- The number nearest to a whole number. -/
def ofNat (n : Nat) : Option Binary64 := ofFraction n 1

/-- The rounded product. -/
def mul (x y : Binary64) : Option Binary64 :=
  let (a, b) := x.toFraction
  let (c, d) := y.toFraction
  ofFraction (a * c) (b * d)

/-- The rounded quotient; the divisor is not zero. -/
def div (x y : Binary64) : Option Binary64 :=
  let (a, b) := x.toFraction
  let (c, d) := y.toFraction
  ofFraction (a * d) (b * c)

/-- The number nearest to ten to a power. -/
def powerOfTen (n : Nat) : Option Binary64 := ofNat (Nat.pow 10 n)

/-! ## Decimal numbers -/

/-- The number nearest to a decimal with the digits of `digits` and a power of ten. -/
def ofDecimal (digits : Nat) (power : Int) : Option Binary64 :=
  if digits = 0 then some zero
  else
    let size : Int := (Nat.toDigits 10 digits).length
    if 400 < size + power then none
    else if size + power < -400 then some zero
    else
      match power with
      | .ofNat n => ofFraction (digits * Nat.pow 10 n) 1
      | .negSucc n => ofFraction digits (Nat.pow 10 (n + 1))

/-- Divides by ten to the power of `n`, in steps of at most 308 places that each round. -/
def shiftDown : Nat → Binary64 → Nat → Option Binary64
  | 0, _, _ => some zero
  | steps + 1, x, n =>
    if n ≤ 308 then (powerOfTen n).bind x.div
    else if x.mantissa = 0 then some x
    else ((powerOfTen 308).bind x.div).bind fun x => shiftDown steps x (n - 308)

/-- A decimal number as a product of two rounded numbers: its digits, which fit into 64 bits, and a
power of ten.  This is within a few units of the last place, and not always nearest. -/
def ofDecimalQuick (digits : Nat) (power : Int) : Option Binary64 :=
  (ofNat digits).bind fun x =>
    match power with
    | .ofNat n =>
      if n ≤ 308 then (powerOfTen n).bind x.mul
      else if x.mantissa = 0 then some x
      else none
    | .negSucc n => shiftDown 8 x (n + 1)

end Binary64
end ClusterTransition
