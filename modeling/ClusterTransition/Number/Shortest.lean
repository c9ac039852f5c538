import ClusterTransition.Number.Binary64
import ClusterTransition.Text.Numeral

/-! # The shortest decimal that reads back

Every decimal number close enough to a binary one is read as that binary number.  Of all these the
text of a binary number uses one with the fewest digits, and of those the nearest.

The text is positional from 0.00001 up to below 10 to the power of 16, with at least one digit after
the point.  Beyond that it has one digit before the point, no point if there is no further digit,
and an exponent with its sign if it is negative and `+` if it is not.
-/

namespace ClusterTransition
namespace Binary64

/-! ## Digits -/

/-- The ends of the interval of numbers that are read as `x`, and `x` itself, as numerators over one
denominator. -/
structure Neighbourhood where
  low : Nat
  value : Nat
  high : Nat
  den : Nat

/-- The interval of numbers that are read as a positive number: halfway to its neighbours. -/
def neighbourhood (x : Binary64) : Neighbourhood :=
  let (value, den) := scale (4 * x.mantissa) 4 x.exponent
  let (unit, _) := scale 4 4 x.exponent
  let below :=
    if x.mantissa = Nat.pow 2 52 ∧ minExponent < x.exponent then unit / 4 else unit / 2
  ⟨value - below, value, value + unit / 2, den⟩

/-- The number of digits before the point of a positive fraction; less than one if the fraction is
below a tenth. -/
def decimalOrder (num den : Nat) : Int :=
  if den ≤ num then (Nat.toDigits 10 (num / den)).length
  else
    let k := (Nat.toDigits 10 (den / num)).length
    if den ≤ num * Nat.pow 10 (k - 1) then 2 - k else 1 - k

/-- Tests whether a multiple of a power of ten is read as the number.  The ends of the interval
count if the mantissa is even. -/
def readsBack (i : Neighbourhood) (even : Bool) (digits : Nat) (num den : Nat) : Bool :=
  let n := digits * num * i.den
  if even then i.low * den ≤ n && n ≤ i.high * den else i.low * den < n && n < i.high * den

/-- The best multiple of a power of ten, given as a fraction, that is read as the number. -/
def bestMultiple (i : Neighbourhood) (even : Bool) (num den : Nat) : Option Nat :=
  let below := i.value * den / (i.den * num)
  let downOk := below ≠ 0 && readsBack i even below num den
  let upOk := readsBack i even (below + 1) num den
  if downOk && upOk then
    let rest := i.value * den - below * (i.den * num)
    some (if 2 * rest ≤ i.den * num then below else below + 1)
  else if downOk then some below
  else if upOk then some (below + 1)
  else none

/-- Looks for a decimal with `count`, then with one more, and so on up to `count + tries - 1`
digits.  The answer is the digits and a power of ten. -/
def searchDigits (i : Neighbourhood) (even : Bool) (order : Int) :
    Nat → Nat → Option (Nat × Int)
  | 0, _ => none
  | tries + 1, count =>
    let power := order - count
    let (num, den) := match power with
      | .ofNat n => (Nat.pow 10 n, 1)
      | .negSucc n => (1, Nat.pow 10 (n + 1))
    match bestMultiple i even num den with
    | some digits => some (digits, power)
    | none => searchDigits i even order tries (count + 1)

/-- The digits and the power of ten of the shortest decimal that is read as a positive number. -/
def shortest (x : Binary64) : Nat × Int :=
  let i := x.neighbourhood
  (searchDigits i (x.mantissa % 2 = 0) (decimalOrder i.value i.den) 18 1).getD (0, 0)

/-! ## Text -/

/-- Removes the zeros at the end of a list of digits. -/
def dropZeros (digits : List Char) : List Char :=
  (digits.reverse.dropWhile (· = '0')).reverse

/-- The digits with a point behind the first `order`, and zeros where there are no digits. -/
def positional (digits : List Char) (order : Int) : List Char :=
  match order with
  | .ofNat n =>
    if digits.length ≤ n then
      digits ++ List.replicate (n - digits.length) '0' ++ ['.', '0']
    else if n = 0 then '0' :: '.' :: digits
    else digits.take n ++ '.' :: digits.drop n
  | .negSucc n => '0' :: '.' :: List.replicate (n + 1) '0' ++ digits

/-- The digits with a point behind the first and an exponent. -/
def exponential (digits : List Char) (exponent : Int) : List Char :=
  let mantissa := match digits with
    | [d] => [d]
    | d :: ds => d :: '.' :: ds
    | [] => ['0']
  mantissa ++ 'e' :: (if exponent < 0 then [] else ['+']) ++ Numeral.renderInt exponent

/-- The text of a number with a sign. -/
def render (negative : Bool) (x : Binary64) : List Char :=
  let sign := if negative then ['-'] else []
  if x.mantissa = 0 then sign ++ ['0', '.', '0']
  else
    let (number, power) := x.shortest
    let all := Numeral.renderNat number
    let order := all.length + power
    let digits := dropZeros all
    if -5 < order ∧ order ≤ 16 then sign ++ positional digits order
    else sign ++ exponential digits (order - 1)

end Binary64
end ClusterTransition
