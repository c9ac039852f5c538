import ClusterTransition.Json.Decode
import ClusterTransition.Number.Shortest

/-! # JSON values as plain text

The text of a value that is used for an attribute: a string as it is, a truth value by its name, a
whole number of 64 bits by its digits, and null as nothing.  All other numbers are taken as binary
floating point numbers and written with the fewest digits.

The floating point number is found quickly rather than exactly: the digits that fit into 64 bits
are taken as a whole number, and a power of ten is applied to it.
-/

namespace ClusterTransition
namespace JsonNumber

/-- Takes digits onto a number as long as it fits into 64 bits.  The answer is the number and how
many digits were taken. -/
def takeDigits (n : Nat) : List Char → Nat × Nat
  | [] => (n, 0)
  | c :: cs =>
    let next := n * 10 + (c.toNat - '0'.toNat)
    if Numeral.isNat64 next then
      let (n, taken) := takeDigits next cs
      (n, taken + 1)
    else (n, 0)

/-- The floating point number of digits before and after the point and an exponent. -/
def toBinary64 (whole : Nat) (fraction : List Char) (exponent : Int) : Option Binary64 :=
  let digits := Numeral.renderNat whole
  let (n, taken) := takeDigits 0 digits
  let (n, takenAfter) := takeDigits n fraction
  Binary64.ofDecimalQuick n ((digits.length - taken : Int) - takenAfter + exponent)

/-- The text of a number; none if it is beyond all floating point numbers. -/
def scalar? : JsonNumber → Option String
  | .integer false n =>
    if Numeral.isNat64 n then some (Numeral.natText n)
    else (toBinary64 n [] 0).map fun x => String.ofList (x.render false)
  | .integer true n =>
    if n ≠ 0 ∧ n ≤ 9223372036854775808 then some (Numeral.intText (-(n : Int)))
    else (toBinary64 n [] 0).map fun x => String.ofList (x.render true)
  | .decimal negative whole fraction exponent =>
    (toBinary64 whole fraction exponent).map fun x => String.ofList (x.render negative)

end JsonNumber

namespace Json

/-- The text of a value that is neither a list nor an object. -/
def scalar? : Json → Option String
  | .str s => s
  | .num n => n.scalar?
  | .bool b => some (if b then "true" else "false")
  | .null => some ""
  | .arr _ | .obj _ => none

/-- What JSON values are read as. -/
def reader : ValueReader Json where
  isNull? v := some v.isNull
  string? := string?
  bool? := bool?
  int? := int?
  nat? := nat?
  list? := list?
  entries? := entries?
  fields? := fields?
  case? := case?
  scalar? := scalar?
  maxDepth := 127

end Json
end ClusterTransition
