import ClusterTransition.Number.Shortest
import ClusterTransition.Text.Numeral

/-! # Scalars

How scalars are written, and what they stand for.  A plain scalar, one without quotes, may stand for
null, a truth value or a number; the text alone decides which.  Whole numbers may have a sign and
may be written to the bases of sixteen, eight and two.  Digits after a leading zero are no number.
-/

namespace ClusterTransition
namespace Yaml

/-- How a scalar is written. -/
inductive ScalarStyle where
  | plain
  | singleQuoted
  | doubleQuoted
  | literal
  | folded
  deriving DecidableEq, Repr

/-- Whether a text is a name of null. -/
def isNullName (text : String) : Bool :=
  text = "null" || text = "Null" || text = "NULL" || text = "~"

/-- The truth value with a name. -/
def boolOfName? (text : String) : Option Bool :=
  if text = "true" ∨ text = "True" ∨ text = "TRUE" then some true
  else if text = "false" ∨ text = "False" ∨ text = "FALSE" then some false
  else none

/-! ## Whole numbers -/

/-- Whether there are only digits, with a zero in front. -/
def hasLeadingZero : List Char → Bool
  | '0' :: c :: cs => (c :: cs).all Char.isDigit
  | _ => false

/-- Whether a text looks like a number but for zeros in front. -/
def isZeroPadded : List Char → Bool
  | '+' :: cs => hasLeadingZero cs
  | '-' :: cs => hasLeadingZero cs
  | cs => hasLeadingZero cs

/-- A whole number without a sign. -/
def magnitude? : List Char → Option Nat
  | '0' :: 'x' :: digits => Numeral.parseBase? 16 digits
  | '0' :: 'o' :: digits => Numeral.parseBase? 8 digits
  | '0' :: 'b' :: digits => Numeral.parseBase? 2 digits
  | digits => if hasLeadingZero digits then none else Numeral.parseNat? digits

/-- A whole number with an optional sign. -/
def whole? : List Char → Option Int
  | '+' :: cs => (magnitude? cs).map Int.ofNat
  | '-' :: cs => (magnitude? cs).map fun n => -(n : Int)
  | cs => (magnitude? cs).map Int.ofNat

/-- A whole number that may not have a minus sign. -/
def wholeNat? (cs : List Char) : Option Nat :=
  if cs.head? = some '-' then none else (whole? cs).bind Int.toNat?

/-- Whether a number fits into 64 bits, with or without a sign. -/
def isWord (n : Int) : Bool := -9223372036854775808 ≤ n && n ≤ 18446744073709551615

/-- Whether a number fits into 128 bits, with or without a sign. -/
def isDoubleWord (n : Int) : Bool := -(Nat.pow 2 127 : Int) ≤ n && n < (Nat.pow 2 128 : Int)

/-! ## Other numbers -/

/-- A number that is not written as a whole one. -/
inductive Real where
  | finite (negative : Bool) (x : Binary64)
  /-- An infinity, or no number at all. -/
  | special
  deriving DecidableEq, Repr

/-- The exponent of a decimal number, which is zero if there is none. -/
def exponent? : List Char → Option Int
  | [] => some 0
  | e :: cs =>
    if e = 'e' ∨ e = 'E' then
      match cs with
      | '-' :: digits => (Numeral.parseNat? digits).map fun n => -(n : Int)
      | '+' :: digits => (Numeral.parseNat? digits).map Int.ofNat
      | digits => (Numeral.parseNat? digits).map Int.ofNat
    else none

/-- The digits of a decimal number without a sign, and the power of ten that they are taken times.
There is a digit before or after the point. -/
def decimal? (cs : List Char) : Option (Nat × Int) :=
  let whole := cs.takeWhile Char.isDigit
  let rest := cs.dropWhile Char.isDigit
  let afterPoint := if rest.head? = some '.' then rest.drop 1 else []
  let fraction := afterPoint.takeWhile Char.isDigit
  let tail := if rest.head? = some '.' then afterPoint.dropWhile Char.isDigit else rest
  if whole ++ fraction = [] then none
  else (exponent? tail).map fun e =>
    (Nat.ofDigitChars 10 (whole ++ fraction) 0, e - fraction.length)

/-- A finite decimal number with a sign. -/
def finite? (negative : Bool) (cs : List Char) : Option Real :=
  (decimal? cs).bind fun d => (Binary64.ofDecimal d.1 d.2).map (.finite negative)

/-- Whether a text is a name of infinity. -/
def isInfinityName (text : String) : Bool := text = ".inf" || text = ".Inf" || text = ".INF"

/-- Whether a text is the name of what is no number. -/
def isNanName (text : String) : Bool := text = ".nan" || text = ".NaN" || text = ".NAN"

/-- A number of any kind with an optional sign. -/
def real? (cs : List Char) : Option Real :=
  if isNanName (String.ofList cs) then some .special
  else
    let unsigned := match cs with
      | '+' :: rest => rest
      | '-' :: rest => rest
      | _ => cs
    if isInfinityName (String.ofList unsigned) then some .special
    else finite? (cs.head? = some '-') unsigned

/-! ## Plain scalars -/

/-- What a plain scalar stands for. -/
inductive Plain where
  | null
  | bool (value : Bool)
  /-- A whole number of at most 128 bits. -/
  | whole (n : Int)
  | real (x : Real)
  | text
  deriving DecidableEq, Repr

/-- What the text of a plain scalar stands for. -/
def Plain.ofText (text : String) : Plain :=
  if text = "" ∨ isNullName text then .null
  else
    match boolOfName? text with
    | some b => .bool b
    | none =>
      match (whole? text.toList).filter isDoubleWord with
      | some n => .whole n
      | none =>
        if isZeroPadded text.toList then .text else (real? text.toList).elim .text .real

end Yaml
end ClusterTransition
