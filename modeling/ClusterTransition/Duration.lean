/-! # Durations

Spans of time in whole nanoseconds.  They go up to just below two to the power of 64 seconds; sums
beyond that stop there.
-/

namespace ClusterTransition

/-- A span of time in nanoseconds, also used for points of time since a clock was started. -/
abbrev Duration := Nat

namespace Duration

/-- The longest span. -/
def longest : Duration := 18446744073709551615 * 1000000000 + 999999999

/-- A number of milliseconds. -/
def ofMillis (ms : Nat) : Duration := ms * 1000000

/-- The whole milliseconds of a span. -/
def millis (d : Duration) : Nat := d / 1000000

/-- The sum, or the longest span if the sum is longer. -/
def saturatingAdd (a b : Duration) : Duration := min (a + b) longest

/-! ## Text -/

/-- The digits after the point of a fraction of `unit`, whose size is a power of ten, without zeros
at the end. -/
def fractionDigits (rest unit : Nat) : List Char :=
  let digits := (Nat.toDigits 10 (unit + rest)).drop 1
  (digits.reverse.dropWhile (· = '0')).reverse

/-- A span in a unit that is at most the span, with as many digits as needed. -/
def textIn (d unit : Nat) (symbol : String) : String :=
  let digits := fractionDigits (d % unit) unit
  let fraction := if digits.isEmpty then [] else '.' :: digits
  String.ofList (Nat.toDigits 10 (d / unit) ++ fraction) ++ symbol

/-- The text of a span, in the largest unit that is not above it: seconds, or a thousandth, a
millionth or a thousand-millionth of one. -/
def text (d : Duration) : String :=
  if 1000000000 ≤ d then textIn d 1000000000 "s"
  else if 1000000 ≤ d then textIn d 1000000 "ms"
  else if 1000 ≤ d then textIn d 1000 "µs"
  else textIn d 1 "ns"

end Duration
end ClusterTransition
