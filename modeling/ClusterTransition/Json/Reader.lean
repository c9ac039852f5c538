import ClusterTransition.Json.Basic

/-! # Reading JSON

The reader takes strict JSON: no comments, no trailing commas, no leading zeros, and nothing but
blanks after the value.  It reads a value from the front of the text and hands back the rest.

Each step of the reader spends one unit of fuel.  A value of `n` characters takes at most `2 * n`
steps, so `Json.parse?` starts with more than enough.
-/

namespace ClusterTransition
namespace Json

/-! ## Blanks -/

/-- The characters that may stand between the parts of a value. -/
def isSpace (c : Char) : Bool := c = ' ' || c = '\n' || c = '\t' || c = '\r'

/-- Skips blanks. -/
def skipSpace (cs : List Char) : List Char := cs.dropWhile isSpace

/-! ## Strings -/

/-- The character that a backslash and a letter stand for. -/
def shortEscape : Char → Option Char
  | '"' => some '"'
  | '\\' => some '\\'
  | '/' => some '/'
  | 'b' => some (Char.ofNat 8)
  | 'f' => some (Char.ofNat 12)
  | 'n' => some '\n'
  | 'r' => some '\r'
  | 't' => some '\t'
  | _ => none

/-- One unit of a string: a character, or a number of sixteen bits that was written as an escape. -/
inductive StringUnit where
  | char (c : Char)
  | code (n : Nat)
  deriving DecidableEq, Repr

/-- Reads the inside of a string up to its closing quote. -/
def parseUnits : List Char → Option (List StringUnit × List Char)
  | [] => none
  | '"' :: rest => some ([], rest)
  | '\\' :: 'u' :: a :: b :: c :: d :: rest => do
    let n ← Numeral.parseBase? 16 [a, b, c, d]
    let (units, rest) ← parseUnits rest
    return (.code n :: units, rest)
  | '\\' :: e :: rest => do
    let c ← shortEscape e
    let (units, rest) ← parseUnits rest
    return (.char c :: units, rest)
  | c :: rest =>
    if c.toNat < 32 then none
    else do
      let (units, rest) ← parseUnits rest
      return (.char c :: units, rest)

/-- Joins surrogate pairs; there is no text if one half stands alone. -/
def joinUnits : List StringUnit → Option (List Char)
  | [] => some []
  | .char c :: rest => (joinUnits rest).map (c :: ·)
  | .code n :: rest =>
    if 0xD800 ≤ n ∧ n < 0xDC00 then
      match rest with
      | .code m :: rest =>
        if 0xDC00 ≤ m ∧ m < 0xE000 then
          (joinUnits rest).map (Char.ofNat (0x10000 + (n - 0xD800) * 0x400 + (m - 0xDC00)) :: ·)
        else none
      | _ => none
    else if 0xDC00 ≤ n ∧ n < 0xE000 then none
    else (joinUnits rest).map (Char.ofNat n :: ·)

/-- Reads a string whose opening quote was read. -/
def parseString (cs : List Char) : Option (Option String × List Char) :=
  (parseUnits cs).map fun p => ((joinUnits p.1).map String.ofList, p.2)

/-! ## Numbers -/

/-- Splits off the digits at the front. -/
def spanDigits (cs : List Char) : List Char × List Char :=
  (cs.takeWhile Char.isDigit, cs.dropWhile Char.isDigit)

/-- Reads the digits before the point: a zero alone, or digits that do not start with one. -/
def parseWhole (cs : List Char) : Option (Nat × List Char) :=
  match spanDigits cs with
  | ([], _) => none
  | ('0' :: _ :: _, _) => none
  | (digits, rest) => some (Nat.ofDigitChars 10 digits 0, rest)

/-- Reads a point and the digits after it, if there is a point. -/
def parseFraction : List Char → Option (List Char × List Char)
  | '.' :: rest =>
    match spanDigits rest with
    | ([], _) => none
    | p => some p
  | cs => some ([], cs)

/-- Reads the digits of an exponent, whose sign was read. -/
def parseExponentDigits (negative : Bool) (cs : List Char) : Option (Int × List Char) :=
  match spanDigits cs with
  | ([], _) => none
  | (digits, rest) =>
    let n : Int := Nat.ofDigitChars 10 digits 0
    some (if negative then -n else n, rest)

/-- Reads an exponent, if there is one. -/
def parseExponent : List Char → Option (Option Int × List Char)
  | c :: rest =>
    if c = 'e' ∨ c = 'E' then
      match rest with
      | '-' :: rest => (parseExponentDigits true rest).map fun p => (some p.1, p.2)
      | '+' :: rest => (parseExponentDigits false rest).map fun p => (some p.1, p.2)
      | rest => (parseExponentDigits false rest).map fun p => (some p.1, p.2)
    else some (none, c :: rest)
  | [] => some (none, [])

/-- Reads a number whose sign was read. -/
def parseNumber (negative : Bool) (cs : List Char) : Option (Json × List Char) := do
  let (whole, cs) ← parseWhole cs
  let (fraction, cs) ← parseFraction cs
  let (exponent, cs) ← parseExponent cs
  if fraction.isEmpty && exponent.isNone then
    return (.num (.integer negative whole), cs)
  else
    return (.num (.decimal negative whole fraction (exponent.getD 0)), cs)

/-! ## Values -/

mutual

/-- Reads a value. -/
def parseValue : Nat → List Char → Option (Json × List Char)
  | 0, _ => none
  | fuel + 1, cs =>
    match skipSpace cs with
    | 'n' :: 'u' :: 'l' :: 'l' :: rest => some (.null, rest)
    | 't' :: 'r' :: 'u' :: 'e' :: rest => some (.bool true, rest)
    | 'f' :: 'a' :: 'l' :: 's' :: 'e' :: rest => some (.bool false, rest)
    | '"' :: rest => (parseString rest).map fun p => (.str p.1, p.2)
    | '[' :: rest =>
      match skipSpace rest with
      | ']' :: rest => some (.arr [], rest)
      | rest => (parseItems fuel rest).map fun p => (.arr p.1, p.2)
    | '\x7b' :: rest =>
      match skipSpace rest with
      | '\x7d' :: rest => some (.obj [], rest)
      | rest => (parseMembers fuel rest).map fun p => (.obj p.1, p.2)
    | '-' :: rest => parseNumber true rest
    | rest => parseNumber false rest

/-- Reads the items of a list up to its end; there is at least one. -/
def parseItems : Nat → List Char → Option (List Json × List Char)
  | 0, _ => none
  | fuel + 1, cs =>
    match parseValue fuel cs with
    | none => none
    | some (item, rest) =>
      match skipSpace rest with
      | ',' :: rest => (parseItems fuel rest).map fun p => (item :: p.1, p.2)
      | ']' :: rest => some ([item], rest)
      | _ => none

/-- Reads the members of an object up to its end; there is at least one. -/
def parseMembers : Nat → List Char → Option (List (Option String × Json) × List Char)
  | 0, _ => none
  | fuel + 1, cs =>
    match skipSpace cs with
    | '"' :: rest =>
      match parseString rest with
      | none => none
      | some (name, rest) =>
        match skipSpace rest with
        | ':' :: rest =>
          match parseValue fuel rest with
          | none => none
          | some (value, rest) =>
            match skipSpace rest with
            | ',' :: rest => (parseMembers fuel rest).map fun p => ((name, value) :: p.1, p.2)
            | '\x7d' :: rest => some ([(name, value)], rest)
            | _ => none
        | _ => none
    | _ => none

end

/-- The value that a text holds. -/
def parse? (text : String) : Option Json :=
  let cs := text.toList
  match parseValue (2 * cs.length + 2) cs with
  | none => none
  | some (value, rest) => if skipSpace rest = [] then some value else none

end Json
end ClusterTransition
