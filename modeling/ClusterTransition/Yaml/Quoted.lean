import ClusterTransition.Text.Numeral
import ClusterTransition.Yaml.Cursor

/-! # Quoted scalars

Between single quotes a quote is written twice, and nothing else is special.  Between double quotes
a backslash introduces an escape.  What stands between two words is folded in both, but an escaped
line break joins the words around it.
-/

namespace ClusterTransition
namespace Yaml

/-- One unit between quotes. -/
inductive QuotedUnit where
  | char (c : Char)
  /-- A character that is never folded. -/
  | escaped (c : Char)
  /-- An escaped line break. -/
  | joined
  deriving DecidableEq, Repr

/-- Whether a document mark starts a line, which no quoted scalar may have. -/
def startsWithMark (lineStart : Bool) (cs : List Char) : Bool :=
  Cursor.atDocumentMark ⟨cs, { column := if lineStart then 0 else 1 }⟩

/-- Puts a unit before others. -/
def QuotedUnit.before (u : QuotedUnit) (p : List QuotedUnit × List Char) :
    List QuotedUnit × List Char :=
  (u :: p.1, p.2)

/-- Reads up to the closing single quote. -/
def singleUnits? : Bool → List Char → Option (List QuotedUnit × List Char)
  | _, [] => none
  | _, '\'' :: '\'' :: cs => (singleUnits? false cs).map (QuotedUnit.escaped '\'').before
  | _, '\'' :: cs => some ([], cs)
  | lineStart, c :: cs =>
    if startsWithMark lineStart (c :: cs) then none
    else (singleUnits? (isBreak c) cs).map (QuotedUnit.char c).before

/-- The character that a backslash and a letter stand for. -/
def shortEscape? : Char → Option Char
  | '0' => some (Char.ofNat 0x00)
  | 'a' => some (Char.ofNat 0x07)
  | 'b' => some (Char.ofNat 0x08)
  | 't' => some '\t'
  | '\t' => some '\t'
  | 'n' => some '\n'
  | 'v' => some (Char.ofNat 0x0B)
  | 'f' => some (Char.ofNat 0x0C)
  | 'r' => some '\r'
  | 'e' => some (Char.ofNat 0x1B)
  | ' ' => some ' '
  | '"' => some '"'
  | '/' => some '/'
  | '\\' => some '\\'
  | 'N' => some '\u0085'
  | '_' => some '\u00a0'
  | 'L' => some '\u2028'
  | 'P' => some '\u2029'
  | _ => none

/-- The character with a number that is written to the base of sixteen. -/
def hexEscape? (digits : List Char) : Option Char :=
  (Numeral.parseBase? 16 digits).bind fun n =>
    if n.isValidChar then some (Char.ofNat n) else none

/-- Reads up to the closing double quote. -/
def doubleUnits? : Bool → List Char → Option (List QuotedUnit × List Char)
  | _, [] => none
  | _, '"' :: cs => some ([], cs)
  | _, '\\' :: '\r' :: '\n' :: cs => (doubleUnits? true cs).map QuotedUnit.joined.before
  | _, '\\' :: 'x' :: a :: b :: cs => do
    let c ← hexEscape? [a, b]
    (doubleUnits? false cs).map (QuotedUnit.escaped c).before
  | _, '\\' :: 'u' :: a :: b :: c :: d :: cs => do
    let c ← hexEscape? [a, b, c, d]
    (doubleUnits? false cs).map (QuotedUnit.escaped c).before
  | _, '\\' :: 'U' :: a :: b :: c :: d :: e :: f :: g :: h :: cs => do
    let c ← hexEscape? [a, b, c, d, e, f, g, h]
    (doubleUnits? false cs).map (QuotedUnit.escaped c).before
  | _, '\\' :: c :: cs =>
    if isBreak c then (doubleUnits? true cs).map QuotedUnit.joined.before
    else do
      let c ← shortEscape? c
      (doubleUnits? false cs).map (QuotedUnit.escaped c).before
  | lineStart, c :: cs =>
    if startsWithMark lineStart (c :: cs) then none
    else (doubleUnits? (isBreak c) cs).map (QuotedUnit.char c).before

/-- The text of a gap, which is given backwards.  After an escaped line break only further breaks
count. -/
def gapTextAfter (joined : Bool) (gap : List Char) : List Char :=
  if joined then lineBreaks gap.reverse else gapText gap.reverse

/-- The text of units.  The gap before them is given backwards, and `joined` says whether it follows
an escaped line break. -/
def unitsText (joined : Bool) (gap : List Char) : List QuotedUnit → List Char
  | [] => gapTextAfter joined gap
  | .char c :: units =>
    if isGap c then unitsText joined (c :: gap) units
    else gapTextAfter joined gap ++ c :: unitsText false [] units
  | .escaped c :: units => gapTextAfter joined gap ++ c :: unitsText false [] units
  | .joined :: units => gapTextAfter joined gap ++ unitsText true [] units

/-- Reads a quoted scalar, whose opening quote is at the front. -/
def quotedScalar? (double : Bool) (c : Cursor) : Option (List Char × Cursor) :=
  let inside := c.rest.drop 1
  (if double then doubleUnits? false inside else singleUnits? false inside).map fun p =>
    (unitsText false [] p.1, c.advanceTo p.2)

end Yaml
end ClusterTransition
