import ClusterTransition.Text.Numeral
import ClusterTransition.Yaml.Cursor

/-! # Node properties and directives

A node may have an anchor, by which an alias refers to it, and a tag, which states its type.  A tag
is written in full between angle brackets, or as a suffix to a handle; directives in front of a
document say what the handles stand for, and which version of the format the document has.
-/

namespace ClusterTransition
namespace Yaml

/-! ## Anchors -/

/-- Whether the name of an anchor may end in front of these characters. -/
def endsName : List Char → Bool
  | [] => true
  | c :: _ => isGap c || "?:,]\x7d%@\x60".toList.contains c

/-- Reads the name of an anchor or an alias, whose mark is at the front. -/
def anchorName? (c : Cursor) : Option (String × Cursor) :=
  let (name, next) := (c.advance 1).span isNameChar
  if name ≠ [] ∧ endsName next.rest then some (String.ofList name, next) else none

/-! ## Tags -/

/-- One unit of a tag: a character, or an octet that was written as an escape. -/
inductive TagUnit where
  | char (c : Char)
  | octet (n : Nat)
  deriving DecidableEq, Repr

/-- A character that may stand in a tag.  Commas and square brackets may only stand in a tag that is
written in full. -/
def isTagChar (full : Bool) (c : Char) : Bool :=
  isNameChar c || ";/?:@&=+$.!~*'()".toList.contains c || (full && ",[]".toList.contains c)

/-- Reads the units at the front. -/
def tagUnits? (full : Bool) : List Char → Option (List TagUnit × List Char)
  | [] => some ([], [])
  | '%' :: a :: b :: cs => do
    let n ← Numeral.parseBase? 16 [a, b]
    let (units, rest) ← tagUnits? full cs
    return (.octet n :: units, rest)
  | c :: cs =>
    if isTagChar full c then (tagUnits? full cs).map fun p => (.char c :: p.1, p.2)
    else if c = '%' then none
    else some ([], c :: cs)

/-- The length of the sequence of octets that an octet starts, and the bits that the octet holds. -/
def octetLead? (n : Nat) : Option (Nat × Nat) :=
  if n < 0x80 then some (1, n)
  else if n < 0xC0 then none
  else if n < 0xE0 then some (2, n - 0xC0)
  else if n < 0xF0 then some (3, n - 0xE0)
  else if n < 0xF8 then some (4, n - 0xF0)
  else none

/-- The characters of units.  `pending` octets are still missing of a character, whose bits so far
are `bits`. -/
def tagChars? : (pending bits : Nat) → List TagUnit → Option (List Char)
  | 0, _, [] => some []
  | 0, _, .char c :: units => (tagChars? 0 0 units).map (c :: ·)
  | 0, _, .octet n :: units =>
    (octetLead? n).bind fun lead =>
      if lead.1 = 1 then (tagChars? 0 0 units).map (Char.ofNat lead.2 :: ·)
      else tagChars? (lead.1 - 1) lead.2 units
  | pending + 1, bits, .octet n :: units =>
    if n < 0x80 ∨ 0xC0 ≤ n then none
    else
      let bits := bits * 0x40 + (n - 0x80)
      if pending = 0 then (tagChars? 0 0 units).map (Char.ofNat bits :: ·)
      else tagChars? pending bits units
  | _ + 1, _, _ => none

/-- Reads the characters of a tag at the front. -/
def tagText? (full : Bool) (c : Cursor) : Option (List Char × Cursor) := do
  let (units, rest) ← tagUnits? full c.rest
  return (← tagChars? 0 0 units, c.advanceTo rest)

/-- A tag as it is written: a handle, which is empty for a tag in full, and what follows it. -/
structure WrittenTag where
  handle : String
  suffix : String
  deriving DecidableEq, Repr

/-- Reads a handle: an exclamation mark, or a name between two of them.  The answer is the name, and
whether the second mark is there. -/
def tagHandle? (c : Cursor) : Option (List Char × Bool × Cursor) :=
  match c.rest with
  | '!' :: _ =>
    let (name, next) := (c.advance 1).span isNameChar
    if next.rest.head? = some '!' then some (name, true, next.advance 1)
    else some (name, false, next)
  | _ => none

/-- The handle with a name between its marks. -/
def handleText (name : List Char) : String := String.ofList ('!' :: name ++ ['!'])

/-- Reads a tag, whose mark is at the front. -/
def tagParts? (c : Cursor) : Option (WrittenTag × Cursor) :=
  match c.rest with
  | '!' :: '<' :: _ => do
    let (text, next) ← tagText? true (c.advance 2)
    if text ≠ [] ∧ next.rest.head? = some '>' then
      return (⟨"", String.ofList text⟩, next.advance 1)
    else none
  | _ => do
    let (name, closed, next) ← tagHandle? c
    let (text, next) ← tagText? false next
    if closed then
      if text = [] then none else return (⟨handleText name, String.ofList text⟩, next)
    else if name ++ text = [] then return (⟨"", "!"⟩, next)
    else return (⟨"!", String.ofList (name ++ text)⟩, next)

/-- Reads a tag and sees that it ends there.  Inside brackets a comma may follow. -/
def tagProperty? (inFlow : Bool) (c : Cursor) : Option (WrittenTag × Cursor) :=
  (tagParts? c).filter fun p =>
    endsWord p.2.rest || (inFlow && p.2.rest.head? = some ',')

/-! ## Directives -/

/-- A directive in front of a document. -/
inductive Directive where
  | version (major minor : Nat)
  /-- What a handle stands for. -/
  | handle (name start : String)
  deriving DecidableEq, Repr

/-- Reads one of the two numbers of a version. -/
def versionPart? (c : Cursor) : Option (Nat × Cursor) :=
  let (digits, next) := c.span Char.isDigit
  if digits.length ≤ 9 then (Numeral.parseNat? digits).map (·, next) else none

/-- Reads a directive, whose mark is at the front, up to the end of its line. -/
def directive? (c : Cursor) : Option (Directive × Cursor) := do
  let (name, c) := (c.advance 1).span isNameChar
  if !endsWord c.rest then none
  let c := c.skip isSpace
  match String.ofList name with
  | "YAML" =>
    let (major, c) ← versionPart? c
    if c.rest.head? ≠ some '.' then none
    let (minor, c) ← versionPart? (c.advance 1)
    return (.version major minor, ← c.endLine?)
  | "TAG" =>
    let (name, closed, c) ← tagHandle? c
    if !closed && name ≠ [] then none
    if !c.rest.head?.any isSpace then none
    let (start, c) ← tagText? true (c.skip isSpace)
    if start = [] || !endsWord c.rest then none
    let handle := if closed then handleText name else "!"
    return (.handle handle (String.ofList start), ← c.endLine?)
  | _ => none

end Yaml
end ClusterTransition
