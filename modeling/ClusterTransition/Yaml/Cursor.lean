/-! # Places in a YAML text

A YAML text is read from a cursor: the characters that are left, and where the first of them stands.
A line ends with a line feed, a carriage return, the two together, or one of three rarer characters.

Runs of spaces and line breaks inside a scalar are folded: a single break stands for a space, and of
several breaks all but the first are kept.
-/

namespace ClusterTransition
namespace Yaml

/-! ## Characters -/

/-- A space or a tab. -/
def isSpace (c : Char) : Bool := c = ' ' || c = '\t'

/-- A character that ends a line. -/
def isBreak (c : Char) : Bool :=
  c = '\n' || c = '\r' || c = '\u0085' || c = '\u2028' || c = '\u2029'

/-- A character that stands between words. -/
def isGap (c : Char) : Bool := isSpace c || isBreak c

/-- Whether a word ends in front of these characters. -/
def endsWord : List Char → Bool
  | [] => true
  | c :: _ => isGap c

/-- A letter, a digit, an underscore or a hyphen. -/
def isNameChar (c : Char) : Bool := c.isAlphanum || c = '_' || c = '-'

/-- A character that has a meaning of its own between the brackets of a flow collection. -/
def isFlowMark (c : Char) : Bool :=
  c = ',' || c = '[' || c = ']' || c = '\x7b' || c = '\x7d'

/-- The characters that a YAML text may hold. -/
def isAllowed (c : Char) : Bool :=
  let n := c.toNat
  n = 0x9 || n = 0xA || n = 0xD || (0x20 ≤ n && n ≤ 0x7E) || n = 0x85 ||
    (0xA0 ≤ n && n ≤ 0xD7FF) || (0xE000 ≤ n && n ≤ 0xFFFD && n ≠ 0xFEFF) || 0x10000 ≤ n

/-! ## Line breaks -/

/-- The line breaks among some characters, as they count in a text. -/
def lineBreaks : List Char → List Char
  | [] => []
  | '\r' :: '\n' :: cs => '\n' :: lineBreaks cs
  | c :: cs =>
    if isBreak c then (if c = '\u2028' ∨ c = '\u2029' then c else '\n') :: lineBreaks cs
    else lineBreaks cs

/-- The text of line breaks that are folded. -/
def foldBreaks : List Char → List Char
  | ['\n'] => [' ']
  | '\n' :: more => more
  | breaks => breaks

/-- The text of the characters between two words of a scalar. -/
def gapText (gap : List Char) : List Char :=
  match lineBreaks gap with
  | [] => gap
  | breaks => foldBreaks breaks

/-- The number of characters of the line break at the front. -/
def breakLength : List Char → Nat
  | '\r' :: '\n' :: _ => 2
  | c :: _ => if isBreak c then 1 else 0
  | [] => 0

/-! ## Marks and cursors -/

/-- A place in a text. -/
structure Mark where
  /-- The number of characters before the place. -/
  index : Nat := 0
  line : Nat := 0
  column : Nat := 0
  deriving DecidableEq, Repr

/-- The place after some characters. -/
def Mark.after : List Char → Mark → Mark
  | [], m => m
  | '\r' :: '\n' :: cs, m => after cs ⟨m.index + 2, m.line + 1, 0⟩
  | c :: cs, m =>
    after cs (if isBreak c then ⟨m.index + 1, m.line + 1, 0⟩
      else ⟨m.index + 1, m.line, m.column + 1⟩)

/-- What is left of a text, and where it starts. -/
structure Cursor where
  rest : List Char
  mark : Mark := {}

namespace Cursor

/-- The cursor after `n` more characters. -/
def advance (c : Cursor) (n : Nat) : Cursor :=
  ⟨c.rest.drop n, Mark.after (c.rest.take n) c.mark⟩

/-- The cursor at the end part `rest` of what is left. -/
def advanceTo (c : Cursor) (rest : List Char) : Cursor :=
  c.advance (c.rest.length - rest.length)

/-- The characters at the front that pass a test, and the cursor after them. -/
def span (p : Char → Bool) (c : Cursor) : List Char × Cursor :=
  let word := c.rest.takeWhile p
  (word, c.advance word.length)

/-- The cursor after the characters at the front that pass a test. -/
def skip (p : Char → Bool) (c : Cursor) : Cursor := (c.span p).2

/-- The line break at the front, as it counts in a text, and the cursor after it. -/
def lineBreak (c : Cursor) : List Char × Cursor :=
  let n := breakLength c.rest
  (lineBreaks (c.rest.take n), c.advance n)

/-- Whether the cursor stands before a mark that starts or ends a document. -/
def atDocumentMark (c : Cursor) : Bool :=
  c.mark.column = 0 &&
    match c.rest with
    | '-' :: '-' :: '-' :: rest => endsWord rest
    | '.' :: '.' :: '.' :: rest => endsWord rest
    | _ => false

/-- The cursor at the start of the next line, if nothing but spaces and a comment is left on this
one. -/
def endLine? (c : Cursor) : Option Cursor :=
  let c := c.skip isSpace
  let c := if c.rest.head? = some '#' then c.skip fun x => !isBreak x else c
  match c.rest with
  | [] => some c
  | x :: _ => if isBreak x then some c.lineBreak.2 else none

end Cursor
end Yaml
end ClusterTransition
