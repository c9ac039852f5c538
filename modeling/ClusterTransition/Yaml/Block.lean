import ClusterTransition.Yaml.Cursor

/-! # Block scalars

A block scalar is made of the lines after its header that are indented.  The header may state how
far they are indented and what becomes of the line breaks at the end; otherwise the first line that
is not empty decides how far, and one line break is kept.  In a folded scalar a single line break
stands for a space, unless one of the lines around it starts with one.
-/

namespace ClusterTransition
namespace Yaml

/-- What becomes of the line breaks at the end of a block scalar. -/
inductive Chomping where
  /-- None are kept. -/
  | strip
  /-- One is kept. -/
  | clip
  /-- All are kept. -/
  | keep
  deriving DecidableEq, Repr

/-- The chomping that a character in the header asks for. -/
def Chomping.ofChar? : Char → Option Chomping
  | '+' => some .keep
  | '-' => some .strip
  | _ => none

/-- The indentation that a character in the header asks for. -/
def indentOfChar? (c : Char) : Option Nat :=
  if '1' ≤ c && c ≤ '9' then some (c.toNat - '0'.toNat) else none

/-- What the characters of a header ask for. -/
def blockHeader? : List Char → Option (Chomping × Option Nat)
  | [] => some (.clip, none)
  | [c] => ((Chomping.ofChar? c).map (·, none)).or ((indentOfChar? c).map (.clip, some ·))
  | [c, d] =>
    match Chomping.ofChar? c, indentOfChar? d, indentOfChar? c, Chomping.ofChar? d with
    | some chomping, some indent, _, _ => some (chomping, some indent)
    | _, _, some indent, some chomping => some (chomping, some indent)
    | _, _, _, _ => none
  | _ => none

/-- The empty lines in front of the next line of a block scalar. -/
structure EmptyLines where
  breaks : List Char
  /-- The largest column that was reached. -/
  column : Nat
  /-- Where the next line starts, after its indentation. -/
  cursor : Cursor

/-- Reads empty lines and the indentation of the next line, of which at most `indent` spaces count.
As long as the indentation is not known, all spaces count.  No tab may be part of it. -/
def emptyLines? (indent : Option Nat) : Nat → Cursor → Option EmptyLines
  | 0, _ => none
  | fuel + 1, c =>
    let spaces := (c.rest.takeWhile (· = ' ')).length
    let c := c.advance (indent.elim spaces fun n => min spaces (n - c.mark.column))
    let inIndent := indent.all (c.mark.column < ·)
    match c.rest with
    | [] => some ⟨[], c.mark.column, c⟩
    | x :: _ =>
      if inIndent && x = '\t' then none
      else if isBreak x then
        let (lineEnd, next) := c.lineBreak
        (emptyLines? indent fuel next).map fun e =>
          { e with breaks := lineEnd ++ e.breaks, column := max c.mark.column e.column }
      else some ⟨[], c.mark.column, c⟩

/-- The part of a block scalar that is left to be read. -/
structure BlockLines where
  text : List Char
  /-- The line break after the last line, if there is one. -/
  lastBreak : List Char
  /-- The line breaks of the empty lines at the end. -/
  tail : List Char
  cursor : Cursor

/-- What stands between two lines of a block scalar.  `spaced` says whether one of the lines starts
with a space. -/
def betweenLines (folded spaced : Bool) (lineEnd empty : List Char) : List Char :=
  if folded && lineEnd = ['\n'] && !spaced then (if empty = [] then [' '] else empty)
  else lineEnd ++ empty

/-- Reads the lines of a block scalar.  `lineEnd` is the break after the last line that was read,
`spaced` says whether that line starts with a space, and `empty` are the empty lines after it. -/
def blockLines? (folded : Bool) (indent : Nat) : Nat → (lineEnd : List Char) → (spaced : Bool) →
    (empty : List Char) → Cursor → Option BlockLines
  | 0, _, _, _, _ => none
  | fuel + 1, lineEnd, spaced, empty, c =>
    if c.rest = [] || c.mark.column ≠ indent then some ⟨[], lineEnd, empty, c⟩
    else
      let startsSpaced := c.rest.head?.any isSpace
      let (line, next) := c.span fun x => !isBreak x
      let (lineEnd', next) := next.lineBreak
      (emptyLines? (some indent) (next.rest.length + 1) next).bind fun e =>
        (blockLines? folded indent fuel lineEnd' startsSpaced e.breaks e.cursor).map fun b =>
          { b with
            text := betweenLines folded (spaced || startsSpaced) lineEnd empty ++ line ++ b.text }

/-- Reads a block scalar within a collection that is indented by less than `margin`. -/
def blockScalar? (folded : Bool) (margin : Nat) (c : Cursor) : Option (List Char × Cursor) := do
  let (marks, c) := (c.advance 1).span fun x => x = '+' || x = '-' || x.isDigit
  let (chomping, stated) ← blockHeader? marks
  let c ← c.endLine?
  let indent := stated.map (margin - 1 + ·)
  let e ← emptyLines? indent (c.rest.length + 1) c
  let indent := indent.getD (max (max e.column margin) 1)
  let b ← blockLines? folded indent (e.cursor.rest.length + 1) [] false e.breaks e.cursor
  return (b.text ++
    (match chomping with
      | .strip => []
      | .clip => b.lastBreak
      | .keep => b.lastBreak ++ b.tail), b.cursor)

end Yaml
end ClusterTransition
