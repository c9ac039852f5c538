import ClusterTransition.Yaml.Cursor

/-! # Plain scalars

A plain scalar has no quotes.  It is made of words, and what stands between two words is folded.
It ends before a colon that ends a word, before a comment and before a document mark; inside
brackets also before the characters that belong to them, and outside of brackets before a line that
is not indented beyond the collection that holds the scalar.
-/

namespace ClusterTransition
namespace Yaml

/-- The word at the front of a plain scalar.  Inside brackets no bracket, comma or question mark may
follow a colon. -/
def plainWord? (inFlow : Bool) : List Char → Option (List Char)
  | [] => some []
  | c :: cs =>
    if isGap c then some []
    else if c = ':' && inFlow && cs.head?.any (fun x => isFlowMark x || x = '?') then none
    else if (c = ':' && endsWord cs) || (inFlow && isFlowMark c) then some []
    else (plainWord? inFlow cs).map (c :: ·)

/-- Whether a tab stands in one of the first `margin` columns of a line.  The column is `none` up to
the first line break. -/
def tabInMargin (margin : Nat) : Option Nat → List Char → Bool
  | _, [] => false
  | column, c :: cs =>
    if isBreak c then tabInMargin margin (some 0) cs
    else
      (column.any fun n => c = '\t' && n < margin) ||
        tabInMargin margin (column.map (· + 1)) cs

/-- A plain scalar, or the end of one. -/
structure PlainText where
  text : List Char
  /-- Where the scalar was found to have ended. -/
  cursor : Cursor
  /-- Whether the scalar was found to have ended only after a line break. -/
  newLine : Bool

/-- Reads the rest of a plain scalar, of which a word was read.  Every step takes a word. -/
def plainRest? (inFlow : Bool) (margin : Nat) : Nat → Cursor → Option PlainText
  | 0, _ => none
  | fuel + 1, c =>
    let (gap, next) := c.span isGap
    if gap = [] then some ⟨[], c, false⟩
    else if tabInMargin margin none gap then none
    else
      let ended : PlainText := ⟨[], next, gap.any isBreak⟩
      if (!inFlow && next.mark.column < margin) || next.atDocumentMark ||
          next.rest.head? = some '#' then
        some ended
      else
        match plainWord? inFlow next.rest with
        | none => none
        | some [] => some ended
        | some word =>
          (plainRest? inFlow margin fuel (next.advance word.length)).map fun p =>
            { p with text := gapText gap ++ word ++ p.text }

/-- Reads a plain scalar within a collection that is indented by less than `margin`. -/
def plainScalar? (inFlow : Bool) (margin : Nat) (c : Cursor) : Option PlainText :=
  (plainWord? inFlow c.rest).bind fun word =>
    (plainRest? inFlow margin (c.rest.length + 1) (c.advance word.length)).map fun p =>
      { p with text := word ++ p.text }

end Yaml
end ClusterTransition
