import ClusterTransition.Json.Basic

/-! # Writing JSON

`Json.compact` writes a value without any blanks; `Json.pretty` puts each item and each member on a
line of its own, indented by two blanks for each level, and writes empty lists and objects as `[]`
and `{}`.  In strings only quotes, backslashes and control characters are escaped.
-/

namespace ClusterTransition
namespace Json

/-! ## Strings and numbers -/

/-- A digit of a number written to the base of sixteen. -/
def hexDigit (n : Nat) : Char := Nat.digitChar n

/-- How a character is written inside a string. -/
def escapeChar (c : Char) : List Char :=
  if c = '"' then ['\\', '"']
  else if c = '\\' then ['\\', '\\']
  else if c = '\n' then ['\\', 'n']
  else if c = '\r' then ['\\', 'r']
  else if c = '\t' then ['\\', 't']
  else if c.toNat = 8 then ['\\', 'b']
  else if c.toNat = 12 then ['\\', 'f']
  else if c.toNat < 32 then
    ['\\', 'u', '0', '0', hexDigit (c.toNat / 16), hexDigit (c.toNat % 16)]
  else [c]

/-- How a text is written. -/
def renderText (cs : List Char) : List Char := '"' :: cs.flatMap escapeChar ++ ['"']

/-- How a string is written.  One that is not a text shows as an unpaired surrogate. -/
def renderString : Option String → List Char
  | some s => renderText s.toList
  | none => ['"', '\\', 'u', 'd', '8', '0', '0', '"']

/-- The minus sign of a negative number. -/
def renderSign (negative : Bool) : List Char := if negative then ['-'] else []

/-- How a number is written. -/
def renderNumber : JsonNumber → List Char
  | .integer negative magnitude => renderSign negative ++ Numeral.renderNat magnitude
  | .decimal negative whole fraction exponent =>
    renderSign negative ++ Numeral.renderNat whole ++
      (if fraction.isEmpty then [] else '.' :: fraction) ++ 'e' :: Numeral.renderInt exponent

/-- How a truth value is written. -/
def renderBool (b : Bool) : List Char :=
  if b then ['t', 'r', 'u', 'e'] else ['f', 'a', 'l', 's', 'e']

/-! ## Without blanks -/

mutual

/-- Writes a value without blanks. -/
def render : Json → List Char
  | .null => ['n', 'u', 'l', 'l']
  | .bool b => renderBool b
  | .num n => renderNumber n
  | .str s => renderString s
  | .arr [] => ['[', ']']
  | .arr (item :: items) => '[' :: render item ++ renderItems items
  | .obj [] => ['\x7b', '\x7d']
  | .obj ((name, value) :: members) =>
    '\x7b' :: renderString name ++ ':' :: render value ++ renderMembers members

/-- Writes the items after the first, and the end of the list. -/
def renderItems : List Json → List Char
  | [] => [']']
  | item :: items => ',' :: render item ++ renderItems items

/-- Writes the members after the first, and the end of the object. -/
def renderMembers : List (Option String × Json) → List Char
  | [] => ['\x7d']
  | (name, value) :: members =>
    ',' :: renderString name ++ ':' :: render value ++ renderMembers members

end

/-- The text of a value, without blanks. -/
def compact (j : Json) : String := String.ofList j.render

/-! ## On lines of their own -/

/-- The end of a line and the indentation of the next. -/
def newline (level : Nat) : List Char := '\n' :: List.replicate (2 * level) ' '

mutual

/-- Writes a value that stands at an indentation of `level`. -/
def renderLines (level : Nat) : Json → List Char
  | .null => ['n', 'u', 'l', 'l']
  | .bool b => renderBool b
  | .num n => renderNumber n
  | .str s => renderString s
  | .arr [] => ['[', ']']
  | .arr (item :: items) =>
    '[' :: newline (level + 1) ++ renderLines (level + 1) item ++ renderItemLines level items
  | .obj [] => ['\x7b', '\x7d']
  | .obj ((name, value) :: members) =>
    '\x7b' :: newline (level + 1) ++ renderString name ++ ':' :: ' ' ::
      renderLines (level + 1) value ++ renderMemberLines level members

/-- Writes the items after the first, and the end of the list. -/
def renderItemLines (level : Nat) : List Json → List Char
  | [] => newline level ++ [']']
  | item :: items =>
    ',' :: newline (level + 1) ++ renderLines (level + 1) item ++ renderItemLines level items

/-- Writes the members after the first, and the end of the object. -/
def renderMemberLines (level : Nat) : List (Option String × Json) → List Char
  | [] => newline level ++ ['\x7d']
  | (name, value) :: members =>
    ',' :: newline (level + 1) ++ renderString name ++ ':' :: ' ' ::
      renderLines (level + 1) value ++ renderMemberLines level members

end

/-- The text of a value, on lines of their own. -/
def pretty (j : Json) : String := String.ofList (j.renderLines 0)

end Json
end ClusterTransition
