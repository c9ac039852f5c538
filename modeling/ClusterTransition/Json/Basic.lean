import ClusterTransition.Text.Numeral

/-! # JSON values

A JSON value keeps all that the text shows: the order of the members of an object, repeated names,
and how a number is written.  A string may fail to be a text, because it holds one half of a
surrogate pair alone; such a string is `none`.
-/

namespace ClusterTransition

/-- A number as it is written. -/
inductive JsonNumber where
  /-- Digits, with a minus sign if `negative`. -/
  | integer (negative : Bool) (magnitude : Nat)
  /-- A number with a fraction, an exponent or both.  The fraction may be empty. -/
  | decimal (negative : Bool) (whole : Nat) (fraction : List Char) (exponent : Int)
  deriving DecidableEq, Repr

/-- A JSON value. -/
inductive Json where
  | null
  | bool (value : Bool)
  | num (value : JsonNumber)
  | str (text : Option String)
  | arr (items : List Json)
  | obj (members : List (Option String × Json))
  deriving Inhabited

namespace Json

/-- A string. -/
def text (s : String) : Json := .str (some s)

/-- A whole number. -/
def int (n : Int) : Json := .num (.integer (n < 0) n.natAbs)

/-- A whole number that is not negative. -/
def nat (n : Nat) : Json := .num (.integer false n)

/-- An object with the given members. -/
def object (members : List (String × Json)) : Json :=
  .obj (members.map fun m => (some m.1, m.2))

/-- A value that may be missing, which is null. -/
def optional {α : Type} (f : α → Json) : Option α → Json
  | none => .null
  | some a => f a

/-- A member that is left out when its value is missing. -/
def member? {α : Type} (name : String) (f : α → Json) : Option α → List (String × Json)
  | none => []
  | some a => [(name, f a)]

/-- A list of values. -/
def list {α : Type} (f : α → Json) (items : List α) : Json := .arr (items.map f)

end Json
end ClusterTransition
