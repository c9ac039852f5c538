import ClusterTransition.Json.Basic
import ClusterTransition.Record.Reader

/-! # What JSON values are read as

A field of a record is a member of an object.  A record may also be written as the list of its
fields in their order, and the last ones may be missing then.  An object may not have two members
for one field.  A case without data is a string, or an object that has the name of the case as its
only member and null as the value.
-/

namespace ClusterTransition
namespace Json

/-- The text of a string. -/
def string? : Json → Option String
  | .str s => s
  | _ => none

/-- The value of a truth value. -/
def bool? : Json → Option Bool
  | .bool b => some b
  | _ => none

/-- The number written without a fraction and an exponent.  A negative zero is no whole number. -/
def int? : Json → Option Int
  | .num (.integer false n) => some n
  | .num (.integer true n) => if n = 0 then none else some (-(n : Int))
  | _ => none

/-- The number without a sign. -/
def nat? (v : Json) : Option Nat := v.int?.bind Int.toNat?

/-- Whether a value is null. -/
def isNull : Json → Bool
  | .null => true
  | _ => false

/-- The items of a list. -/
def list? : Json → Option (List Json)
  | .arr items => some items
  | _ => none

/-- A member whose name is a text. -/
def textMember? (m : Option String × Json) : Option (String × Json) := m.1.map (·, m.2)

/-- The members of an object whose names are all texts. -/
def entries? : Json → Option (List (String × Json))
  | .obj members => members.mapM textMember?
  | _ => none

/-- The values of the fields of a record. -/
def fields? (names : List String) : Json → Option (List (Option Json))
  | .obj members => (members.mapM textMember?).bind fun members =>
    names.mapM (uniqueValue? members)
  | .arr items =>
    if items.length ≤ names.length then
      some (items.map some ++ List.replicate (names.length - items.length) none)
    else none
  | _ => none

/-- The name of a case without data. -/
def case? : Json → Option String
  | .str s => s
  | .obj [(name, .null)] => name
  | _ => none

end Json
end ClusterTransition
