import ClusterTransition.Table
import ClusterTransition.Text.Numeral

/-! # Reading records

A record is stored as a value of some text format.  What the format accepts as a string, a number or
a list is up to the format; which fields a record has, and which of them may be missing, is up to
the record.  A `ValueReader` is the first half: the readings that a format offers for its values.
The definitions of records are written once, for any such reader.
-/

namespace ClusterTransition

/-- The value of the only entry with a name, if there is one; `none` if there are several. -/
def uniqueValue? {ν : Type} (entries : List (String × ν)) (name : String) : Option (Option ν) :=
  match entries.filter (·.1 = name) with
  | [] => some none
  | [e] => some (some e.2)
  | _ => none

/-- The readings of the values of a format.  Each is `none` for a value that cannot be read so. -/
structure ValueReader (ν : Type) where
  /-- Whether an optional field with this value is missing. -/
  isNull? : ν → Option Bool
  string? : ν → Option String
  bool? : ν → Option Bool
  /-- A whole number for a field that may hold negative ones. -/
  int? : ν → Option Int
  /-- A whole number for a field that holds no negative ones. -/
  nat? : ν → Option Nat
  list? : ν → Option (List ν)
  /-- The entries of a map from names, in the order in which they stand. -/
  entries? : ν → Option (List (String × ν))
  /-- The values of the fields with the given names; a field that is missing has none.  Fields with
  other names do not matter. -/
  fields? : List String → ν → Option (List (Option ν))
  /-- The name of a case that holds no data. -/
  case? : ν → Option String
  /-- The text of a single value of any sort, as it is used for an attribute. -/
  scalar? : ν → Option String
  /-- How many lists and maps may lie inside each other. -/
  maxDepth : Nat

namespace ValueReader

variable {ν α : Type} (r : ValueReader ν)

/-- A number of the signed 32-bit range. -/
def int32? (v : ν) : Option Int := (r.int? v).filter Numeral.isInt32

/-- A number of the signed 64-bit range. -/
def int64? (v : ν) : Option Int := (r.int? v).filter Numeral.isInt64

/-- A number of the unsigned 32-bit range. -/
def nat32? (v : ν) : Option Nat := (r.nat? v).filter Numeral.isNat32

/-- A number of the unsigned 64-bit range. -/
def nat64? (v : ν) : Option Nat := (r.nat? v).filter Numeral.isNat64

/-- A list of values that are read alike. -/
def listOf? (f : ν → Option α) (v : ν) : Option (List α) := (r.list? v).bind (·.mapM f)

/-- A table from names; of several entries with one name the last counts. -/
def tableOf? (f : ν → Option α) (v : ν) : Option (Table String α) :=
  (r.entries? v).bind fun entries =>
    (entries.mapM fun e => (f e.2).map (e.1, ·)).map Table.ofList

/-- A case that holds no data, by its name. -/
def caseOf? (ofName : String → Option α) (v : ν) : Option α := (r.case? v).bind ofName

/-! ## Fields -/

/-- A field that may be missing or null. -/
def optional (f : ν → Option α) : Option ν → Option (Option α)
  | none => some none
  | some v => (r.isNull? v).bind fun isNull => if isNull then some none else (f v).map some

end ValueReader

/-- A field that may not be missing. -/
def required {ν α : Type} (f : ν → Option α) (field : Option ν) : Option α := field.bind f

/-- A field with a value for the case that it is missing. -/
def defaulting {ν α : Type} (default : α) (f : ν → Option α) : Option ν → Option α
  | none => some default
  | some v => f v

end ClusterTransition
