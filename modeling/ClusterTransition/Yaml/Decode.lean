import ClusterTransition.Record.Reader
import ClusterTransition.Yaml.Node
import ClusterTransition.Yaml.Scalar

/-! # What YAML values are read as

A field of a record is an entry of a map, and an entry must not be there twice.  The text of a
scalar can always be taken as it is.  Numbers and truth values are plain scalars; tags do not matter
to them.  An empty value also stands for an empty list or map.
-/

namespace ClusterTransition
namespace Yaml

/-- A node with all references at its root followed. -/
def root? (v : Yaml) : Option Node :=
  match v.node with
  | .alias number => v.anchors.node? number
  | n => some n

/-- A node of the same document. -/
def within (v : Yaml) (n : Node) : Yaml := { v with node := n }

/-- The tag of a type that the format itself defines. -/
def coreTag (name : String) : String := "tag:yaml.org,2002:" ++ name

/-- The name of a tag of the document's own, which starts with an exclamation mark. -/
def localTag? (tag : Option String) : Option String :=
  match tag.map String.toList with
  | some ('!' :: name) => some (if name = [] then "!" else String.ofList name)
  | _ => none

/-! ## Scalars -/

/-- The text of a scalar. -/
def string? (v : Yaml) : Option String :=
  match v.root? with
  | some (.scalar _ _ text) => text
  | _ => none

/-- The text of a plain scalar.  A literal one with the tag of the wanted type counts as well. -/
def plainText? (type : String) (v : Yaml) : Option String :=
  match v.root? with
  | some (.scalar _ .plain text) => text
  | some (.scalar tag .literal text) => if tag = some (coreTag type) then text else none
  | _ => none

/-- The value of a truth value. -/
def bool? (v : Yaml) : Option Bool := (v.plainText? "bool").bind boolOfName?

/-- The whole number that a scalar stands for. -/
def int? (v : Yaml) : Option Int := (v.plainText? "int").bind fun text => whole? text.toList

/-- The whole number that a scalar without a minus sign stands for. -/
def nat? (v : Yaml) : Option Nat := (v.plainText? "int").bind fun text => wholeNat? text.toList

/-- Whether a scalar is plain and stands for null.  A scalar with the tag of null must be null. -/
def isNull? (v : Yaml) : Option Bool :=
  match v.root? with
  | some (.scalar none .plain text) => some (text = "" || isNullName text)
  | some (.scalar (some tag) .plain text) =>
    if tag = coreTag "null" then (if isNullName text then some true else none) else some false
  | _ => some false

/-- Whether a value is empty, as it is where nothing is written. -/
def isEmpty (v : Yaml) : Bool :=
  match v.root? with
  | some (.scalar _ .plain text) => text = ""
  | _ => false

/-- The name of a case without data: a scalar, or a tag of the document's own on a plain null. -/
def case? (v : Yaml) : Option String :=
  match v.root? with
  | some (.scalar tag style text) =>
    match localTag? tag with
    | none => some text
    | some name =>
      if style = .plain ∧ (text = "" ∨ isNullName text) then some name else none
  | _ => none

/-- The text of a number. -/
def Real.text : Real → String
  | finite negative x => String.ofList (x.render negative)
  | special => ""

/-- The text of a whole number of 64 bits. -/
def wordText? (n : Int) : Option String :=
  if isWord n then some (Numeral.intText n) else none

/-- The text of a truth value. -/
def boolText (b : Bool) : String := if b then "true" else "false"

/-- The text of a scalar by what it stands for. -/
def scalar? (v : Yaml) : Option String :=
  match v.root? with
  | some (.scalar none .plain text) =>
    match Plain.ofText text with
    | .null => some ""
    | .bool b => some (boolText b)
    | .whole n => wordText? n
    | .real x => some x.text
    | .text => some text
  | some (.scalar tag _ text) =>
    if (localTag? tag).isSome then none
    else if tag = some (coreTag "bool") then (boolOfName? text).map boolText
    else if tag = some (coreTag "int") then (whole? text.toList).bind wordText?
    else if tag = some (coreTag "float") then (real? text.toList).map Real.text
    else if tag = some (coreTag "null") then (if isNullName text then some "" else none)
    else some text
  | _ => none

/-! ## Lists and maps -/

/-- The items of a list. -/
def list? (v : Yaml) : Option (List Yaml) :=
  match v.root? with
  | some (.sequence items) => some (items.map v.within)
  | _ => if v.isEmpty then some [] else none

/-- The entries of a map whose keys are scalars. -/
def entries? (v : Yaml) : Option (List (String × Yaml)) :=
  match v.root? with
  | some (.mapping entries) =>
    entries.mapM fun e => ((v.within e.1).string?).map (·, v.within e.2)
  | _ => if v.isEmpty then some [] else none

/-- The values of the fields of a record. -/
def fields? (names : List String) (v : Yaml) : Option (List (Option Yaml)) :=
  v.entries?.bind fun entries => names.mapM (uniqueValue? entries)

/-- What YAML values are read as. -/
def reader : ValueReader Yaml where
  isNull? := isNull?
  string? := string?
  bool? := bool?
  int? := int?
  nat? := nat?
  list? := list?
  entries? := entries?
  fields? := fields?
  case? := case?
  scalar? := scalar?
  maxDepth := 128

end Yaml
end ClusterTransition
