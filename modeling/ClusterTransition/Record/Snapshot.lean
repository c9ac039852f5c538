import ClusterTransition.Record.Document
import ClusterTransition.Snapshot.Node

/-! # Stored snapshots

An element of a snapshot is stored with its attributes as a map, in their order, and its children as
a list.  Empty maps and lists are left out.  Elements may lie inside each other as deep as the
format allows.
-/

namespace ClusterTransition
namespace ConfigNode

/-! ## Reading -/

section Reading

variable {ν : Type} (r : ValueReader ν)

/-- Reads attributes, in their order. -/
def readAttributes? (v : ν) : Option (List (String × String)) :=
  (r.entries? v).bind fun entries =>
    entries.mapM fun e => (r.scalar? e.2).map (e.1, ·)

/-- Reads an element whose children are read by `child`.  Without `nested` it may have neither
attributes nor children. -/
def readElement? (nested : Bool) (child : ν → Option ConfigNode) (v : ν) : Option ConfigNode := do
  match ← r.fields? ["name", "attributes", "children"] v with
  | [name, attributes, children] =>
    if !nested && (attributes.isSome || children.isSome) then none
    else
      return {
        name := ← required r.string? name
        attributes := ← defaulting [] (readAttributes? r) attributes
        children := ← defaulting [] (r.listOf? child) children }
  | _ => none

/-- Reads an element within which no more than the given number of maps and lists lie inside each
other.  The element is one of them, and its attributes and its list of children come next. -/
def readWithin? : Nat → ν → Option ConfigNode
  | 0, _ => none
  | 1, v => readElement? r false (fun _ => none) v
  | depth + 2, v => readElement? r true (readWithin? depth) v

/-- Reads an element. -/
def read? (v : ν) : Option ConfigNode := readWithin? r r.maxDepth v

end Reading

/-! ## Writing -/

mutual

/-- An element as JSON. -/
def toJson : ConfigNode → Json
  | ⟨name, attributes, children⟩ =>
    Json.object <|
      [("name", Json.text name)] ++
        (if attributes.isEmpty then []
          else [("attributes", Json.object (attributes.map fun a => (a.1, Json.text a.2)))]) ++
        (if children.isEmpty then [] else [("children", .arr (childrenJson children))])

/-- Several elements as JSON. -/
def childrenJson : List ConfigNode → List Json
  | [] => []
  | n :: rest => toJson n :: childrenJson rest

end

end ConfigNode
end ClusterTransition
