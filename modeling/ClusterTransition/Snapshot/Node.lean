import ClusterTransition.Sorting

/-! # Configuration snapshots

A snapshot of the configuration database is a tree of elements.  An element has a name, attributes
in the order in which they were loaded, and child elements.  It is rendered to compact XML, and
digests are taken of that rendering.

`ConfigNode.sorted` puts the attributes and the children of every element into the order of their
names, keeping the order among equal names.
-/

namespace ClusterTransition

/-- An element of a snapshot. -/
structure ConfigNode where
  name : String
  /-- Names and values, in the order in which they were loaded. -/
  attributes : List (String × String) := []
  children : List ConfigNode := []
  deriving Inhabited

namespace ConfigNode

/-! ## Building -/

/-- Replaces the value of the first attribute with this name, or appends an attribute. -/
def putAttribute (name value : String) : List (String × String) → List (String × String)
  | [] => [(name, value)]
  | (k, v) :: rest =>
    if k = name then (k, value) :: rest else (k, v) :: putAttribute name value rest

/-- Sets an attribute, in its place if it exists. -/
def setAttribute (n : ConfigNode) (name value : String) : ConfigNode :=
  { n with attributes := putAttribute name value n.attributes }

/-- The value of the first attribute with this name. -/
def attribute? (n : ConfigNode) (name : String) : Option String :=
  (n.attributes.find? (·.1 = name)).map (·.2)

/-- Appends a child. -/
def addChild (n child : ConfigNode) : ConfigNode := { n with children := n.children ++ [child] }

/-! ## Sorting -/

mutual

/-- The element with attributes and children in the order of their names, at every depth. -/
def sorted : ConfigNode → ConfigNode
  | ⟨name, attributes, children⟩ =>
    ⟨name, sortByKey (·.1) attributes, sortByKey (·.name) (sortedChildren children)⟩

/-- The elements, each sorted. -/
def sortedChildren : List ConfigNode → List ConfigNode
  | [] => []
  | n :: rest => sorted n :: sortedChildren rest

end

/-! ## XML -/

/-- The attributes that every write changes; digests of one kind leave them out. -/
def volatileAttributes : List String :=
  ["crm-debug-origin", "cib-last-written", "update-origin", "update-client", "update-user"]

/-- How a character is written in the value of an attribute. -/
def escapeChar (c : Char) : List Char :=
  if c = '&' then "&amp;".toList
  else if c = '<' then "&lt;".toList
  else if c = '>' then "&gt;".toList
  else if c = '"' then "&quot;".toList
  else if c = '\'' then "&apos;".toList
  else [c]

/-- One attribute, with a blank in front. -/
def renderAttribute (a : String × String) : List Char :=
  ' ' :: a.1.toList ++ ['=', '"'] ++ a.2.toList.flatMap escapeChar ++ ['"']

/-- The attributes that are written: all, or with `filter` those that are not volatile. -/
def keptAttributes (filter : Bool) (attributes : List (String × String)) :
    List (String × String) :=
  if filter then attributes.filter fun a => !volatileAttributes.contains a.1 else attributes

mutual

/-- The characters of an element. -/
def renderXml (filter : Bool) : ConfigNode → List Char
  | ⟨name, attributes, children⟩ =>
    '<' :: name.toList ++ (keptAttributes filter attributes).flatMap renderAttribute ++
      (match children with
      | [] => ['/', '>']
      | child :: rest =>
        '>' :: renderXml filter child ++ renderChildren filter rest ++
          ['<', '/'] ++ name.toList ++ ['>'])

/-- The characters of several elements. -/
def renderChildren (filter : Bool) : List ConfigNode → List Char
  | [] => []
  | child :: rest => renderXml filter child ++ renderChildren filter rest

end

/-- The compact XML of an element; with `filter`, without volatile attributes. -/
def toXml (n : ConfigNode) (filter : Bool) : String := String.ofList (n.renderXml filter)

end ConfigNode
end ClusterTransition
