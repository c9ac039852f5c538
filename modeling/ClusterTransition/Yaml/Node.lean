import ClusterTransition.Table
import ClusterTransition.Yaml.Token

/-! # Nodes of a YAML document

A document is a tree of scalars, lists and maps.  A node may have an anchor, and an alias stands for
the node with an anchor; such references are kept in the tree and followed when it is read.

An anchor is known by a number: how many names of anchors there were when it was set.  Of anchors
with one number the last counts.
-/

namespace ClusterTransition
namespace Yaml

/-- A node of a document. -/
inductive Node where
  /-- A reference to the node whose anchor has a number. -/
  | alias (number : Nat)
  | scalar (tag : Option String) (style : ScalarStyle) (text : String)
  | sequence (items : List Node)
  | mapping (entries : List (Node × Node))
  deriving Inhabited

/-- An empty node. -/
def Node.empty : Node := .scalar none .plain ""

/-- The anchors of a document.  Each setting of an anchor has a place in their order. -/
structure Anchors where
  /-- The number of each name. -/
  numbers : Table String Nat := .empty
  /-- The place at which each number was set last. -/
  places : Table Nat Nat := .empty
  /-- The nodes that are complete, by their places. -/
  nodes : Table Nat Node := .empty
  /-- The number of places. -/
  count : Nat := 0

namespace Anchors

/-- Sets an anchor in front of its node. -/
def set (a : Anchors) (name : String) : Anchors :=
  let number := a.numbers.entries.length
  { a with
    numbers := a.numbers.insert name number
    places := a.places.insert number a.count
    count := a.count + 1 }

/-- Completes the node whose anchor was set at a place. -/
def complete (a : Anchors) (place : Nat) (n : Node) : Anchors :=
  { a with nodes := a.nodes.insert place n }

/-- The node whose anchor has a number. -/
def node? (a : Anchors) (number : Nat) : Option Node := (a.places.get? number).bind a.nodes.get?

end Anchors

/-! ## Reading tokens -/

/-- The tokens that are left, and the anchors that were set. -/
structure Composer where
  tokens : List Token
  anchors : Anchors := {}

/-- A step that reads tokens and may fail. -/
abbrev Compose := StateT Composer Option

namespace Compose

/-- The next token. -/
def peek : Compose (Option Token) := fun s => some (s.tokens.head?, s)

/-- Skips a token. -/
def skip : Compose Unit := fun s => some ((), { s with tokens := s.tokens.tail })

/-- Whether the next token is one of several. -/
def at? (ts : List Token) : Compose Bool := fun s => some (s.tokens.head?.any ts.contains, s)

/-- Skips the next token if it is `t`, and tells whether it was. -/
def accept (t : Token) : Compose Bool := do
  if ← at? [t] then
    skip
    return true
  else return false

/-- Skips the next token, which must be `t`. -/
def expect (t : Token) : Compose Unit := do
  if ← accept t then return () else failure

/-- Sets an anchor and tells its place. -/
def setAnchor (name : String) : Compose Nat := fun s =>
  some (s.anchors.count, { s with anchors := s.anchors.set name })

/-- Completes the node of an anchor. -/
def completeAnchor (n : Node) (place : Nat) : Compose Unit := fun s =>
  some ((), { s with anchors := s.anchors.complete place n })

/-- The reference that an alias stands for.  Its anchor must have been set. -/
def reference (name : String) : Compose Node := fun s =>
  (s.anchors.numbers.get? name).map fun number => (.alias number, s)

/-- Reads the anchor and the tag of a node, in either order. -/
def properties : Compose (Option String × Option WrittenTag) := do
  match ← peek with
  | some (.anchor name) =>
    skip
    match ← peek with
    | some (.tag tag) =>
      skip
      return (some name, some tag)
    | _ => return (some name, none)
  | some (.tag tag) =>
    skip
    match ← peek with
    | some (.anchor name) =>
      skip
      return (some name, some tag)
    | _ => return (none, some tag)
  | _ => return (none, none)

/-! ## Nodes -/

/-- What handles stand for. -/
abbrev Handles := List (String × String)

/-- The tag that a written tag stands for. -/
def tagText (handles : Handles) (t : WrittenTag) : Compose String :=
  if t.handle = "" then return t.suffix
  else
    match handles.lookup t.handle with
    | some start => return start ++ t.suffix
    | none => failure

/-- Where a node stands. -/
inductive Place where
  /-- Between brackets. -/
  | flow
  /-- On lines of its own. -/
  | block
  /-- In a map on lines of its own, where the items of a list need not be indented. -/
  | mapping
  deriving DecidableEq, Repr

/-- A node without content, which must have properties. -/
def bareNode (anchor : Option String) (tag : Option String) : Compose Node :=
  if anchor.isSome || tag.isSome then return .scalar tag .plain "" else failure

/-! Every call of the readers below spends one unit of fuel.  Of three calls within each other one
takes a token at least. -/

mutual

/-- Reads a node. -/
def node (handles : Handles) : Nat → Place → Compose Node
  | 0, _ => failure
  | fuel + 1, place => do
    match ← peek with
    | some (.alias name) =>
      skip
      reference name
    | _ =>
      let (anchor, tag) ← properties
      let tag ← tag.mapM (tagText handles)
      let anchorPlace ← anchor.mapM setAnchor
      let content : Node ← match ← peek with
        | some .blockEntry =>
          if place = .mapping then pure <| .sequence (← plainItems handles fuel)
          else bareNode anchor tag
        | some (.scalar style text) =>
          skip
          pure <| .scalar (tag.filter (· ≠ "!")) style text
        | some .flowSequenceStart =>
          skip
          pure <| .sequence (← flowItems handles fuel true)
        | some .flowMappingStart =>
          skip
          pure <| .mapping (← flowEntries handles fuel true)
        | some .blockSequenceStart =>
          if place = .flow then bareNode anchor tag
          else
            skip
            pure <| .sequence (← blockItems handles fuel)
        | some .blockMappingStart =>
          if place = .flow then bareNode anchor tag
          else
            skip
            pure <| .mapping (← blockEntries handles fuel)
        | _ => bareNode anchor tag
      anchorPlace.forM (completeAnchor content)
      return content

/-- Reads a node, which is empty if one of several tokens comes next. -/
def nodeUnless (handles : Handles) : Nat → Place → List Token → Compose Node
  | 0, _, _ => failure
  | fuel + 1, place, ends => do
    if ← at? ends then return .empty else node handles fuel place

/-- Reads the items of an indented list. -/
def blockItems (handles : Handles) : Nat → Compose (List Node)
  | 0 => failure
  | fuel + 1 => do
    if ← accept .blockEnd then return []
    else
      expect .blockEntry
      let item ← nodeUnless handles fuel .block [.blockEntry, .blockEnd]
      return item :: (← blockItems handles fuel)

/-- Reads the items of a list that is not indented. -/
def plainItems (handles : Handles) : Nat → Compose (List Node)
  | 0 => failure
  | fuel + 1 => do
    if ← accept .blockEntry then
      let item ← nodeUnless handles fuel .block [.blockEntry, .key, .value, .blockEnd]
      return item :: (← plainItems handles fuel)
    else return []

/-- Reads the entries of a map on lines of its own. -/
def blockEntries (handles : Handles) : Nat → Compose (List (Node × Node))
  | 0 => failure
  | fuel + 1 => do
    if ← accept .blockEnd then return []
    else
      expect .key
      let key ← nodeUnless handles fuel .mapping [.key, .value, .blockEnd]
      let value ←
        if ← accept .value then nodeUnless handles fuel .mapping [.key, .value, .blockEnd]
        else pure .empty
      return (key, value) :: (← blockEntries handles fuel)

/-- Reads the items of a list in brackets.  An item may be a single entry of a map. -/
def flowItems (handles : Handles) : Nat → (first : Bool) → Compose (List Node)
  | 0, _ => failure
  | fuel + 1, first => do
    if ← accept .flowSequenceEnd then return []
    else
      if !first then expect .flowEntry
      if ← accept .key then
        let key ←
          if ← at? [.value, .flowEntry, .flowSequenceEnd] then
            skip
            pure .empty
          else node handles fuel .flow
        let value ←
          if ← accept .value then
            nodeUnless handles fuel .flow [.flowEntry, .flowSequenceEnd]
          else pure .empty
        return .mapping [(key, value)] :: (← flowItems handles fuel false)
      else if ← accept .flowSequenceEnd then return []
      else
        let item ← node handles fuel .flow
        return item :: (← flowItems handles fuel false)

/-- Reads the entries of a map in brackets. -/
def flowEntries (handles : Handles) : Nat → (first : Bool) → Compose (List (Node × Node))
  | 0, _ => failure
  | fuel + 1, first => do
    if ← accept .flowMappingEnd then return []
    else
      if !first then expect .flowEntry
      if ← accept .key then
        let key ← nodeUnless handles fuel .flow [.value, .flowEntry, .flowMappingEnd]
        let value ←
          if ← accept .value then
            nodeUnless handles fuel .flow [.flowEntry, .flowMappingEnd]
          else pure .empty
        return (key, value) :: (← flowEntries handles fuel false)
      else if ← accept .flowMappingEnd then return []
      else
        let key ← node handles fuel .flow
        return (key, .empty) :: (← flowEntries handles fuel false)

end

/-! ## Documents -/

/-- The handles that need no directive. -/
def defaultHandles : Handles := [("!", "!"), ("!!", "tag:yaml.org,2002:")]

/-- What directives say about handles.  There may be one version, and one meaning of a handle. -/
def directiveHandles? : (version : Bool) → Handles → List Directive → Option Handles
  | _, handles, [] => some handles
  | version, handles, .version major minor :: ds =>
    if !version && major = 1 && (minor = 1 || minor = 2) then directiveHandles? true handles ds
    else none
  | version, handles, .handle name start :: ds =>
    if (handles.lookup name).isSome then none
    else directiveHandles? version ((name, start) :: handles) ds

/-- The directives at the front. -/
def leadingDirectives : List Token → List Directive
  | .directive d :: ts => d :: leadingDirectives ts
  | _ => []

/-- Reads a document from its directives on, with the marks of its end. -/
def document : Compose Node := do
  let tokens := (← get).tokens
  let fuel := 3 * tokens.length + 3
  let directives := leadingDirectives tokens
  let handles ← (directiveHandles? false [] directives).elim failure pure
  let handles := handles ++ defaultHandles
  modify fun s => { s with tokens := s.tokens.drop directives.length }
  let root ←
    if ← accept .documentStart then
      match ← peek with
      | some .documentStart | some .documentEnd | some (.directive _) | none => pure .empty
      | _ => node handles fuel .block
    else if directives.isEmpty then node handles fuel .block
    else failure
  modify fun s => { s with tokens := s.tokens.dropWhile (· = .documentEnd) }
  return root

end Compose
end Yaml

/-- A YAML value: a node of a document, with the anchors of the document. -/
structure Yaml where
  node : Yaml.Node
  anchors : Yaml.Anchors

/-- The value that a text holds.  The text must be a single document that is not empty. -/
def Yaml.parse? (text : String) : Option Yaml :=
  ((Yaml.tokens? text).bind fun tokens => Yaml.Compose.document { tokens }).bind fun p =>
    if p.2.tokens = [] then some ⟨p.1, p.2.anchors⟩ else none

end ClusterTransition
