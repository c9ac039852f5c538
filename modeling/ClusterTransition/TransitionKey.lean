import ClusterTransition.Vocabulary

/-! # Transition keys and transition magic

A transition key goes out with every request and comes back with its result.  It says which action
of which transition the result is for, which exit code was expected, and which engine asked:

    action:transition:target_rc:uuid

The uuid is filled up with blanks to 36 columns.  Two older forms leave out the expected exit code,
or that and the action; what is left out reads as -1.  Transition magic is a key with the status and
the exit code of the operation in front, as in `0:7;` followed by the key.
-/

namespace ClusterTransition

/-! ## Cutting texts -/

/-- The part before the first `sep` and the part after it. -/
def splitFirst (sep : Char) : List Char → Option (List Char × List Char)
  | [] => none
  | c :: cs => if c = sep then some ([], cs) else (splitFirst sep cs).map fun p => (c :: p.1, p.2)

/-- Cuts a text at `sep` into at most `n + 1` fields; the last takes what is left. -/
def splitFields (sep : Char) : Nat → List Char → List (List Char)
  | 0, cs => [cs]
  | n + 1, cs =>
    match splitFirst sep cs with
    | none => [cs]
    | some (field, rest) => field :: splitFields sep n rest

/-! ## Keys -/

/-- Identifies an action of a transition to the engine that dispatched it. -/
structure TransitionKey where
  /-- The action's id, or -1 where the key has none. -/
  action : Int
  transition : Int
  /-- The expected exit code, or -1 where the key has none. -/
  targetRc : Int
  uuid : String
  deriving DecidableEq, Repr

namespace TransitionKey

/-- The number of columns of a uuid. -/
def uuidWidth : Nat := 36

/-- Fills a text up with blanks to the width of a uuid. -/
def padUuid (uuid : List Char) : List Char :=
  uuid ++ List.replicate (uuidWidth - uuid.length) ' '

/-- The characters of the written key. -/
def render (k : TransitionKey) : List Char :=
  Numeral.renderInt k.action ++ ':' :: Numeral.renderInt k.transition ++ ':' ::
    Numeral.renderInt k.targetRc ++ ':' :: padUuid k.uuid.toList

/-- The written key. -/
def encode (k : TransitionKey) : String := String.ofList k.render

/-- A number in a key: blanks around it do not matter. -/
def intField (field : List Char) : Option Int := Numeral.parseInt32? (trimBlank field)

/-- The uuid in the last field of a key: blanks at the end go first, then all beyond the width. -/
def uuidField (field : List Char) : String := String.ofList ((trimEnd field).take uuidWidth)

/-- Reads the fields of a key. -/
def ofFields? : List (List Char) → Option TransitionKey
  | [action, transition, rc, uuid] => do
    let action ← intField action
    let transition ← intField transition
    let rc ← intField rc
    return ⟨action, transition, rc, uuidField uuid⟩
  | [action, transition, uuid] => do
    let action ← intField action
    let transition ← intField transition
    return ⟨action, transition, -1, uuidField uuid⟩
  | [transition, uuid] => do
    let transition ← intField transition
    return ⟨-1, transition, -1, uuidField uuid⟩
  | _ => none

/-- Reads a key from its characters; a key without a uuid is refused. -/
def parse? (cs : List Char) : Option TransitionKey :=
  (ofFields? (splitFields ':' 3 cs)).filter fun k => k.uuid ≠ ""

/-- Reads a written key. -/
def decode (text : String) : Except Error TransitionKey :=
  match parse? text.toList with
  | some k => .ok k
  | none => .error (.invalidTransitionKey text)

end TransitionKey

/-! ## Magic -/

/-- A key together with the outcome of the operation. -/
structure TransitionMagic where
  opStatus : Int
  opRc : Int
  key : TransitionKey
  deriving DecidableEq, Repr

namespace TransitionMagic

/-- The characters of the written magic. -/
def render (m : TransitionMagic) : List Char :=
  Numeral.renderInt m.opStatus ++ ':' :: Numeral.renderInt m.opRc ++ ';' :: m.key.render

/-- The written magic. -/
def encode (m : TransitionMagic) : String := String.ofList m.render

/-- The status and the exit code in front of the key. -/
def codes? (cs : List Char) : Option (Int × Int) := do
  let (status, rc) ← splitFirst ':' cs
  let status ← TransitionKey.intField status
  let rc ← TransitionKey.intField rc
  return (status, rc)

/-- Reads written magic.  A fault in the codes blames the whole text, one in the key the key. -/
def decode (text : String) : Except Error TransitionMagic :=
  match splitFirst ';' text.toList with
  | none => .error (.invalidTransitionMagic text)
  | some (codes, key) =>
    match codes? codes with
    | none => .error (.invalidTransitionMagic text)
    | some (status, rc) =>
      match TransitionKey.decode (String.ofList key) with
      | .error e => .error e
      | .ok key => .ok ⟨status, rc, key⟩

end TransitionMagic

end ClusterTransition
