import ClusterTransition.Config

/-! # Graph documents

A graph document is the stored form of a transition graph, as it comes from whatever computed it.
`GraphDocument.toGraph` builds the graph: first all the synapses with their actions, then all the
inputs, so that an input may name an action of a later synapse.
-/

namespace ClusterTransition

/-- An action in a graph document. -/
structure ActionDocument where
  id : Int
  kind : ActionKind
  task : Option String := none
  key : Option String := none
  target : Option String := none
  targetUuid : Option String := none
  router : Option String := none
  resource : Option ResourceRef := none
  params : Table String String := .empty
  /-- The timeout in milliseconds; where there is none, a parameter may state it. -/
  timeout : Option Int := none
  canFail : Bool := false
  deriving DecidableEq

/-- A synapse in a graph document. -/
structure SynapseDocument where
  id : Int
  priority : Int := 0
  actions : List ActionDocument := []
  /-- The ids of the actions that the synapse waits for. -/
  inputs : List Int := []
  deriving DecidableEq

/-- The stored form of a transition graph. -/
structure GraphDocument where
  transitionId : Int
  source : String := ""
  batchLimit : Option Int := none
  migrationLimit : Int := -1
  networkDelay : Option Int := none
  stonithTimeout : Option Int := none
  transitionDelay : Option Int := none
  synapses : List SynapseDocument := []
  deriving DecidableEq

/-! ## Actions -/

namespace ActionDocument

/-- A parameter that holds a number. -/
def metaNumber (a : ActionDocument) (name : String) : Option Int :=
  (a.params.get? ("CRM_meta_" ++ name)).bind fun text =>
    Numeral.parseInt64? (trimBlank text.toList)

/-- The time allowed for the action: the stated timeout, else the one among the parameters, and the
delay of its start on top.  The sum stays within 64 bits. -/
def effectiveTimeout (a : ActionDocument) : Int :=
  Numeral.clampInt64
    (((a.timeout.or (a.metaNumber "timeout")).getD 0) + ((a.metaNumber "start_delay").getD 0))

/-- The action of a document, which has not been dispatched. -/
def toAction (a : ActionDocument) : Action where
  id := a.id
  kind := a.kind
  op :=
    { task := a.task
      key := a.key
      target := a.target
      targetUuid := a.targetUuid
      router := a.router
      resource := a.resource
      params := a.params
      timeoutMs := a.effectiveTimeout }
  canFail := a.canFail

end ActionDocument

/-! ## Graphs -/

namespace GraphDocument

/-- Which values the document sets itself. -/
def overrides (d : GraphDocument) : GraphOverrides where
  networkDelay := d.networkDelay.isSome
  stonithTimeout := d.stonithTimeout.isSome
  transitionDelay := d.transitionDelay.isSome
  batchLimit := d.batchLimit.isSome

/-- The graph of a document before it has synapses. -/
def emptyGraph (d : GraphDocument) : Graph where
  id := d.transitionId
  source := d.source
  migrationLimit := d.migrationLimit
  batchLimit := d.batchLimit.getD 0
  networkDelay := d.networkDelay.getD defaultNetworkDelay
  stonithTimeout := d.stonithTimeout.getD defaultNetworkDelay
  transitionDelay := d.transitionDelay.getD 0

/-- Adds actions to the synapse at `pos`, up to the first that cannot be added. -/
def addActions (pos : Nat) : List ActionDocument → Graph → Except Error Graph
  | [], g => .ok g
  | a :: rest, g =>
    match g.addAction pos a.toAction with
    | .error e => .error e
    | .ok g => addActions pos rest g

/-- Adds synapses with their actions. -/
def addSynapses : List SynapseDocument → Graph → Except Error Graph
  | [], g => .ok g
  | s :: rest, g =>
    match addActions g.synapses.length s.actions (g.addSynapse s.id s.priority) with
    | .error e => .error e
    | .ok g => addSynapses rest g

/-- Adds inputs to the synapse at `pos`. -/
def addInputs (pos : Nat) : List Int → Graph → Except Error Graph
  | [], g => .ok g
  | id :: rest, g =>
    match g.addInput pos id with
    | .error e => .error e
    | .ok g => addInputs pos rest g

/-- Adds the inputs of the synapses that stand from `pos` on. -/
def connect (pos : Nat) : List SynapseDocument → Graph → Except Error Graph
  | [], g => .ok g
  | s :: rest, g =>
    match addInputs pos s.inputs g with
    | .error e => .error e
    | .ok g => connect (pos + 1) rest g

/-- Builds the graph.  It fails if two actions have the same id or an input names no action. -/
def toGraph (d : GraphDocument) : Except Error Graph :=
  match addSynapses d.synapses d.emptyGraph with
  | .error e => .error e
  | .ok g => connect 0 d.synapses g

/-- Builds the graph, taking the values that the document leaves open from a configuration. -/
def toGraphWith (d : GraphDocument) (c : EngineConfig) : Except Error Graph :=
  d.toGraph.map fun g => c.applyDefaults g d.overrides

/-- The document with a source, if it does not name one itself. -/
def withSource (d : GraphDocument) (source : String) : GraphDocument :=
  if d.source = "" then { d with source } else d

end GraphDocument
end ClusterTransition
