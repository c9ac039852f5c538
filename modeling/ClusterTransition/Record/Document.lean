import ClusterTransition.Document
import ClusterTransition.Json.Basic
import ClusterTransition.Record.Reader

/-! # Stored graph documents

The fields of graph documents, their synapses and their actions, in the order in which they are
written.  Fields that hold nothing are left out, but for the batch limit, which is null then.
-/

namespace ClusterTransition

variable {ν : Type} (r : ValueReader ν)

/-! ## Reading -/

/-- Reads a kind of action. -/
def ActionKind.read? (v : ν) : Option ActionKind := r.caseOf? ActionKind.ofName? v

/-- Reads a resource. -/
def ResourceRef.read? (v : ν) : Option ResourceRef := do
  match ← r.fields? ["id", "class", "provider", "type"] v with
  | [id, agentClass, provider, agentType] =>
    return {
      id := ← required r.string? id
      agentClass := ← r.optional r.string? agentClass
      provider := ← r.optional r.string? provider
      agentType := ← r.optional r.string? agentType }
  | _ => none

/-- Reads an action of a document. -/
def ActionDocument.read? (v : ν) : Option ActionDocument := do
  match ← r.fields? ["id", "type", "task", "key", "target", "target_uuid", "router", "resource",
      "params", "timeout", "can_fail"] v with
  | [id, kind, task, key, target, targetUuid, router, resource, params, timeout, canFail] =>
    return {
      id := ← required r.int32? id
      kind := ← required (ActionKind.read? r) kind
      task := ← r.optional r.string? task
      key := ← r.optional r.string? key
      target := ← r.optional r.string? target
      targetUuid := ← r.optional r.string? targetUuid
      router := ← r.optional r.string? router
      resource := ← r.optional (ResourceRef.read? r) resource
      params := ← defaulting .empty (r.tableOf? r.string?) params
      timeout := ← r.optional r.int64? timeout
      canFail := ← defaulting false r.bool? canFail }
  | _ => none

/-- Reads a synapse of a document. -/
def SynapseDocument.read? (v : ν) : Option SynapseDocument := do
  match ← r.fields? ["id", "priority", "actions", "inputs"] v with
  | [id, priority, actions, inputs] =>
    return {
      id := ← required r.int32? id
      priority := ← defaulting 0 r.int32? priority
      actions := ← defaulting [] (r.listOf? (ActionDocument.read? r)) actions
      inputs := ← defaulting [] (r.listOf? r.int32?) inputs }
  | _ => none

/-- Reads a graph document. -/
def GraphDocument.read? (v : ν) : Option GraphDocument := do
  match ← r.fields? ["transition_id", "source", "batch_limit", "migration_limit", "network_delay",
      "stonith_timeout", "transition_delay", "synapses"] v with
  | [transitionId, source, batchLimit, migrationLimit, networkDelay, stonithTimeout,
      transitionDelay, synapses] =>
    return {
      transitionId := ← required r.int32? transitionId
      source := ← defaulting "" r.string? source
      batchLimit := ← r.optional r.int32? batchLimit
      migrationLimit := ← defaulting (-1) r.int32? migrationLimit
      networkDelay := ← r.optional r.int64? networkDelay
      stonithTimeout := ← r.optional r.int64? stonithTimeout
      transitionDelay := ← r.optional r.int64? transitionDelay
      synapses := ← defaulting [] (r.listOf? (SynapseDocument.read? r)) synapses }
  | _ => none

/-! ## Writing -/

open Json

/-- A table as an object. -/
def tableJson {α : Type} (f : α → Json) (t : Table String α) : Json :=
  Json.object (t.entries.map fun e => (e.1, f e.2))

/-- A table as a member that is left out when the table is empty. -/
def tableMember? {α : Type} (name : String) (f : α → Json) (t : Table String α) :
    List (String × Json) :=
  if t.entries.isEmpty then [] else [(name, tableJson f t)]

/-- A resource as JSON. -/
def ResourceRef.toJson (x : ResourceRef) : Json :=
  Json.object <|
    [("id", text x.id)] ++ member? "class" text x.agentClass ++
      member? "provider" text x.provider ++ member? "type" text x.agentType

/-- An action of a document as JSON. -/
def ActionDocument.toJson (a : ActionDocument) : Json :=
  Json.object <|
    [("id", int a.id), ("type", text a.kind.name)] ++ member? "task" text a.task ++
      member? "key" text a.key ++ member? "target" text a.target ++
      member? "target_uuid" text a.targetUuid ++ member? "router" text a.router ++
      member? "resource" ResourceRef.toJson a.resource ++ tableMember? "params" text a.params ++
      member? "timeout" int a.timeout ++ [("can_fail", .bool a.canFail)]

/-- A synapse of a document as JSON. -/
def SynapseDocument.toJson (s : SynapseDocument) : Json :=
  Json.object
    [("id", int s.id), ("priority", int s.priority),
      ("actions", list ActionDocument.toJson s.actions), ("inputs", list int s.inputs)]

/-- A graph document as JSON. -/
def GraphDocument.toJson (d : GraphDocument) : Json :=
  Json.object <|
    [("transition_id", int d.transitionId)] ++
      member? "source" text (nonempty (some d.source)) ++
      [("batch_limit", optional int d.batchLimit), ("migration_limit", int d.migrationLimit)] ++
      member? "network_delay" int d.networkDelay ++
      member? "stonith_timeout" int d.stonithTimeout ++
      member? "transition_delay" int d.transitionDelay ++
      [("synapses", list SynapseDocument.toJson d.synapses)]

end ClusterTransition
