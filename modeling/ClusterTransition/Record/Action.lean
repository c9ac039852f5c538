import ClusterTransition.Engine.Cluster
import ClusterTransition.Json.Scalar
import ClusterTransition.Record.Document

/-! # Stored actions, requests and results

The JSON form of what is exchanged while a graph is executed: operations, actions with their status,
requests and results.

The status of an action is an object with the name of the state and, for a failure, the reason.  The
list of the two stands for the same, with null as the reason of a state that has none.
-/

namespace ClusterTransition

open Json

/-! ## Operations -/

/-- Reads an operation. -/
def Operation.ofJson? (v : Json) : Option Operation := do
  match ← Json.fields? ["task", "key", "target", "target_uuid", "router", "resource", "params",
      "timeout_ms"] v with
  | [task, key, target, targetUuid, router, resource, params, timeoutMs] =>
    return {
      task := ← reader.optional Json.string? task
      key := ← reader.optional Json.string? key
      target := ← reader.optional Json.string? target
      targetUuid := ← reader.optional Json.string? targetUuid
      router := ← reader.optional Json.string? router
      resource := ← reader.optional (ResourceRef.read? reader) resource
      params := ← defaulting .empty (reader.tableOf? Json.string?) params
      timeoutMs := ← defaulting 0 reader.int64? timeoutMs }
  | _ => none

/-- An operation as JSON. -/
def Operation.toJson (op : Operation) : Json :=
  Json.object <|
    member? "task" text op.task ++ member? "key" text op.key ++ member? "target" text op.target ++
      member? "target_uuid" text op.targetUuid ++ member? "router" text op.router ++
      member? "resource" ResourceRef.toJson op.resource ++ tableMember? "params" text op.params ++
      [("timeout_ms", int op.timeoutMs)]

/-! ## Status -/

namespace ActionStatus

/-- The stored name of a state. -/
def stateName : ActionStatus → String
  | pending => "pending"
  | executed => "executed"
  | confirmed => "confirmed"
  | failed _ => "failed"

/-- The reason of a failure in the object of a status.  Where the reason stands in front of the
state, an empty object may take the place of null inside it. -/
def reasonOfJson? (inFront : Bool) : Json → Option FailureKind
  | .obj [(name, .obj [])] => if inFront then name.bind FailureKind.ofName? else none
  | v => (Json.case? v).bind FailureKind.ofName?

/-- The status with a state and, where it is stated, a reason. -/
def ofParts? (inFront : Bool) (state : String) (reason : Option Json) : Option ActionStatus :=
  match state, reason with
  | "failed", none => none
  | "failed", some v => (reasonOfJson? inFront v).map failed
  | state, reason =>
    if (reason.map Json.isNull).getD true then
      match state with
      | "pending" => some pending
      | "executed" => some executed
      | "confirmed" => some confirmed
      | _ => none
    else none

/-- Reads a status. -/
def ofJson? : Json → Option ActionStatus
  | .obj members =>
    (members.mapM textMember?).bind fun members =>
      match members.filter fun m => m.1 = "state" || m.1 = "reason" with
      | [("state", state)] => (Json.case? state).bind (ofParts? false · none)
      | [("state", state), ("reason", reason)] =>
        (Json.case? state).bind (ofParts? false · (some reason))
      | [("reason", reason), ("state", state)] =>
        (Json.case? state).bind (ofParts? true · (some reason))
      | _ => none
  | .arr [state, reason] => (Json.case? state).bind (ofParts? false · (some reason))
  | _ => none

/-- A status as JSON. -/
def toJson (s : ActionStatus) : Json :=
  Json.object <| ("state", text s.stateName) ::
    match s with
    | failed reason => [("reason", text reason.name)]
    | _ => []

end ActionStatus

/-! ## Actions -/

/-- Reads an action. -/
def Action.ofJson? (v : Json) : Option Action := do
  match ← Json.fields? ["id", "type", "op", "status", "can_fail", "sent_update", "counted"] v with
  | [id, kind, op, status, canFail, sentUpdate, counted] =>
    return {
      id := ← required reader.int32? id
      kind := ← required (ActionKind.read? reader) kind
      op := ← required Operation.ofJson? op
      status := ← defaulting .pending ActionStatus.ofJson? status
      canFail := ← defaulting false Json.bool? canFail
      sentUpdate := ← defaulting false Json.bool? sentUpdate
      counted := ← defaulting false Json.bool? counted }
  | _ => none

/-- An action as JSON. -/
def Action.toJson (a : Action) : Json :=
  Json.object
    [("id", int a.id), ("type", text a.kind.name), ("op", a.op.toJson),
      ("status", a.status.toJson), ("can_fail", .bool a.canFail),
      ("sent_update", .bool a.sentUpdate), ("counted", .bool a.counted)]

/-! ## Requests and results -/

/-- Reads a request. -/
def ActionRequest.ofJson? (v : Json) : Option ActionRequest := do
  match ← Json.fields? ["action", "type", "task", "transition_key", "target", "op"] v with
  | [action, kind, task, transitionKey, target, op] =>
    return {
      action := ← required reader.int32? action
      kind := ← required (ActionKind.read? reader) kind
      task := ← required Json.string? task
      transitionKey := ← required Json.string? transitionKey
      target := ← required Json.string? target
      op := ← required Operation.ofJson? op }
  | _ => none

/-- A request as JSON. -/
def ActionRequest.toJson (q : ActionRequest) : Json :=
  Json.object
    [("action", int q.action), ("type", text q.kind.name), ("task", text q.task),
      ("transition_key", text q.transitionKey), ("target", text q.target), ("op", q.op.toJson)]

/-- Reads a result. -/
def ActionResult.ofJson? (v : Json) : Option ActionResult := do
  match ← Json.fields? ["transition_key", "status", "rc"] v with
  | [transitionKey, status, rc] =>
    return {
      transitionKey := ← required Json.string? transitionKey
      status := ← required (reader.caseOf? OpStatus.ofName?) status
      rc := ← required reader.int32? rc }
  | _ => none

/-- A result as JSON. -/
def ActionResult.toJson (x : ActionResult) : Json :=
  Json.object
    [("transition_key", text x.transitionKey), ("status", text x.status.name), ("rc", int x.rc)]

end ClusterTransition
