import ClusterTransition.Proofs.Record.Fields
import ClusterTransition.Record.Action
import ClusterTransition.Record.Config
import ClusterTransition.Record.Report

/-! # Reading records that were written

Each record is written as an object of its fields and read from such an object, so each is shown to
be read back by saying what was written for its fields (`Restores.of_fields`).  Where the names and
the values are listed in one order the object is the one that the record writes; what remains of
each record are the fields that hold other records, lists or tables, or that have a value of their
own for the case that they are missing.

A field that holds a number has a range, which is the range of the number in a record
(`GraphDocument.InRange` and the like): a number beyond it is not read at all.
-/

namespace ClusterTransition

open Json

/-! ## Names -/

@[simp] theorem ActionKind.ofName?_name (k : ActionKind) : ofName? k.name = some k := by
  cases k <;> rfl

@[simp] theorem FailureKind.ofName?_name (k : FailureKind) : ofName? k.name = some k := by
  cases k <;> rfl

@[simp] theorem OpStatus.ofName?_name (s : OpStatus) : ofName? s.name = some s := by
  cases s <;> rfl

@[simp] theorem SynapseStatus.ofName?_name (s : SynapseStatus) : ofName? s.name = some s := by
  cases s <;> rfl

@[simp] theorem WarnLevel.ofName?_name (l : WarnLevel) : ofName? l.name = some l := by
  cases l <;> rfl

/-! ## Operations -/

theorem ResourceRef.restores (x : ResourceRef) : Restores toJson (read? reader) x := by
  refine .of_fields ["id", "class", "provider", "type"]
    [some (text x.id), x.agentClass.map text, x.provider.map text, x.agentType.map text]
    (by simp [toJson, present]) (by decide) rfl (by simp) fun hfields => ?_
  simp [read?, hfields]

/-- The numbers of an operation are in their range. -/
def Operation.InRange (op : Operation) : Prop := Numeral.isInt64 op.timeoutMs = true

theorem Operation.restores {op : Operation} (h : op.InRange) : Restores toJson ofJson? op := by
  refine .of_fields ["task", "key", "target", "target_uuid", "router", "resource", "params",
    "timeout_ms"]
    [op.task.map text, op.key.map text, op.target.map text, op.targetUuid.map text,
      op.router.map text, op.resource.map ResourceRef.toJson, tableValue text op.params,
      some (int op.timeoutMs)]
    (by simp [toJson, present]) (by decide) rfl ?_ fun hfields => ?_
  · simp [wholeField_tableValue, fun x => (ResourceRef.restores x).whole]
  · have hresource : reader.optional (ResourceRef.read? reader)
        (op.resource.map ResourceRef.toJson) = some op.resource :=
      optional_map fun x _ => ⟨rfl, x.restores.back⟩
    have hparams : defaulting .empty (reader.tableOf? string?) (tableValue text op.params) =
        some op.params := defaulting_tableValue fun _ _ => rfl
    simp [ofJson?, hfields, hresource, hparams, int64?_int h]

/-! ## Actions -/

theorem ActionStatus.restores (s : ActionStatus) : Restores toJson ofJson? s := by
  refine ⟨whole_object ?_, ?_⟩
  · cases s <;> simp
  · cases s with
    | failed reason => cases reason <;> rfl
    | _ => rfl

/-- The numbers of an action are in their ranges. -/
structure Action.InRange (a : Action) : Prop where
  id : Numeral.isInt32 a.id = true
  op : a.op.InRange

theorem Action.restores {a : Action} (h : a.InRange) : Restores toJson ofJson? a := by
  have hop := Operation.restores h.op
  have hstatus := a.status.restores
  refine .of_fields ["id", "type", "op", "status", "can_fail", "sent_update", "counted"]
    [some (int a.id), some (text a.kind.name), some a.op.toJson, some a.status.toJson,
      some (.bool a.canFail), some (.bool a.sentUpdate), some (.bool a.counted)]
    (by simp [toJson, present]) (by decide) rfl ?_ fun hfields => ?_
  · simp [hop.whole, hstatus.whole]
  · simp [ofJson?, hfields, int32?_int h.id, ActionKind.read?, hop.back, hstatus.back]

/-- The numbers of a request are in their ranges. -/
structure ActionRequest.InRange (q : ActionRequest) : Prop where
  action : Numeral.isInt32 q.action = true
  op : q.op.InRange

theorem ActionRequest.restores {q : ActionRequest} (h : q.InRange) :
    Restores toJson ofJson? q := by
  have hop := Operation.restores h.op
  refine .of_fields ["action", "type", "task", "transition_key", "target", "op"]
    [some (int q.action), some (text q.kind.name), some (text q.task),
      some (text q.transitionKey), some (text q.target), some q.op.toJson]
    (by simp [toJson, present]) (by decide) rfl ?_ fun hfields => ?_
  · simp [hop.whole]
  · simp [ofJson?, hfields, int32?_int h.action, ActionKind.read?, hop.back]

/-- The number of a result is in its range. -/
def ActionResult.InRange (r : ActionResult) : Prop := Numeral.isInt32 r.rc = true

theorem ActionResult.restores {r : ActionResult} (h : r.InRange) : Restores toJson ofJson? r := by
  refine .of_fields ["transition_key", "status", "rc"]
    [some (text r.transitionKey), some (text r.status.name), some (int r.rc)]
    (by simp [toJson, present]) (by decide) rfl (by simp) fun hfields => ?_
  simp [ofJson?, hfields, int32?_int h]

/-! ## Synapses and counters -/

theorem Input.restores {i : Input} (h : Numeral.isNat64 i.slot = true) :
    Restores toJson ofJson? i := by
  refine .of_fields ["slot", "satisfied"]
    [some (nat i.slot), some (.bool i.satisfied)]
    (by simp [toJson, present]) (by decide) rfl (by simp) fun hfields => ?_
  simp [ofJson?, hfields, nat64?_nat h]

/-- The numbers of a synapse are in their ranges. -/
structure Synapse.InRange (s : Synapse) : Prop where
  id : Numeral.isInt32 s.id = true
  priority : Numeral.isInt32 s.priority = true
  actions : ∀ k ∈ s.actions, Numeral.isNat64 k = true
  inputs : ∀ i ∈ s.inputs, Numeral.isNat64 i.slot = true

theorem Synapse.restores {s : Synapse} (h : s.InRange) : Restores toJson ofJson? s := by
  have hactions : reader.listOf? reader.nat64? (list nat s.actions) = some s.actions :=
    listOf?_list fun k hk => nat64?_nat (h.actions k hk)
  have hinputs : reader.listOf? Input.ofJson? (list Input.toJson s.inputs) = some s.inputs :=
    listOf?_list fun i hi => (Input.restores (h.inputs i hi)).back
  refine .of_fields ["id", "priority", "status", "actions", "inputs"]
    [some (int s.id), some (int s.priority), some (text s.status.name), some (list nat s.actions),
      some (list Input.toJson s.inputs)]
    (by simp [toJson, present]) (by decide) rfl ?_ fun hfields => ?_
  · have hwhole : (list Input.toJson s.inputs).Whole :=
      whole_list fun i hi => (Input.restores (h.inputs i hi)).whole
    simp [whole_list, hwhole]
  · simp [ofJson?, hfields, int32?_int h.id, int32?_int h.priority, hactions, hinputs]

/-- The counters of a pass are in their range. -/
structure PassCounters.InRange (c : PassCounters) : Prop where
  fired : Numeral.isNat64 c.fired = true
  pending : Numeral.isNat64 c.pending = true
  skipped : Numeral.isNat64 c.skipped = true
  completed : Numeral.isNat64 c.completed = true
  incomplete : Numeral.isNat64 c.incomplete = true

theorem PassCounters.restores {c : PassCounters} (h : c.InRange) : Restores toJson ofJson? c := by
  refine .of_fields ["fired", "pending", "skipped", "completed", "incomplete"]
    [some (nat c.fired), some (nat c.pending), some (nat c.skipped), some (nat c.completed),
      some (nat c.incomplete)]
    (by simp [toJson, present]) (by decide) rfl (by simp) fun hfields => ?_
  simp [ofJson?, hfields, nat64?_nat h.fired, nat64?_nat h.pending, nat64?_nat h.skipped,
    nat64?_nat h.completed, nat64?_nat h.incomplete]

/-! ## Graph documents -/

/-- The numbers of a stored action are in their ranges. -/
structure ActionDocument.InRange (a : ActionDocument) : Prop where
  id : Numeral.isInt32 a.id = true
  timeout : ∀ n, a.timeout = some n → Numeral.isInt64 n = true

theorem ActionDocument.restores {a : ActionDocument} (h : a.InRange) :
    Restores toJson (read? reader) a := by
  refine .of_fields ["id", "type", "task", "key", "target", "target_uuid", "router", "resource",
    "params", "timeout", "can_fail"]
    [some (int a.id), some (text a.kind.name), a.task.map text, a.key.map text, a.target.map text,
      a.targetUuid.map text, a.router.map text, a.resource.map ResourceRef.toJson,
      tableValue text a.params, a.timeout.map int, some (.bool a.canFail)]
    (by simp [toJson, present]) (by decide) rfl ?_ fun hfields => ?_
  · simp [wholeField_tableValue, fun x => (ResourceRef.restores x).whole]
  · have hresource : reader.optional (ResourceRef.read? reader)
        (a.resource.map ResourceRef.toJson) = some a.resource :=
      optional_map fun x _ => ⟨rfl, x.restores.back⟩
    have hparams : defaulting .empty (reader.tableOf? string?) (tableValue text a.params) =
        some a.params := defaulting_tableValue fun _ _ => rfl
    have htimeout : reader.optional reader.int64? (a.timeout.map int) = some a.timeout :=
      optional_map fun n hn => ⟨rfl, int64?_int (h.timeout n hn)⟩
    simp [read?, hfields, int32?_int h.id, ActionKind.read?, hresource, hparams, htimeout]

/-- The numbers of a stored synapse are in their ranges. -/
structure SynapseDocument.InRange (s : SynapseDocument) : Prop where
  id : Numeral.isInt32 s.id = true
  priority : Numeral.isInt32 s.priority = true
  actions : ∀ a ∈ s.actions, a.InRange
  inputs : ∀ id ∈ s.inputs, Numeral.isInt32 id = true

theorem SynapseDocument.restores {s : SynapseDocument} (h : s.InRange) :
    Restores toJson (read? reader) s := by
  have hactions : reader.listOf? (ActionDocument.read? reader)
      (list ActionDocument.toJson s.actions) = some s.actions :=
    listOf?_list fun a ha => (ActionDocument.restores (h.actions a ha)).back
  have hinputs : reader.listOf? reader.int32? (list int s.inputs) = some s.inputs :=
    listOf?_list fun id hid => int32?_int (h.inputs id hid)
  refine .of_fields ["id", "priority", "actions", "inputs"]
    [some (int s.id), some (int s.priority), some (list ActionDocument.toJson s.actions),
      some (list int s.inputs)]
    (by simp [toJson, present]) (by decide) rfl ?_ fun hfields => ?_
  · have hwhole : (list ActionDocument.toJson s.actions).Whole :=
      whole_list fun a ha => (ActionDocument.restores (h.actions a ha)).whole
    simp [whole_list, hwhole]
  · simp [read?, hfields, int32?_int h.id, int32?_int h.priority, hactions, hinputs]

/-- The numbers of a stored graph are in their ranges. -/
structure GraphDocument.InRange (d : GraphDocument) : Prop where
  transitionId : Numeral.isInt32 d.transitionId = true
  batchLimit : ∀ n, d.batchLimit = some n → Numeral.isInt32 n = true
  migrationLimit : Numeral.isInt32 d.migrationLimit = true
  networkDelay : ∀ n, d.networkDelay = some n → Numeral.isInt64 n = true
  stonithTimeout : ∀ n, d.stonithTimeout = some n → Numeral.isInt64 n = true
  transitionDelay : ∀ n, d.transitionDelay = some n → Numeral.isInt64 n = true
  synapses : ∀ s ∈ d.synapses, s.InRange

theorem GraphDocument.restores {d : GraphDocument} (h : d.InRange) :
    Restores toJson (read? reader) d := by
  have hdelay {o : Option Int} (ho : ∀ n, o = some n → Numeral.isInt64 n = true) :
      reader.optional reader.int64? (o.map int) = some o :=
    optional_map fun n hn => ⟨rfl, int64?_int (ho n hn)⟩
  have hsource : defaulting "" string? ((nonempty (some d.source)).map text) =
      some d.source := by
    -- an empty source is left out, and it is what stands in for a missing one
    by_cases hempty : d.source = ""
    · rw [hempty]
      rfl
    · have hfull : nonempty (some d.source) = some d.source :=
        filter_eq_some rfl (by simpa using hempty)
      rw [hfull]
      rfl
  have hbatch : reader.optional reader.int32? (some (optional int d.batchLimit)) =
      some d.batchLimit :=
    optional_optional fun n hn => ⟨rfl, int32?_int (h.batchLimit n hn)⟩
  have hsynapses : reader.listOf? (SynapseDocument.read? reader)
      (list SynapseDocument.toJson d.synapses) = some d.synapses :=
    listOf?_list fun s hs => (SynapseDocument.restores (h.synapses s hs)).back
  refine .of_fields ["transition_id", "source", "batch_limit", "migration_limit", "network_delay",
    "stonith_timeout", "transition_delay", "synapses"]
    [some (int d.transitionId), (nonempty (some d.source)).map text,
      some (optional int d.batchLimit), some (int d.migrationLimit), d.networkDelay.map int,
      d.stonithTimeout.map int, d.transitionDelay.map int,
      some (list SynapseDocument.toJson d.synapses)]
    (by simp [toJson, present]) (by decide) rfl ?_ fun hfields => ?_
  · have hwhole : (list SynapseDocument.toJson d.synapses).Whole :=
      whole_list fun s hs => (SynapseDocument.restores (h.synapses s hs)).whole
    have hlimit : (optional int d.batchLimit).Whole := by
      cases d.batchLimit with
      | none => exact .null
      | some n => exact whole_int n
    simp [hwhole, hlimit]
  · simp [read?, hfields, int32?_int h.transitionId, hsource, hbatch,
      int32?_int h.migrationLimit, hdelay h.networkDelay, hdelay h.stonithTimeout,
      hdelay h.transitionDelay, hsynapses]

/-! ## Configurations -/

/-- The job limits are in their range. -/
structure ThrottleConfig.InRange (c : ThrottleConfig) : Prop where
  defaultJobLimit : Numeral.isInt32 c.defaultJobLimit = true
  nodeLimits : ∀ e ∈ c.nodeLimits.entries, Numeral.isInt32 e.2 = true

theorem ThrottleConfig.restores {c : ThrottleConfig} (h : c.InRange) :
    Restores toJson (read? reader) c := by
  have hlimits : defaulting .empty (reader.tableOf? reader.int32?) (tableValue int c.nodeLimits) =
      some c.nodeLimits := defaulting_tableValue fun e he => int32?_int (h.nodeLimits e he)
  refine .of_fields ["default_job_limit", "node_limits"]
    [some (int c.defaultJobLimit), tableValue int c.nodeLimits]
    (by simp [toJson, present]) (by decide) rfl (by simp [wholeField_tableValue]) fun hfields => ?_
  simp [read?, hfields, int32?_int h.defaultJobLimit, hlimits]

/-- The defaults for graphs are in their ranges. -/
structure TransitionConfig.InRange (c : TransitionConfig) : Prop where
  transitionDelayMs : Numeral.isInt64 c.transitionDelayMs = true
  networkDelayMs : Numeral.isInt64 c.networkDelayMs = true
  stonithTimeoutMs : Numeral.isInt64 c.stonithTimeoutMs = true
  batchLimit : Numeral.isInt32 c.batchLimit = true

theorem TransitionConfig.restores {c : TransitionConfig} (h : c.InRange) :
    Restores toJson (read? reader) c := by
  refine .of_fields ["transition_delay_ms", "network_delay_ms", "stonith_timeout_ms",
    "batch_limit"]
    [some (int c.transitionDelayMs), some (int c.networkDelayMs), some (int c.stonithTimeoutMs),
      some (int c.batchLimit)]
    (by simp [toJson, present]) (by decide) rfl (by simp) fun hfields => ?_
  simp [read?, hfields, int64?_int h.transitionDelayMs, int64?_int h.networkDelayMs,
    int64?_int h.stonithTimeoutMs, int32?_int h.batchLimit]

theorem FencingConfig.restores {c : FencingConfig} (h : Numeral.isNat32 c.maxAttempts = true) :
    Restores toJson (read? reader) c := by
  refine .of_fields ["max_attempts"]
    [some (nat c.maxAttempts)]
    (by simp [toJson, present]) (by decide) rfl (by simp) fun hfields => ?_
  simp [read?, hfields, nat32?_nat h]

theorem DigestConfig.restores (c : DigestConfig) : Restores toJson (read? reader) c := by
  refine .of_fields ["feature_set"]
    [c.featureSet.map text]
    (by simp [toJson, present]) (by decide) rfl (by simp) fun hfields => ?_
  simp [read?, hfields]

/-- The numbers of a configuration are in their ranges. -/
structure EngineConfig.InRange (c : EngineConfig) : Prop where
  version : Numeral.isNat32 c.version = true
  throttle : c.throttle.InRange
  transition : c.transition.InRange
  maxAttempts : Numeral.isNat32 c.fencing.maxAttempts = true

theorem EngineConfig.restores {c : EngineConfig} (h : c.InRange) :
    Restores toJson (read? reader) c := by
  have hthrottle := ThrottleConfig.restores h.throttle
  have htransition := TransitionConfig.restores h.transition
  have hfencing := FencingConfig.restores h.maxAttempts
  have hdigest := c.digest.restores
  refine .of_fields ["version", "node", "throttle", "transition", "fencing", "digest"]
    [some (nat c.version), some (text c.node), some c.throttle.toJson, some c.transition.toJson,
      some c.fencing.toJson, some c.digest.toJson]
    (by simp [toJson, present]) (by decide) rfl ?_ fun hfields => ?_
  · simp [hthrottle.whole, htransition.whole, hfencing.whole, hdigest.whole]
  · simp [read?, hfields, nat32?_nat h.version, hthrottle.back, htransition.back, hfencing.back,
      hdigest.back]

theorem ConfigWarning.restores (x : ConfigWarning) : Restores toJson (read? reader) x := by
  refine .of_fields ["level", "message"]
    [some (text x.level.name), some (text x.message)]
    (by simp [toJson, present]) (by decide) rfl (by simp) fun hfields => ?_
  simp [read?, hfields]

end ClusterTransition
