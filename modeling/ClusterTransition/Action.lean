import ClusterTransition.Table
import ClusterTransition.Vocabulary

/-! # Actions

An action is the unit of cluster work in a transition graph: an operation, which says what to run
and where, with a status.  Actions are made when a graph is loaded, and live in the graph's list of
actions; synapses refer to them by their place in that list, their slot.

The status moves from pending to executed and from there to confirmed or failed.  A failed action is
a confirmed one too: its result is known.
-/

namespace ClusterTransition

/-! ## Status -/

/-- Why an action failed. -/
inductive FailureKind where
  /-- It could not be dispatched. -/
  | initiation
  /-- It ran, and reported a result other than the expected one. -/
  | execution
  /-- Its timer expired before a result arrived. -/
  | timedOut
  deriving DecidableEq, Repr

/-- The stored name of a kind of failure. -/
def FailureKind.name : FailureKind → String
  | initiation => "initiation"
  | execution => "execution"
  | timedOut => "timed_out"

/-- The kind of failure with a stored name. -/
def FailureKind.ofName? : String → Option FailureKind
  | "initiation" => some .initiation
  | "execution" => some .execution
  | "timed_out" => some .timedOut
  | _ => none

/-- Where an action is in its life. -/
inductive ActionStatus where
  | pending
  | executed
  | confirmed
  | failed (reason : FailureKind)
  deriving DecidableEq, Repr

namespace ActionStatus

/-- Whether the action was handed to a dispatcher. -/
def isExecuted : ActionStatus → Bool
  | pending => false
  | _ => true

/-- Whether the result of the action is known. -/
def isConfirmed : ActionStatus → Bool
  | confirmed | failed _ => true
  | pending | executed => false

/-- Whether the action failed. -/
def isFailed : ActionStatus → Bool
  | failed _ => true
  | _ => false

end ActionStatus

/-! ## Operations -/

/-- The resource that an operation acts on, and the agent that manages it. -/
structure ResourceRef where
  id : String
  agentClass : Option String
  provider : Option String
  agentType : Option String
  deriving DecidableEq, Repr

/-- What an action does and where it runs. -/
structure Operation where
  /-- The name of the task. -/
  task : Option String := none
  /-- The name of the operation, which is unique in practice. -/
  key : Option String := none
  /-- The node that the operation runs on. -/
  target : Option String := none
  targetUuid : Option String := none
  /-- The cluster node that passes the operation on to a remote node. -/
  router : Option String := none
  resource : Option ResourceRef := none
  params : Table String String := .empty
  /-- The time allowed for the operation, in milliseconds. -/
  timeoutMs : Int := 0
  deriving DecidableEq, Inhabited

/-! ## Actions -/

/-- The number by which reports and documents refer to an action, unique in a graph. -/
abbrev ActionId := Int

/-- One piece of cluster work. -/
structure Action where
  id : ActionId
  kind : ActionKind
  op : Operation
  status : ActionStatus := .pending
  /-- A failure of this action does not hold up what depends on it. -/
  canFail : Bool := false
  /-- A status record of this action is in the store. -/
  sentUpdate : Bool := false
  /-- The action holds job slots in the ledger. -/
  counted : Bool := false
  deriving DecidableEq

/-- Whether a text stands for truth: one of `true`, `yes`, `on`, `y` and `1`, in any case of the
ASCII letters and between any blanks. -/
def isTrue (text : String) : Bool :=
  match String.ofList ((trimBlank text.toList).map Char.toLower) with
  | "true" | "yes" | "on" | "y" | "1" => true
  | _ => false

/-- A text that is there and not empty. -/
def nonempty (text : Option String) : Option String := text.filter (· ≠ "")

namespace Action

/-- Whether the action only marks a point of the ordering. -/
def isPseudo (a : Action) : Bool := a.kind = .pseudo

/-- Whether the action is an operation on a resource. -/
def isResourceOp (a : Action) : Bool := a.kind = .resource

/-- The task, unless it is empty. -/
def task (a : Action) : Option String := nonempty a.op.task

/-- The node that the action runs on, unless its name is empty. -/
def target (a : Action) : Option String := nonempty a.op.target

/-- The node that passes the action on, unless its name is empty. -/
def router (a : Action) : Option String := nonempty a.op.router

/-- The node that a request goes to: the router if there is one, else the target. -/
def route (a : Action) : Option String := a.router.or a.target

/-- Whether the action is the fencing of a node. -/
def isFencing (a : Action) : Bool := a.kind = .clusterEvent && a.task = some "stonith"

/-- Whether the action is one end of a migration. -/
def isMigration (a : Action) : Bool :=
  a.task = some "migrate_to" || a.task = some "migrate_from"

/-- A parameter that speaks about the operation itself. -/
def metaParam (a : Action) (name : String) : Option String := a.op.params.get? ("CRM_meta_" ++ name)

/-- Whether such a parameter is set to a true text. -/
def metaFlag (a : Action) (name : String) : Bool := (a.metaParam name).any isTrue

/-- Nobody waits for the result of the action. -/
def noWait (a : Action) : Bool := a.metaFlag "op_no_wait"

/-- A record of the pending operation is to be stored when it is sent. -/
def recordPending (a : Action) : Bool :=
  a.metaFlag "record_pending" && !(a.task = some "cancel" || a.task = some "delete")

/-- The exit code that means success: the stated one if it is a number, else zero. -/
def targetRc (a : Action) : Int :=
  ((a.metaParam "op_target_rc").bind fun text =>
    Numeral.parseInt32? (trimBlank text.toList)).getD 0

/-- The node that a migration leaves. -/
def migrateSource (a : Action) : Option String := nonempty (a.metaParam "migrate_source")

/-- The node that a migration goes to. -/
def migrateTarget (a : Action) : Option String := nonempty (a.metaParam "migrate_target")

/-- The way in which a node is to be fenced. -/
def stonithAction (a : Action) : Option String := nonempty (a.metaParam "stonith_action")

/-- A short name: the operation's key, else its task, else one made from the id. -/
def label (a : Action) : String :=
  match a.op.key, a.task with
  | some key, _ => key
  | none, some task => task
  | none, none => "action-" ++ Numeral.intText a.id

end Action

end ClusterTransition
