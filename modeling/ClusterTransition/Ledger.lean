import ClusterTransition.Graph.Basic

/-! # The job ledger

The ledger counts how many resource operations run on each node, and how many of them are
migrations, so that no node gets more than its limit.  An action with a router is charged to the
router, a migration to both of its ends, and any other action to its target.

`Ledger.recordAction` charges and releases an action, and `Ledger.mayFire` asks whether one more
charge fits.
-/

namespace ClusterTransition

/-- The jobs that run on one node. -/
structure PeerJobs where
  jobs : Int := 0
  migrateJobs : Int := 0
  deriving DecidableEq, Repr, Inhabited

/-- The jobs that run on each node during a transition. -/
structure Ledger where
  peers : Table String PeerJobs := .empty
  deriving DecidableEq, Inhabited

namespace Ledger

/-- The counts of a node; zero for a node that was never charged. -/
def get (l : Ledger) (node : String) : PeerJobs := (l.peers.get? node).getD {}

/-- Changes the job count of a node by `delta`, and its count of migrations too if asked to. -/
def record (l : Ledger) (node : String) (delta : Int) (isMigration : Bool) : Ledger :=
  let peer := l.get node
  ⟨l.peers.insert node
    { jobs := peer.jobs + delta
      migrateJobs := if isMigration then peer.migrateJobs + delta else peer.migrateJobs }⟩

/-- Records a change for a node that may be missing. -/
def record? (l : Ledger) (node : Option String) (delta : Int) (isMigration : Bool) : Ledger :=
  match node with
  | none => l
  | some node => l.record node delta isMigration

/-- Charges an action to the nodes it runs on, or releases it, according to the sign of `delta`.
Only resource operations with a target are counted. -/
def recordAction (l : Ledger) (a : Action) (delta : Int) : Ledger :=
  if !a.isResourceOp || a.target.isNone then l
  else if a.router.isSome then l.record? a.router delta false
  else if a.isMigration then
    (l.record? a.migrateSource delta true).record? a.migrateTarget delta true
  else l.record? a.target delta false

/-- Whether one more job fits on a node.  `limit` gives the job limit of each node, and
`migrationLimit` binds migrations if it is positive. -/
def mayFireOn (l : Ledger) (limit : String → Int) (migrationLimit : Int) (isMigration : Bool) :
    Option String → Bool
  | none => true
  | some node =>
    let peer := l.get node
    !(limit node ≤ peer.jobs) &&
      !(0 < migrationLimit && isMigration && migrationLimit ≤ peer.migrateJobs)

/-- Whether an action fits within the limits of every node it would be charged to. -/
def mayFire (l : Ledger) (limit : String → Int) (g : Graph) (a : Action) : Bool :=
  let fits := l.mayFireOn limit g.migrationLimit a.isMigration
  if !a.isResourceOp then true
  else if a.router.isSome then fits a.router
  else if a.isMigration then fits a.migrateSource && fits a.migrateTarget
  else fits a.target

/-- Sets all counts to zero. -/
def reset (l : Ledger) : Ledger := ⟨l.peers.mapValues fun _ => {}⟩

end Ledger
end ClusterTransition
