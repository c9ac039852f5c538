import ClusterTransition.Proofs.Ledger.Charges

/-! # The gate and the ledger look at the same peers

Which nodes an action counts on is written down twice: where the ledger charges them
(`Ledger.recordAction`), and where the gate asks whether they have room (`Ledger.mayFire`).  The two
are not alike.  The gate skips an end of a migration that is missing where the ledger records
nothing, it takes a routed migration for a migration where the ledger does not, and it does not ask
for a target.

Both go through one list all the same, `Action.peers`.  The ledger records one job on each node of
the list (`Ledger.recordAction_eq_recordAll`), and the gate asks for room on each
(`Ledger.mayFire_eq_all`).  A node that stands twice in the list, as the only node of a migration,
is charged twice and asked once.

What is recorded is added, so a charge can be taken back later whatever was recorded in between
(`LedgerStep.get_undone`).
-/

namespace ClusterTransition

namespace Action

/-- The nodes that an action counts on: the router alone if there is one, else the ends of a
migration that are known, else the target. -/
def peers (a : Action) : List String :=
  if a.router.isSome then a.router.toList
  else if a.isMigration then a.migrateSource.toList ++ a.migrateTarget.toList
  else a.target.toList

/-- The action counts as a migration.  On a router it does not. -/
def migrates (a : Action) : Bool := a.router.isNone && a.isMigration

end Action

namespace Ledger

variable {l : Ledger} {limit : String → Int} {g : Graph} {a : Action} {node : String}

/-! ## What the ledger charges -/

/-- Records a change for each node of a list. -/
def recordAll (l : Ledger) (nodes : List String) (delta : Int) (isMigration : Bool) : Ledger :=
  nodes.foldl (fun l node => l.record node delta isMigration) l

theorem recordAll_toList (l : Ledger) (node : Option String) (delta : Int) (isMigration : Bool) :
    l.recordAll node.toList delta isMigration = l.record? node delta isMigration := by
  cases node <;> rfl

theorem recordAll_append (l : Ledger) (nodes nodes' : List String) (delta : Int)
    (isMigration : Bool) :
    l.recordAll (nodes ++ nodes') delta isMigration =
      (l.recordAll nodes delta isMigration).recordAll nodes' delta isMigration :=
  List.foldl_append

/-- **The ledger records one change for each peer.** -/
theorem recordAction_eq_recordAll (hop : a.isResourceOp = true) (htarget : a.target.isSome = true)
    (l : Ledger) (delta : Int) :
    l.recordAction a delta = l.recordAll a.peers delta a.migrates := by
  have hcounts : (!a.isResourceOp || a.target.isNone) = false := by
    rw [hop, Option.isNone_eq_false_iff.mpr htarget]
    rfl
  cases hrouter : a.router with
  | some router =>
    simp [recordAction, hcounts, Action.peers, Action.migrates, hrouter, recordAll, record?]
  | none =>
    cases hmigration : a.isMigration <;>
      simp [recordAction, hcounts, Action.peers, Action.migrates, hrouter, hmigration,
        recordAll_append, recordAll_toList]

/-- Recording for a list of nodes changes each of them as often as it stands in the list, and the
entry of no other node. -/
theorem get?_recordAll (l : Ledger) (nodes : List String) (delta : Int) (isMigration : Bool)
    (node : String) :
    (l.recordAll nodes delta isMigration).peers.get? node =
      if node ∈ nodes then
        some { jobs := (l.get node).jobs + delta * nodes.count node
               migrateJobs := (l.get node).migrateJobs +
                 if isMigration then delta * nodes.count node else 0 }
      else l.peers.get? node := by
  induction nodes generalizing l with
  | nil => rfl
  | cons m nodes ih =>
    have hrest := ih (l.record m delta isMigration)
    rw [get_record] at hrest
    rw [show l.recordAll (m :: nodes) delta isMigration =
      (l.record m delta isMigration).recordAll nodes delta isMigration from rfl, hrest]
    by_cases hm : node = m
    · subst hm
      by_cases hmem : node ∈ nodes
      · cases isMigration <;> simp [hmem, Int.mul_add] <;> omega
      · cases isMigration <;>
          simp [hmem, record, List.count_eq_zero.mpr hmem, Table.get?_insert]
    · have hcount : (m :: nodes).count node = nodes.count node := by
        simp [Ne.symm hm]
      have hother : (l.record m delta isMigration).peers.get? node = l.peers.get? node := by
        simp [record, Table.get?_insert, hm]
      simp only [hm, if_false, List.mem_cons, false_or, hcount, hother]

theorem get_recordAll (l : Ledger) (nodes : List String) (delta : Int) (isMigration : Bool)
    (node : String) :
    (l.recordAll nodes delta isMigration).get node =
      { jobs := (l.get node).jobs + delta * nodes.count node
        migrateJobs := (l.get node).migrateJobs +
          if isMigration then delta * nodes.count node else 0 } := by
  rw [get, get?_recordAll]
  split
  · rfl
  · rename_i hmem
    rw [← get, List.count_eq_zero.mpr hmem]
    simp

/-- **The counts of the peers rise, and no others.** -/
theorem charged_iff (hop : a.isResourceOp = true) (htarget : a.target.isSome = true)
    (node : String) : (l.recordAction a 1).get node ≠ l.get node ↔ node ∈ a.peers := by
  rw [recordAction_eq_recordAll hop htarget, get_recordAll]
  constructor
  · intro hne
    by_contra hmem
    rw [List.count_eq_zero.mpr hmem] at hne
    simp at hne
  · intro hmem heq
    have hcount := List.count_pos_iff.mpr hmem
    have hjobs := congrArg PeerJobs.jobs heq
    dsimp only at hjobs
    omega

/-! ## What the gate asks -/

/-- **The gate asks each peer for room.** -/
theorem mayFire_eq_all (hop : a.isResourceOp = true) :
    l.mayFire limit g a =
      a.peers.all fun node => l.mayFireOn limit g.migrationLimit a.isMigration (some node) := by
  have hoption (isMigration : Bool) (node : Option String) :
      node.toList.all (fun node => l.mayFireOn limit g.migrationLimit isMigration (some node)) =
        l.mayFireOn limit g.migrationLimit isMigration node := by
    cases node with
    | none => rfl
    | some node => simp
  cases hrouter : a.router with
  | some router => simp [mayFire, hop, Action.peers, hrouter]
  | none =>
    cases hmigration : a.isMigration <;>
      simp [mayFire, hop, Action.peers, hrouter, hmigration, hoption]

theorem mayFire_iff (hop : a.isResourceOp = true) :
    l.mayFire limit g a = true ↔ ∀ node ∈ a.peers, (l.get node).jobs < limit node ∧
      (0 < g.migrationLimit → a.isMigration = true →
        (l.get node).migrateJobs < g.migrationLimit) := by
  simp only [mayFire_eq_all hop, List.all_eq_true, mayFireOn_iff]

/-- What runs on the node alone can change the answer of the gate. -/
def Matters (limit : String → Int) (g : Graph) (a : Action) (node : String) : Prop :=
  ∃ l l' : Ledger, (∀ m ≠ node, l.get m = l'.get m) ∧
    l.mayFire limit g a ≠ l'.mayFire limit g a

/-- The counts of the nodes of a list are as given, and no other nodes have counts. -/
def filled (counts : String → PeerJobs) : List String → Ledger
  | [] => {}
  | node :: nodes => ⟨(filled counts nodes).peers.insert node (counts node)⟩

theorem get_insert (l : Ledger) (m : String) (counts : PeerJobs) (node : String) :
    (⟨l.peers.insert m counts⟩ : Ledger).get node = if node = m then counts else l.get node := by
  simp only [get, Table.get?_insert]
  split <;> rfl

theorem get_filled {counts : String → PeerJobs} {nodes : List String} (h : node ∈ nodes) :
    (filled counts nodes).get node = counts node := by
  induction nodes with
  | nil => cases h
  | cons m nodes ih =>
    rw [filled, get_insert]
    split
    · rename_i heq
      rw [heq]
    · rename_i hne
      exact ih ((List.mem_cons.mp h).resolve_left hne)

/-- A peer can decide on its own: if it is full and the others have room, the gate refuses, and lets
the action pass if it has room too. -/
theorem matters_of_mem (hop : a.isResourceOp = true) (hmem : node ∈ a.peers) :
    Matters limit g a node := by
  let room := filled (fun m => ⟨limit m - 1, g.migrationLimit - 1⟩) a.peers
  let full : Ledger := ⟨room.peers.insert node ⟨limit node, 0⟩⟩
  have hpasses : room.mayFire limit g a = true := by
    rw [mayFire_iff hop]
    intro m hm
    rw [get_filled hm]
    refine ⟨Int.sub_one_lt_of_le (Int.le_refl _), fun _ _ => ?_⟩
    exact Int.sub_one_lt_of_le (Int.le_refl _)
  have hstops : full.mayFire limit g a ≠ true := by
    rw [ne_eq, mayFire_iff hop]
    intro h
    have hroom := (h node hmem).1
    rw [get_insert, if_pos rfl] at hroom
    exact Int.lt_irrefl _ hroom
  refine ⟨room, full, fun m hm => ?_, ?_⟩
  · rw [get_insert, if_neg hm]
  · rw [hpasses]
    exact hstops.symm

/-- **The answer of the gate depends on the peers and on nothing else.** -/
theorem matters_iff (hop : a.isResourceOp = true) : Matters limit g a node ↔ node ∈ a.peers := by
  refine ⟨?_, matters_of_mem hop⟩
  rintro ⟨l, l', hsame, hanswer⟩
  by_contra hmem
  refine hanswer (Bool.eq_iff_iff.mpr ?_)
  rw [mayFire_iff hop, mayFire_iff hop]
  refine forall₂_congr fun m hm => ?_
  rw [hsame m (by rintro rfl; exact hmem hm)]

end Ledger

/-! ## Taking a charge back -/

/-- A change that is recorded in a ledger. -/
inductive LedgerStep where
  | node (name : String) (delta : Int) (isMigration : Bool)
  | action (a : Action) (delta : Int)

namespace LedgerStep

variable {a : Action} {delta : Int}

/-- What a change does. -/
def make : LedgerStep → Ledger → Ledger
  | node name delta isMigration, l => l.record name delta isMigration
  | action a delta, l => l.recordAction a delta

/-- What some changes do, one after the other. -/
def makeAll (steps : List LedgerStep) (l : Ledger) : Ledger :=
  steps.foldl (fun l step => step.make l) l

/-- A change may be made before or after an action is recorded. -/
theorem make_recordAction (step : LedgerStep) (l : Ledger) :
    step.make (l.recordAction a delta) = (step.make l).recordAction a delta := by
  cases step with
  | node name => exact l.recordAction_record?_comm a delta _ (some name) _
  | action b => exact l.recordAction_comm a b delta _

/-- And so may any number of changes. -/
theorem makeAll_recordAction (steps : List LedgerStep) (l : Ledger) :
    makeAll steps (l.recordAction a delta) = (makeAll steps l).recordAction a delta := by
  induction steps generalizing l with
  | nil => rfl
  | cons step steps ih => exact (congrArg (makeAll steps) (make_recordAction step l)).trans (ih _)

/-- **A charge that is taken back leaves nothing**, whatever was recorded in between. -/
theorem get_undone (steps : List LedgerStep) (l : Ledger) (node : String) :
    ((makeAll steps (l.recordAction a 1)).recordAction a (-1)).get node =
      (makeAll steps l).get node := by
  rw [makeAll_recordAction, Ledger.get_recordAction, Ledger.get_recordAction]
  have hjobs (n c : Int) : n + 1 * c + -1 * c = n := by omega
  simp only [hjobs]

end LedgerStep

/-! ## The gate and the ledger -/

namespace Ledger

variable {l : Ledger} {limit : String → Int} {g : Graph} {a : Action}

/-- The gate and the ledger agree about an action. -/
structure PeersAgree (l : Ledger) (limit : String → Int) (g : Graph) (a : Action) : Prop where
  /-- The ledger charges the peers and no other node. -/
  charged : ∀ node, (l.recordAction a 1).get node ≠ l.get node ↔ node ∈ a.peers
  /-- The gate looks at the peers and at no other node. -/
  tested : ∀ node, Matters limit g a node ↔ node ∈ a.peers
  /-- A peer is charged one job for each time that it stands in the list. -/
  charge : ∀ node ∈ a.peers, (l.recordAction a 1).peers.get? node =
    some { jobs := (l.get node).jobs + a.peers.count node
           migrateJobs := (l.get node).migrateJobs +
             if a.migrates then (a.peers.count node : Int) else 0 }
  others : ∀ node ∉ a.peers, (l.recordAction a 1).peers.get? node = l.peers.get? node
  gate : l.mayFire limit g a = true ↔ ∀ node ∈ a.peers, (l.get node).jobs < limit node ∧
    (0 < g.migrationLimit → a.isMigration = true → (l.get node).migrateJobs < g.migrationLimit)
  /-- What the gate lets pass finds room. -/
  room : l.mayFire limit g a = true → ∀ node,
    (l.recordAction a 1).get node ≠ l.get node → (l.get node).jobs < limit node ∧
      (((l.recordAction a 1).get node).migrateJobs ≠ (l.get node).migrateJobs →
        0 < g.migrationLimit → (l.get node).migrateJobs < g.migrationLimit)
  undone : ∀ (steps : List LedgerStep) (node : String),
    ((LedgerStep.makeAll steps (l.recordAction a 1)).recordAction a (-1)).get node =
      (LedgerStep.makeAll steps l).get node

/-- **The gate and the ledger look at the same peers** of a resource operation with a target, and
ask and record nothing for anything but a resource operation. -/
theorem gate_agrees_with_ledger (l : Ledger) (limit : String → Int) (g : Graph) (a : Action) :
    (a.isResourceOp = true → a.target.isSome = true → l.PeersAgree limit g a) ∧
      (a.isResourceOp = false →
        l.mayFire limit g a = true ∧ ∀ delta, l.recordAction a delta = l) := by
  refine ⟨fun hop htarget => ?_, fun hop => ?_⟩
  · have hcharged := charged_iff (l := l) hop htarget
    have hgate : l.mayFire limit g a = true ↔ _ := mayFire_iff hop
    refine ⟨hcharged, fun _ => matters_iff hop, fun node hmem => ?_, fun node hmem => ?_, hgate, ?_,
      fun steps node => LedgerStep.get_undone steps l node⟩
    · rw [recordAction_eq_recordAll hop htarget, get?_recordAll, if_pos hmem]
      simp
    · rw [recordAction_eq_recordAll hop htarget, get?_recordAll, if_neg hmem]
    · intro hmay node hnode
      obtain ⟨hjobs, hmigrate⟩ := hgate.mp hmay node ((hcharged node).mp hnode)
      refine ⟨hjobs, fun hne hlimit => hmigrate hlimit ?_⟩
      rw [recordAction_eq_recordAll hop htarget, get_recordAll] at hne
      by_contra hmigration
      simp [Action.migrates, hmigration] at hne
  · exact ⟨by simp [mayFire, hop], fun delta => by simp [recordAction, hop]⟩

end Ledger

/-- A migration of which both ends are one node. -/
def Action.roundTrip : Action where
  id := 1
  kind := .resource
  op :=
    { task := some "migrate_to"
      target := some "node1"
      params := (Table.empty.insert "CRM_meta_migrate_source" "node1").insert
        "CRM_meta_migrate_target" "node1" }

/-- The node has room for one job, and the gate lets the migration pass, which counts twice. -/
theorem roundTrip_charged :
    ({} : Ledger).mayFire (fun _ => 1) { id := 1, migrationLimit := 1 } .roundTrip = true ∧
      (({} : Ledger).recordAction .roundTrip 1).peers.get? "node1" =
        some { jobs := 2, migrateJobs := 2 } ∧
      (({} : Ledger).recordAction .roundTrip 1).peers.get? "node2" = none := by
  have hpeers : Action.roundTrip.peers = ["node1", "node1"] := by decide +kernel
  have hmigrates : Action.roundTrip.migrates = true := by decide +kernel
  have hagree := (Ledger.gate_agrees_with_ledger {} (fun _ => 1) { id := 1, migrationLimit := 1 }
    .roundTrip).1 (by decide) (by decide)
  refine ⟨hagree.gate.mpr fun node _ => by simp, ?_, ?_⟩
  · rw [hagree.charge "node1" (by simp [hpeers]), hpeers, hmigrates]
    simp
  · rw [hagree.others "node2" (by simp [hpeers])]
    rfl

end ClusterTransition
