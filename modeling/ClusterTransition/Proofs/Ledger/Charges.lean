import ClusterTransition.Ledger
import ClusterTransition.Proofs.Graph.Plan
import Mathlib.Algebra.Ring.Int.Defs
import Mathlib.Data.List.Forall2

/-! # What actions charge to the ledger

An action charges each node by a fixed amount while it runs, `Action.charge`, which its plan
decides.  Recording an action adds that amount to the counts of every node, and releasing it takes
the amount back (`Ledger.get_recordAction`).  The counts that a graph should have are the sums of
the charges over its counted actions, `Graph.charged`.
-/

namespace ClusterTransition

/-- The amount by which an action raises the counts of a node when it is recorded. -/
def Action.charge (a : Action) (node : String) : PeerJobs :=
  (({} : Ledger).recordAction a 1).get node

/-- The sums of the charges of the counted actions. -/
def Graph.charged (g : Graph) (node : String) : PeerJobs where
  jobs := ((g.actions.filter (·.counted)).map fun a => (a.charge node).jobs).sum
  migrateJobs := ((g.actions.filter (·.counted)).map fun a => (a.charge node).migrateJobs).sum

/-! ## The ledger -/

namespace Ledger

@[simp] theorem get_empty (node : String) : ({} : Ledger).get node = {} := rfl

@[simp] theorem get_reset (l : Ledger) (node : String) : l.reset.get node = {} := by
  simp only [get, reset, Table.get?_mapValues]
  cases l.peers.get? node <;> rfl

theorem get_record (l : Ledger) (m : String) (delta : Int) (isMigration : Bool) (node : String) :
    (l.record m delta isMigration).get node =
      if node = m then
        { jobs := (l.get node).jobs + delta
          migrateJobs := (l.get node).migrateJobs + if isMigration then delta else 0 }
      else l.get node := by
  simp only [get, record, Table.get?_insert]
  by_cases h : node = m
  · subst h
    cases isMigration <;> simp
  · simp [h]

theorem get_record? (l : Ledger) (m : Option String) (delta : Int) (isMigration : Bool)
    (node : String) :
    (l.record? m delta isMigration).get node =
      if m = some node then
        { jobs := (l.get node).jobs + delta
          migrateJobs := (l.get node).migrateJobs + if isMigration then delta else 0 }
      else l.get node := by
  cases m with
  | none => simp [record?]
  | some m => simp only [record?, get_record, Option.some.injEq, eq_comm]

/-- **Recording an action changes every count by a multiple of its charge.** -/
theorem get_recordAction (l : Ledger) (a : Action) (delta : Int) (node : String) :
    (l.recordAction a delta).get node =
      { jobs := (l.get node).jobs + delta * (a.charge node).jobs
        migrateJobs := (l.get node).migrateJobs + delta * (a.charge node).migrateJobs } := by
  simp only [Action.charge, recordAction]
  split
  · simp
  · split
    · simp only [get_record?]
      split <;> simp
    · split
      · simp only [get_record?]
        by_cases hs : a.migrateSource = some node <;> by_cases ht : a.migrateTarget = some node
        · simp only [hs, ht, if_true, get_empty, PeerJobs.mk.injEq]
          omega
        · simp [hs, ht]
        · simp [hs, ht]
        · simp [hs, ht]
      · simp only [get_record?]
        split <;> simp

/-! ## The order of changes -/

/-- Two changes of the counts may be made in either order. -/
theorem record_comm (l : Ledger) (m₁ m₂ : String) (delta₁ delta₂ : Int)
    (isMigration₁ isMigration₂ : Bool) :
    (l.record m₁ delta₁ isMigration₁).record m₂ delta₂ isMigration₂ =
      (l.record m₂ delta₂ isMigration₂).record m₁ delta₁ isMigration₁ := by
  refine congrArg Ledger.mk (Table.ext_get? fun node => ?_)
  simp only [record, get, Table.get?_insert]
  by_cases hm : m₁ = m₂
  · subst hm
    by_cases h₁ : node = m₁
    · cases isMigration₁ <;> cases isMigration₂ <;> simp [h₁, Int.add_right_comm]
    · simp [h₁]
  · by_cases h₁ : node = m₁
    · simp [h₁, hm]
    · simp [h₁, Ne.symm hm]

theorem record?_comm (l : Ledger) (m₁ m₂ : Option String) (delta₁ delta₂ : Int)
    (isMigration₁ isMigration₂ : Bool) :
    (l.record? m₁ delta₁ isMigration₁).record? m₂ delta₂ isMigration₂ =
      (l.record? m₂ delta₂ isMigration₂).record? m₁ delta₁ isMigration₁ := by
  cases m₁ with
  | none => rfl
  | some m₁ =>
    cases m₂ with
    | none => rfl
    | some m₂ => exact record_comm ..

theorem recordAction_record?_comm (l : Ledger) (a : Action) (delta delta' : Int)
    (m : Option String) (isMigration : Bool) :
    (l.recordAction a delta).record? m delta' isMigration =
      (l.record? m delta' isMigration).recordAction a delta := by
  simp only [recordAction]
  split
  · rfl
  · split
    · exact record?_comm ..
    · split
      · rw [record?_comm, record?_comm l]
      · exact record?_comm ..

/-- **Two actions may be recorded in either order.** -/
theorem recordAction_comm (l : Ledger) (a b : Action) (delta delta' : Int) :
    (l.recordAction a delta).recordAction b delta' =
      (l.recordAction b delta').recordAction a delta := by
  have hb (l : Ledger) : l.recordAction b delta' =
      if !b.isResourceOp || b.target.isNone then l
      else if b.router.isSome then l.record? b.router delta' false
      else if b.isMigration then
        (l.record? b.migrateSource delta' true).record? b.migrateTarget delta' true
      else l.record? b.target delta' false := rfl
  rw [hb, hb]
  split
  · rfl
  · split
    · exact recordAction_record?_comm ..
    · split
      · rw [recordAction_record?_comm, recordAction_record?_comm]
      · exact recordAction_record?_comm ..

end Ledger

/-! ## Charges -/

namespace Action

/-- The plan of an action decides its charges. -/
theorem charge_plan (a : Action) (node : String) : a.plan.charge node = a.charge node := rfl

theorem charge_eq_of_plan {a b : Action} (h : a.plan = b.plan) (node : String) :
    a.charge node = b.charge node := by
  rw [← charge_plan, h, charge_plan]

/-- An action charges a node with at most two jobs, and with no more migrations than jobs. -/
theorem charge_bounds (a : Action) (node : String) :
    0 ≤ (a.charge node).migrateJobs ∧ (a.charge node).migrateJobs ≤ (a.charge node).jobs ∧
      (a.charge node).jobs ≤ 2 := by
  simp only [charge, Ledger.recordAction]
  split
  · simp
  · split
    · simp only [Ledger.get_record?]
      split <;> simp
    · split
      · simp only [Ledger.get_record?]
        by_cases hs : a.migrateSource = some node <;> by_cases ht : a.migrateTarget = some node <;>
          simp [hs, ht]
      · simp only [Ledger.get_record?]
        split <;> simp

/-- Only migrations charge migrations. -/
theorem isMigration_of_charge {a : Action} {node : String}
    (h : 0 < (a.charge node).migrateJobs) : a.isMigration = true := by
  simp only [charge, Ledger.recordAction] at h
  split at h
  · simp at h
  · split at h
    · simp only [Ledger.get_record?] at h
      split at h <;> simp at h
    · split at h
      · assumption
      · simp only [Ledger.get_record?] at h
        split at h <;> simp at h

end Action

/-! ## Room on a node -/

namespace Ledger

variable {l : Ledger} {limit : String → Int} {node : String}

theorem mayFireOn_iff {migrationLimit : Int} {isMigration : Bool} :
    l.mayFireOn limit migrationLimit isMigration (some node) = true ↔
      (l.get node).jobs < limit node ∧
        (0 < migrationLimit → isMigration = true → (l.get node).migrateJobs < migrationLimit) := by
  simp only [mayFireOn, Bool.and_eq_true, Bool.not_eq_eq_eq_not, Bool.not_true,
    decide_eq_false_iff_not, Int.not_le, Bool.and_eq_false_imp, decide_eq_true_eq, and_imp]

/-- No count of `l` is above that of `l'`. -/
def Le (l l' : Ledger) : Prop :=
  ∀ node, (l.get node).jobs ≤ (l'.get node).jobs ∧
    (l.get node).migrateJobs ≤ (l'.get node).migrateJobs

theorem Le.refl (l : Ledger) : l.Le l := fun _ => ⟨Int.le_refl _, Int.le_refl _⟩

theorem Le.trans {l' l'' : Ledger} (h : l.Le l') (h' : l'.Le l'') : l.Le l'' := by
  intro node
  have hfirst := h node
  have hsecond := h' node
  omega

/-- What fits beside more jobs fits beside fewer. -/
theorem mayFire_of_le {l' : Ledger} (h : l.Le l') {g : Graph} {a : Action}
    (hmay : l'.mayFire limit g a = true) : l.mayFire limit g a = true := by
  have hfits (node : Option String)
      (hnode : l'.mayFireOn limit g.migrationLimit a.isMigration node = true) :
      l.mayFireOn limit g.migrationLimit a.isMigration node = true := by
    cases node with
    | none => rfl
    | some node =>
      obtain ⟨hjobs, hmigrate⟩ := mayFireOn_iff.mp hnode
      have hle := h node
      refine mayFireOn_iff.mpr ⟨by omega, fun hpos hmigration => ?_⟩
      have := hmigrate hpos hmigration
      omega
  unfold mayFire at hmay ⊢
  split
  · rfl
  · split
    · rename_i hresource hrouter
      rw [if_neg hresource, if_pos hrouter] at hmay
      exact hfits _ hmay
    · rename_i hresource hrouter
      rw [if_neg hresource, if_neg hrouter] at hmay
      split
      · rename_i hmigration
        rw [if_pos hmigration, Bool.and_eq_true] at hmay
        simp only [hfits _ hmay.1, hfits _ hmay.2, Bool.and_self]
      · rename_i hmigration
        rw [if_neg hmigration] at hmay
        exact hfits _ hmay

/-- Plans decide what an action needs. -/
theorem mayFire_eq_of_plan {g g' : Graph} {a a' : Action} (hg : g'.plan = g.plan)
    (ha : a'.plan = a.plan) : l.mayFire limit g' a' = l.mayFire limit g a := by
  have hplan (u : Graph) (b : Action) :
      l.mayFire limit u b = l.mayFire limit u.plan b.plan := rfl
  rw [hplan g', hplan g, hg, ha]

/-- Where nothing runs every action may fire, if every node takes jobs at all. -/
theorem mayFire_of_idle (hidle : ∀ node, l.get node = {}) (hlimit : ∀ node, 0 < limit node)
    (g : Graph) (a : Action) : l.mayFire limit g a = true := by
  have hfits (node : Option String) :
      l.mayFireOn limit g.migrationLimit a.isMigration node = true := by
    cases node with
    | none => rfl
    | some node =>
      rw [mayFireOn_iff, hidle]
      exact ⟨hlimit node, fun hpos _ => hpos⟩
  simp only [mayFire, hfits, Bool.and_self, ite_self]

/-- An action that may fire has room on each node that it charges. -/
theorem mayFireOn_of_charge {g : Graph} {a : Action} (h : l.mayFire limit g a = true)
    (hcharge : 0 < (a.charge node).jobs) :
    l.mayFireOn limit g.migrationLimit a.isMigration (some node) = true := by
  simp only [Action.charge, recordAction] at hcharge
  simp only [mayFire] at h
  split at hcharge
  · simp at hcharge
  · rename_i hcounts
    simp only [Bool.or_eq_true, Bool.not_eq_eq_eq_not, Bool.not_true, not_or,
      Bool.not_eq_false] at hcounts
    rw [if_neg (by simp [hcounts.1])] at h
    split at hcharge
    · rename_i hrouter
      rw [if_pos hrouter] at h
      simp only [get_record?] at hcharge
      split at hcharge
      · rename_i hnode
        rwa [hnode] at h
      · simp at hcharge
    · rename_i hrouter
      rw [if_neg hrouter] at h
      split at hcharge
      · rename_i hmigration
        rw [if_pos hmigration, Bool.and_eq_true] at h
        simp only [get_record?] at hcharge
        by_cases ht : a.migrateTarget = some node
        · exact ht ▸ h.2
        · by_cases hs : a.migrateSource = some node
          · exact hs ▸ h.1
          · simp [hs, ht] at hcharge
      · rename_i hmigration
        rw [if_neg hmigration] at h
        simp only [get_record?] at hcharge
        split at hcharge
        · rename_i hnode
          rwa [hnode] at h
        · simp at hcharge

end Ledger

/-! ## Sums of charges -/

section Sums

variable {α : Type}

/-- Replacing an element changes a sum by the difference. -/
theorem sum_map_modify (l : List α) (k : Nat) (f : α → α) (w : α → Int) {a : α}
    (ha : l[k]? = some a) :
    ((l.modify k f).map w).sum = (l.map w).sum + (w (f a) - w a) := by
  induction l generalizing k with
  | nil => simp at ha
  | cons b l ih =>
    cases k with
    | zero =>
      obtain rfl : b = a := by simpa using ha
      simp only [List.modify_zero_cons, List.map_cons, List.sum_cons]
      omega
    | succ k =>
      simp only [List.modify_succ_cons, List.map_cons, List.sum_cons, ih k (by simpa using ha)]
      omega

theorem sum_map_filter (l : List α) (p : α → Bool) (w : α → Int) :
    ((l.filter p).map w).sum = (l.map fun a => if p a then w a else 0).sum := by
  induction l with
  | nil => rfl
  | cons a l ih => by_cases h : p a <;> simp [h, ih]

end Sums

namespace Graph

variable {g g' : Graph}

/-- The charges as sums over all actions. -/
theorem charged_eq (g : Graph) (node : String) :
    g.charged node =
      { jobs := (g.actions.map fun a => if a.counted then (a.charge node).jobs else 0).sum
        migrateJobs :=
          (g.actions.map fun a => if a.counted then (a.charge node).migrateJobs else 0).sum } := by
  simp only [charged, sum_map_filter]

/-- The charges after one action was changed. -/
theorem charged_modify {k : Nat} {a : Action} (ha : g.actions[k]? = some a) (f : Action → Action)
    (node : String) :
    ({ g with actions := g.actions.modify k f } : Graph).charged node =
      { jobs := (g.charged node).jobs +
          ((if (f a).counted then ((f a).charge node).jobs else 0) -
            if a.counted then (a.charge node).jobs else 0)
        migrateJobs := (g.charged node).migrateJobs +
          ((if (f a).counted then ((f a).charge node).migrateJobs else 0) -
            if a.counted then (a.charge node).migrateJobs else 0) } := by
  simp only [charged_eq, sum_map_modify g.actions k f _ ha]

/-- **The sums are never negative**, and no more than two for each action. -/
theorem charged_bounds (g : Graph) (node : String) :
    0 ≤ (g.charged node).migrateJobs ∧ (g.charged node).migrateJobs ≤ (g.charged node).jobs ∧
      (g.charged node).jobs ≤ 2 * g.actions.length := by
  rw [charged_eq]
  induction g.actions with
  | nil => simp
  | cons a l ih =>
    have := a.charge_bounds node
    simp only [List.map_cons, List.sum_cons, List.length_cons] at ih ⊢
    split <;> omega

theorem sum_map_le {α : Type} {l l' : List α} {w w' : α → Int}
    (h : List.Forall₂ (fun a' a => w' a' ≤ w a) l' l) : (l'.map w').sum ≤ (l.map w).sum := by
  induction h with
  | nil => simp
  | cons ha _ ih =>
    simp only [List.map_cons, List.sum_cons]
    omega

/-- Less is charged where fewer actions are counted. -/
theorem charged_le (hplan : g'.plan = g.plan)
    (h : ∀ (k : Nat) (a a' : Action), g.actions[k]? = some a → g'.actions[k]? = some a' →
      a'.counted = true → a.counted = true) (node : String) :
    (g'.charged node).jobs ≤ (g.charged node).jobs ∧
      (g'.charged node).migrateJobs ≤ (g.charged node).migrateJobs := by
  have hpairs : List.Forall₂ (fun a' a : Action => a'.plan = a.plan ∧
      (a'.counted = true → a.counted = true)) g'.actions g.actions := by
    refine List.forall₂_iff_get.mpr ⟨actions_length_of_plan hplan, fun k hk hk' => ?_⟩
    have ha := List.getElem?_eq_getElem hk'
    have ha' := List.getElem?_eq_getElem hk
    obtain ⟨b, hb, heq⟩ := action_of_plan hplan ha'
    obtain rfl : g.actions[k] = b := Option.some.inj (ha.symm.trans hb)
    exact ⟨heq, h k _ _ ha ha'⟩
  have hsum {w : Action → Int} (hw : ∀ a, 0 ≤ w a) (heq : ∀ a' a, a'.plan = a.plan → w a' = w a) :
      (g'.actions.map fun a => if a.counted then w a else 0).sum ≤
        (g.actions.map fun a => if a.counted then w a else 0).sum := by
    refine sum_map_le (hpairs.imp fun a' a ⟨hpair, hc⟩ => ?_)
    have := hw a
    rw [heq a' a hpair]
    split
    · exact Int.le_of_eq (if_pos (hc ‹_›)).symm
    · split <;> omega
  rw [charged_eq, charged_eq]
  constructor
  · refine hsum (fun a => ?_) fun a' a hpair => by rw [Action.charge_eq_of_plan hpair]
    have := a.charge_bounds node
    omega
  · exact hsum (fun a => (a.charge_bounds node).1) fun a' a hpair => by
      rw [Action.charge_eq_of_plan hpair]

/-- Nothing is charged where nothing is counted. -/
theorem charged_of_uncounted (h : ∀ a ∈ g.actions, a.counted = false) (node : String) :
    g.charged node = {} := by
  have : g.actions.filter (·.counted) = [] := List.filter_eq_nil_iff.mpr (by simpa using h)
  simp [charged, this]

end Graph

end ClusterTransition
