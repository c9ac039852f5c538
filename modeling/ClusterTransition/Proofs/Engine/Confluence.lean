import ClusterTransition.Proofs.Engine.Once
import ClusterTransition.Proofs.Engine.Results
import ClusterTransition.Proofs.Timers

/-! # Results in any order

The network may deliver the results of a transition in any order, and some of them twice.  The
engine comes to the same state whatever happens to them on the way, as long as no two of them say
different things about one action (`results_commute`).

Two results for different actions may be taken in either order (`Engine.takeResult_comm`), because
their completions commute and because they ask for the same abort, if they ask for any.  A result
that is taken again finds its action known, and only cancels a timer that is cancelled already
(`Engine.takeResult_again`).  Both need that the marks of the graph can be trusted, which holds in
all graphs that come about from a loaded one (`Graph.Reached`).
-/

namespace ClusterTransition

/-! ## Folds that forget the order -/

/-- From the states in `P`, the steps that `f` makes for the elements in `M` may be made in any
order, and made again. -/
structure Unordered {α β : Type} (f : β → α → β) (P : β → Prop) (M : α → Prop) : Prop where
  keep : ∀ s x, P s → P (f s x)
  comm : ∀ x y, M x → M y → ∀ s, P s → f (f s x) y = f (f s y) x
  again : ∀ x, M x → ∀ s, P s → f (f s x) x = f s x

namespace Unordered

variable {α β : Type} {f : β → α → β} {P : β → Prop} {M : α → Prop} {l l' : List α} {s : β}

/-- A step may be made before the others or after them. -/
theorem foldl_step (h : Unordered f P M) (hl : ∀ x ∈ l, M x) {x : α} (hx : M x) (hs : P s) :
    l.foldl f (f s x) = f (l.foldl f s) x := by
  induction l generalizing s with
  | nil => rfl
  | cons y l ih =>
    obtain ⟨hy, hl⟩ := List.forall_mem_cons.mp hl
    rw [List.foldl_cons, List.foldl_cons, h.comm x y hx hy s hs]
    exact ih hl (h.keep s y hs)

/-- A step that was made changes nothing any more. -/
theorem foldl_again (h : Unordered f P M) (hl : ∀ x ∈ l, M x) {x : α} (hx : x ∈ l) (hs : P s) :
    f (l.foldl f s) x = l.foldl f s := by
  induction l generalizing s with
  | nil => cases hx
  | cons y l ih =>
    obtain ⟨hy, hrest⟩ := List.forall_mem_cons.mp hl
    rcases List.mem_cons.mp hx with heq | hx
    · rw [heq, List.foldl_cons, ← h.foldl_step hrest hy (h.keep s y hs), h.again y hy s hs]
    · exact ih hrest hx (h.keep s y hs)

theorem foldl_foldl_of_subset (h : Unordered f P M) (hl : ∀ x ∈ l, M x) (hsub : l' ⊆ l)
    (hs : P s) : l'.foldl f (l.foldl f s) = l.foldl f s := by
  induction l' with
  | nil => rfl
  | cons x l' ih =>
    obtain ⟨hx, hsub⟩ := List.cons_subset.mp hsub
    rw [List.foldl_cons, h.foldl_again hl hx hs]
    exact ih hsub

/-- The steps for one list may be made before those for the other or after them. -/
theorem foldl_foldl_comm (h : Unordered f P M) (hl : ∀ x ∈ l, M x) (hl' : ∀ x ∈ l', M x)
    (hs : P s) : l'.foldl f (l.foldl f s) = l.foldl f (l'.foldl f s) := by
  induction l' generalizing s with
  | nil => rfl
  | cons x l' ih =>
    obtain ⟨hx, hl'⟩ := List.forall_mem_cons.mp hl'
    rw [List.foldl_cons, List.foldl_cons, ← h.foldl_step hl hx hs]
    exact ih hl' (h.keep s x hs)

/-- **Where a fold ends depends on the members of the list only.** -/
theorem foldl_eq (h : Unordered f P M) (hl : ∀ x ∈ l, M x) (hsame : ∀ x, x ∈ l ↔ x ∈ l')
    (hs : P s) : l.foldl f s = l'.foldl f s := by
  have hl' : ∀ x ∈ l', M x := fun x hx => hl x ((hsame x).mpr hx)
  calc l.foldl f s = l'.foldl f (l.foldl f s) :=
        (h.foldl_foldl_of_subset hl (fun x => (hsame x).mpr) hs).symm
    _ = l.foldl f (l'.foldl f s) := h.foldl_foldl_comm hl hl' hs
    _ = l'.foldl f s := h.foldl_foldl_of_subset hl' (fun x => (hsame x).mp) hs

end Unordered

/-! ## Two results -/

namespace Graph

variable {g : Graph}

theorem conclude_upset (failed : Bool) (k : Nat) (b : Action) :
    (g.upset failed).conclude k b = (g.conclude k b).upset failed := by
  cases failed <;> rfl

theorem upset_comm (failed failed' : Bool) :
    (g.upset failed).upset failed' = (g.upset failed').upset failed := by
  cases failed <;> cases failed' <;> rfl

theorem id_upset (failed : Bool) : (g.upset failed).id = g.id := by
  cases failed <;> rfl

theorem action?_upset (failed : Bool) (id : ActionId) :
    (g.upset failed).action? id = g.action? id := by
  cases failed <;> rfl

end Graph

/-- The results are not about one action. -/
def ActionResult.Apart (r r' : ActionResult) : Prop :=
  ∀ key key', TransitionKey.decode r.transitionKey = .ok key →
    TransitionKey.decode r'.transitionKey = .ok key' → key.action ≠ key'.action

theorem ActionResult.Apart.symm {r r' : ActionResult} (h : r.Apart r') : r'.Apart r :=
  fun key key' hkey hkey' => (h key' key hkey' hkey).symm

namespace Engine

variable {ε : Type} {s : Graph × Engine ε} {r r' : ActionResult} {a a' : Action} {k k' : Nat}
  {failed failed' : Bool}

theorem plan_takeResult (s : Graph × Engine ε) (r : ActionResult) :
    (takeResult s r).1.plan = s.1.plan := by
  obtain ⟨id, hedits⟩ := processResult_edits s.2 s.1 r
  exact hedits.plan

theorem takeResult_sound (h : s.1.Sound) (r : ActionResult) : (takeResult s r).1.Sound := by
  obtain ⟨id, hedits⟩ := processResult_edits s.2 s.1 r
  exact ⟨h.wellFormed.of_plan hedits.plan, h.marks.edits hedits⟩

/-! ### What a result leaves alone -/

/-- A result that was taken leaves a known action, or the action it was for. -/
theorem take_frame (ha : s.1.actions[k]? = some a) (failed : Bool) :
    (take k a failed s).2.uuid = s.2.uuid ∧ (take k a failed s).1.id = s.1.id ∧
      (take k a failed s).2.timers = s.2.timers.cancel a.id ∧
      ∀ id, (take k a failed s).1.action? id =
        if s.1.slotOf? id = some k then
          some (if a.status.isConfirmed then a else a.concluded failed)
        else s.1.action? id := by
  simp only [take]
  split
  · refine ⟨rfl, rfl, rfl, fun id => ?_⟩
    split
    · rename_i hk
      exact (Graph.action?_eq_getElem? hk).trans ha
    · rfl
  · refine ⟨rfl, Graph.id_upset failed, rfl, fun id => ?_⟩
    rw [Graph.action?_upset, Graph.action?_conclude ha (a.plan_concluded failed)]

/-- A result has no say in what the results about other actions are for. -/
theorem resultAction_takeResult (h : r.Apart r') (s : Graph × Engine ε) :
    (takeResult s r).2.resultAction (takeResult s r).1 r' = s.2.resultAction s.1 r' := by
  cases hr : s.2.resultAction s.1 r with
  | error err => rw [takeResult_of_error hr]
  | ok found =>
    obtain ⟨key, a⟩ := found
    obtain ⟨k, hk, ha⟩ := exists_slot_of_resultAction hr
    obtain ⟨hkey, -, -, -⟩ := resultAction_eq_ok_iff.mp hr
    rw [takeResult_of_ok hr hk]
    obtain ⟨huuid, hid, -, haction⟩ := take_frame ha (resultFailed a key r && !a.canFail)
    refine resultAction_congr huuid hid fun key' hkey' => ?_
    rw [haction, if_neg]
    intro hk'
    obtain ⟨b, hb, -, hidb⟩ := Graph.exists_action_of_slotOf? hk'
    obtain rfl : a = b := Option.some.inj (ha.symm.trans hb)
    exact h key key' hkey hkey' ((id_of_resultAction hr).symm.trans hidb)

/-! ### Two results commute -/

/-- Two actions get their results in either order. -/
theorem take_comm (hmarks : s.1.MarksKnown) (hne : k ≠ k') (ha : s.1.actions[k]? = some a)
    (ha' : s.1.actions[k']? = some a') :
    take k' a' failed' (take k a failed s) = take k a failed (take k' a' failed' s) := by
  have htimers := s.2.timers.cancel_comm a.id a'.id
  cases hopen : a.status.isConfirmed <;> cases hopen' : a'.status.isConfirmed
  · have hgraph := Graph.conclude_comm hne (a.isConfirmed_concluded failed)
      (a'.isConfirmed_concluded failed') (fun _ => hmarks.unmarked ha hopen)
      (fun _ => hmarks.unmarked ha' hopen')
    simp only [take, hopen, hopen', Bool.false_eq_true, if_false, Graph.conclude_upset, hgraph,
      Graph.upset_comm failed failed', htimers, Ledger.released_comm s.2.ledger a a']
  all_goals simp only [take, hopen, hopen', Bool.false_eq_true, if_false, if_true, htimers]

/-- **Two results about different actions may be taken in either order.** -/
theorem takeResult_comm (hsound : s.1.Sound) (h : r.Apart r') :
    takeResult (takeResult s r) r' = takeResult (takeResult s r') r := by
  have hsame := resultAction_takeResult h s
  have hsame' := resultAction_takeResult h.symm s
  cases hr : s.2.resultAction s.1 r with
  | error err => rw [takeResult_of_error hr, takeResult_of_error (hsame'.trans hr)]
  | ok found =>
    cases hr' : s.2.resultAction s.1 r' with
    | error err => rw [takeResult_of_error hr', takeResult_of_error (hsame.trans hr')]
    | ok found' =>
      obtain ⟨key, a⟩ := found
      obtain ⟨key', a'⟩ := found'
      obtain ⟨k, hk, ha⟩ := exists_slot_of_resultAction hr
      obtain ⟨k', hk', ha'⟩ := exists_slot_of_resultAction hr'
      have hne : k ≠ k' := by
        rintro rfl
        obtain rfl : a = a' := Option.some.inj (ha.symm.trans ha')
        obtain ⟨hkey, -⟩ := resultAction_eq_ok_iff.mp hr
        obtain ⟨hkey', -⟩ := resultAction_eq_ok_iff.mp hr'
        exact h key key' hkey hkey' ((id_of_resultAction hr).symm.trans (id_of_resultAction hr'))
      have hslot := (Graph.slotOf?_eq_of_plan (plan_takeResult s r') a.id).trans hk
      have hslot' := (Graph.slotOf?_eq_of_plan (plan_takeResult s r) a'.id).trans hk'
      rw [takeResult_of_ok (hsame.trans hr') hslot', takeResult_of_ok (hsame'.trans hr) hslot,
        takeResult_of_ok hr hk, takeResult_of_ok hr' hk']
      exact take_comm hsound.marks hne ha ha'

/-- **A result that is taken again changes nothing.** -/
theorem takeResult_again (s : Graph × Engine ε) (r : ActionResult) :
    takeResult (takeResult s r) r = takeResult s r := by
  cases hr : s.2.resultAction s.1 r with
  | error err => rw [takeResult_of_error hr, takeResult_of_error hr]
  | ok found =>
    obtain ⟨key, a⟩ := found
    obtain ⟨k, hk, ha⟩ := exists_slot_of_resultAction hr
    obtain ⟨hkey, huuid, htransition, -⟩ := resultAction_eq_ok_iff.mp hr
    let final := if a.status.isConfirmed then a else
      a.concluded (resultFailed a key r && !a.canFail)
    have hfinal : final.status.isConfirmed = true ∧ final.id = a.id := by
      simp only [final]
      split
      · exact ⟨‹_›, rfl⟩
      · exact ⟨a.isConfirmed_concluded _, rfl⟩
    have hslot := (Graph.slotOf?_eq_of_plan (plan_takeResult s r) a.id).trans hk
    have htaken := takeResult_of_ok hr hk
    obtain ⟨huuid', hid', htimers, haction⟩ :=
      take_frame ha (resultFailed a key r && !a.canFail)
    rw [← htaken] at huuid' hid' htimers haction
    have hagain : (takeResult s r).2.resultAction (takeResult s r).1 r = .ok (key, final) := by
      refine resultAction_eq_ok_iff.mpr ⟨hkey, huuid.trans huuid'.symm, htransition.trans hid'.symm,
        ?_⟩
      rw [haction, ← id_of_resultAction hr, if_pos hk]
    rw [takeResult_of_ok hagain (hfinal.2 ▸ hslot)]
    simp only [take, hfinal.1, if_true, hfinal.2, htimers, Timers.cancel_cancel]
    rw [← htimers]

/-- The results of a list, one after the other. -/
def takeResults (s : Graph × Engine ε) (results : List ActionResult) : Graph × Engine ε :=
  results.foldl takeResult s

end Engine

/-! ## Any number of results -/

/-- What comes about from a graph in a run of an engine.  Besides the turns, anything may happen to
the engine alone: its clock runs, the request for a pass is taken, the job counts are reset. -/
inductive Graph.Reached {ε : Type} (c : Cluster ε) (g : Graph) : Graph × Engine ε → Prop where
  | start (e : Engine ε) : Reached c g (g, e)
  | turn {s : Graph × Engine ε} (h : Reached c g s) (t : Turn) : Reached c g (t.make c s)
  | engine {s : Graph × Engine ε} (h : Reached c g s) (e : Engine ε) : Reached c g (s.1, e)

theorem Turn.sound {ε : Type} (c : Cluster ε) (t : Turn) {s : Graph × Engine ε}
    (h : s.1.Sound) : (t.make c s).1.Sound := by
  cases t with
  | move m => exact m.sound c h
  | confirmed id =>
    have hedits := Engine.actionConfirmed_edits s.2 s.1 id
    exact ⟨h.wellFormed.of_plan hedits.plan, h.marks.edits hedits⟩
  | dryPass st =>
    exact ⟨h.wellFormed.of_plan (Graph.plan_run Simulator.dispatcher_steady
        Simulator.dispatcher_handles s.1 st),
      (Graph.calls_cleared Simulator.dispatcher_steady Simulator.dispatcher_handles h.wellFormed
        h.marks st).2⟩

theorem Graph.Reached.sound {ε : Type} {c : Cluster ε} {g : Graph} {s : Graph × Engine ε}
    (h : g.Reached c s) (hg : g.Sound) : s.1.Sound := by
  induction h with
  | start => exact hg
  | turn _ t ih => exact t.sound c ih
  | engine _ _ ih => exact ih

/-- **Neither the order of results nor their repetition matters.**  Take any state of a run on a
graph of the loader, and a list of results of which no two different ones are about one action.
Every list of the same results leads to the same graph and the same engine, in whatever order they
stand and however often each is repeated. -/
theorem results_commute {d : GraphDocument} {g : Graph} (h : d.toGraph = .ok g) {ε : Type}
    {c : Cluster ε} {s : Graph × Engine ε} (hs : g.Reached c s)
    {results results' : List ActionResult} (hsame : ∀ r, r ∈ results ↔ r ∈ results')
    (hapart : ∀ r ∈ results, ∀ r' ∈ results, r ≠ r' → r.Apart r') :
    Engine.takeResults s results = Engine.takeResults s results' := by
  have hunordered : Unordered (Engine.takeResult (ε := ε)) (·.1.Sound) (· ∈ results) := by
    refine ⟨fun _ r hs => Engine.takeResult_sound hs r, fun r r' hr hr' s hs => ?_,
      fun r _ s _ => Engine.takeResult_again s r⟩
    by_cases heq : r = r'
    · rw [heq]
    · exact Engine.takeResult_comm hs (hapart r hr r' hr' heq)
  exact hunordered.foldl_eq (fun _ hr => hr) hsame (hs.sound (GraphDocument.sound_of_toGraph h))

/-- Two starts, and a third that waits for both of them and takes their failures. -/
def GraphDocument.twoThenOne : GraphDocument where
  transitionId := 1
  synapses :=
    [{ id := 0
       actions := [{ id := 1, kind := .resource, task := some "start", target := some "node1" }] },
     { id := 1
       actions := [{ id := 2, kind := .resource, task := some "start", target := some "node2" }] },
     { id := 2
       priority := infinity
       actions := [{ id := 3, kind := .resource, task := some "start", target := some "node3" }]
       inputs := [1, 2] }]

/-- The first start failed. -/
def ActionResult.firstFailed : ActionResult where
  transitionKey := "1:1:0:6f1e8a52-7d0c-4c1b-9a3e-2b5d4c3a1f00"
  status := .done
  rc := 1

/-- The second start succeeded. -/
def ActionResult.secondDone : ActionResult where
  transitionKey := "2:1:0:6f1e8a52-7d0c-4c1b-9a3e-2b5d4c3a1f00"
  status := .done
  rc := 0

/-- The results of the two starts come the other way round, and one of them twice. -/
theorem twoThenOne_commute : ∃ g, GraphDocument.twoThenOne.toGraph = .ok g ∧
    let s := Turn.makeAll .willing [.move .pass] (g, Engine.new { node := "node1" } 0)
    let s' := Engine.takeResults s [.firstFailed, .secondDone]
    s'.1.actions.map (·.status) = [.failed .execution, .confirmed, .pending] ∧
      s'.1.synapses.map (·.status) = [.confirmed, .confirmed, .ready] ∧
      s'.1.abortPriority = infinity ∧ s'.2.timers.activeCount = 0 ∧
      s' = Engine.takeResults s [.secondDone, .firstFailed, .secondDone] := by
  have hfacts : ∀ g, GraphDocument.twoThenOne.toGraph = .ok g →
      let s := Turn.makeAll .willing [.move .pass] (g, Engine.new { node := "node1" } 0)
      let s' := Engine.takeResults s [.firstFailed, .secondDone]
      s'.1.actions.map (·.status) = [.failed .execution, .confirmed, .pending] ∧
        s'.1.synapses.map (·.status) = [.confirmed, .confirmed, .ready] ∧
        s'.1.abortPriority = infinity ∧ s'.2.timers.activeCount = 0 := by
    rintro _ ⟨⟩
    decide +kernel
  have hfirst : TransitionKey.decode ActionResult.firstFailed.transitionKey =
      .ok ⟨1, 1, 0, Engine.defaultUuid⟩ := by rfl
  have hsecond : TransitionKey.decode ActionResult.secondDone.transitionKey =
      .ok ⟨2, 1, 0, Engine.defaultUuid⟩ := by rfl
  have hapart : ActionResult.firstFailed.Apart .secondDone := by
    intro key key' hkey hkey'
    cases hfirst.symm.trans hkey
    cases hsecond.symm.trans hkey'
    decide
  obtain ⟨g, hg⟩ : ∃ g, GraphDocument.twoThenOne.toGraph = .ok g := ⟨_, rfl⟩
  obtain ⟨hactions, hsynapses, hlevel, htimers⟩ := hfacts g hg
  refine ⟨g, hg, hactions, hsynapses, hlevel, htimers, ?_⟩
  refine results_commute hg (.turn (.start _) (.move .pass)) (fun r => ?_) fun r hr r' hr' hne => ?_
  · simp only [List.mem_cons, List.not_mem_nil, or_false]
    tauto
  · simp only [List.mem_cons, List.not_mem_nil, or_false] at hr hr'
    rcases hr with rfl | rfl <;> rcases hr' with rfl | rfl
    · exact absurd rfl hne
    · exact hapart
    · exact hapart.symm
    · exact absurd rfl hne

end ClusterTransition
