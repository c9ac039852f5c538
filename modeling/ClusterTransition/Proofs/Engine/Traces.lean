import ClusterTransition.Proofs.Engine.Residue

/-! # What a failed dispatch leaves behind

An engine that answers a dispatch with `false` has set nothing going.  It should then be as if it had
not been asked, and but for one case it is: every check comes before the request, and every change
after it (`Engine.dispatch_refused`).

The exception is the shutdown of another node.  The node is noted as going down before the request is
sent, and the note is not taken back when the request does not go out.
-/

namespace ClusterTransition
namespace Engine

variable {ε : Type} {c : Cluster ε} {g g' : Graph} {e e' : Engine ε} {channel : Channel}
  {id : ActionId}

/-- What was dispatched has left no trace: the graph is the same, and so is the engine but for its
surroundings.  The nodes that are expected to go down count as a set. -/
structure Traceless (g : Graph) (e : Engine ε) (g' : Graph) (e' : Engine ε) : Prop where
  graph : g' = g
  engine : e' = { e with env := e'.env, expectedDown := e'.expectedDown }
  expected : ∀ node, e'.isExpectedDown node = e.isExpectedDown node

/-- The node that is noted as going down before the request for an action is sent: where the
shutdown of another node than the engine's own is routed. -/
def notedDown? (e : Engine ε) (channel : Channel) (g : Graph) (id : ActionId) : Option String :=
  match channel with
  | .pseudo | .resource | .fencing => none
  | .clusterEvent =>
    (g.action? id).bind fun a => a.target.bind fun target =>
      let route := a.route.getD target
      if a.task = some "do_shutdown" ∧ route ≠ e.localNode then some route else none

/-- The engine with a node, if there is one, noted as going down. -/
def expecting (e : Engine ε) : Option String → Engine ε
  | none => e
  | some node => e.expectDown node

theorem exists_expecting (e : Engine ε) (noted : Option String) :
    ∃ expectedDown, e.expecting noted = { e with expectedDown } := by
  cases noted with
  | none => exact ⟨_, rfl⟩
  | some node =>
    simp only [expecting, expectDown]
    split
    · exact ⟨_, rfl⟩
    · exact ⟨_, rfl⟩

theorem isExpectedDown_expecting (e : Engine ε) (noted : Option String) (node : String) :
    (e.expecting noted).isExpectedDown node = true ↔
      e.isExpectedDown node = true ∨ noted = some node := by
  cases noted with
  | none => simp [expecting]
  | some route =>
    simp only [expecting, expectDown, Option.some.injEq]
    split
    · rename_i hroute
      refine ⟨.inl, ?_⟩
      rintro (h | rfl)
      · exact h
      · exact hroute
    · simp only [isExpectedDown, List.contains_cons, Bool.or_eq_true, beq_iff_eq]
      rw [or_comm, eq_comm (a := node)]

/-! ## The three ways to be refused -/

theorem refused_resource (h : dispatchResource c id g e = (false, g', e')) :
    g' = g ∧ ∃ env, e' = { e with env } := by
  simp only [dispatchResource] at h
  split at h
  · cases h
    exact ⟨rfl, _, rfl⟩
  · rename_i a _
    split at h
    · cases h
      exact ⟨rfl, _, rfl⟩
    · rename_i target _
      obtain ⟨sent, env, -, hsend⟩ := exists_sendRequest c e g a target
      rw [hsend] at h
      cases sent with
      | false =>
        cases h
        exact ⟨rfl, env, rfl⟩
      | true =>
        dsimp only at h
        split at h <;> cases h

theorem refused_fencing (h : dispatchFencing c id g e = (false, g', e')) :
    g' = g ∧ ∃ env, e' = { e with env } := by
  simp only [dispatchFencing] at h
  split at h
  · cases h
    exact ⟨rfl, _, rfl⟩
  · split at h
    · split at h
      · cases h
        exact ⟨rfl, _, rfl⟩
      · cases h
    · cases h
      exact ⟨rfl, _, rfl⟩

/-- An event may be refused when a node is already noted. -/
theorem refused_event (h : dispatchEvent c id g e = (false, g', e')) :
    g' = g ∧ ∃ env, e' = { e.expecting (e.notedDown? .clusterEvent g id) with env } := by
  simp only [dispatchEvent] at h
  split at h
  · rename_i hfind
    cases h
    exact ⟨rfl, e.env, by simp [notedDown?, hfind, expecting]⟩
  · rename_i a hfind
    split at h
    · rename_i htarget
      cases h
      exact ⟨rfl, e.env, by simp [notedDown?, hfind, htarget, expecting]⟩
    · rename_i target htarget
      split at h
      · cases h
      · rename_i helsewhere
        have hnoted : (if a.task = some "do_shutdown" then e.expectDown (a.route.getD target)
            else e) = e.expecting (e.notedDown? .clusterEvent g id) := by
          simp only [Bool.and_eq_true, decide_eq_true_eq, not_and] at helsewhere
          simp only [notedDown?, hfind, htarget, Option.bind_some]
          by_cases hshutdown : a.task = some "do_shutdown"
          · rw [if_pos hshutdown, if_pos ⟨hshutdown, helsewhere hshutdown⟩, expecting]
          · rw [if_neg hshutdown, if_neg fun h => hshutdown h.1, expecting]
        simp only [hnoted] at h
        obtain ⟨sent, env, -, hsend⟩ :=
          exists_sendRequest c (e.expecting (e.notedDown? .clusterEvent g id)) g a target
        rw [hsend] at h
        cases sent with
        | false =>
          cases h
          exact ⟨rfl, env, rfl⟩
        | true => cases h

/-- What is left of an engine that refused is what it noted before. -/
theorem exists_expecting_of_refused
    (h : (dispatcher c).dispatch channel id g e = (false, g', e')) :
    g' = g ∧ ∃ env, e' = { e.expecting (e.notedDown? channel g id) with env } := by
  cases channel with
  | pseudo => cases h
  | resource => exact refused_resource h
  | clusterEvent => exact refused_event h
  | fencing => exact refused_fencing h

/-! ## The trace -/

/-- **What a failed dispatch leaves behind.**  The graph is the same.  So is the engine, with its
ledger, timers, fencing requests and failures and the request for another pass, but for one node that
may be noted as going down.  Hence there is no trace exactly if there was none to note, or the node
had been noted before. -/
theorem dispatch_refused (h : (dispatcher c).dispatch channel id g e = (false, g', e')) :
    g' = g ∧ e' = { e with env := e'.env, expectedDown := e'.expectedDown } ∧
      (∀ node, e'.isExpectedDown node = true ↔
        e.isExpectedDown node = true ∨ e.notedDown? channel g id = some node) ∧
      (Traceless g e g' e' ↔
        ∀ node, e.notedDown? channel g id = some node → e.isExpectedDown node = true) := by
  obtain ⟨hgraph, env, hexpecting⟩ := exists_expecting_of_refused h
  obtain ⟨expectedDown, hdown⟩ := e.exists_expecting (e.notedDown? channel g id)
  have hengine : e' = { e with env := e'.env, expectedDown := e'.expectedDown } := by
    rw [hexpecting, hdown]
  have hexpected : ∀ node, e'.isExpectedDown node = true ↔
      e.isExpectedDown node = true ∨ e.notedDown? channel g id = some node := by
    intro node
    rw [← isExpectedDown_expecting, hexpecting]
    rfl
  refine ⟨hgraph, hengine, hexpected, fun htraceless node hnoted => ?_, fun hnoted => ?_⟩
  · rw [← htraceless.expected node, hexpected]
    exact .inr hnoted
  · refine ⟨hgraph, hengine, fun node => Bool.eq_iff_iff.mpr ?_⟩
    rw [hexpected, or_iff_left_of_imp (hnoted node)]

end Engine

/-- The shutdown of a node, and a start on the same node. -/
def GraphDocument.shutdownAndStart : GraphDocument where
  transitionId := 1
  synapses :=
    [{ id := 0
       actions :=
         [{ id := 1, kind := .clusterEvent, task := some "do_shutdown", target := some "node2" }] },
     { id := 1
       actions := [{ id := 2, kind := .resource, task := some "start", target := some "node2" }] }]

/-- The start cannot be sent, which leaves no trace. -/
theorem shutdownAndStart_traceless : ∃ g, GraphDocument.shutdownAndStart.toGraph = .ok g ∧
    let e := (Engine.new { node := "node1" } 0).startTransition
    ∃ g' e', (Engine.dispatcher (.cutOff "node2")).dispatch .resource 2 g e = (false, g', e') ∧
      Engine.Traceless g e g' e' := by
  obtain ⟨g, hg⟩ : ∃ g, GraphDocument.shutdownAndStart.toGraph = .ok g := ⟨_, rfl⟩
  have hrefused : ∀ g, GraphDocument.shutdownAndStart.toGraph = .ok g →
      ((Engine.dispatcher (.cutOff "node2")).dispatch .resource 2 g
        (Engine.new { node := "node1" } 0).startTransition).1 = false := by
    rintro _ ⟨⟩
    decide +kernel
  refine ⟨g, hg, _, _, Prod.ext (hrefused g hg) rfl, ?_⟩
  have htrace := Engine.dispatch_refused (Prod.ext (hrefused g hg) rfl)
  exact htrace.2.2.2.mpr fun node hnoted => by cases hnoted

/-- With this cluster no failed dispatch leaves a trace, whatever is dispatched. -/
def Cluster.Traceless {ε : Type} (c : Cluster ε) : Prop :=
  ∀ channel id g g' (e e' : Engine ε),
    (Engine.dispatcher c).dispatch channel id g e = (false, g', e') → Engine.Traceless g e g' e'

/-- The shutdown cannot be sent either, and yet its node is expected to go down. -/
theorem shutdownAndStart_leaves_mark :
    (∃ g, GraphDocument.shutdownAndStart.toGraph = .ok g ∧
      let e := (Engine.new { node := "node1" } 0).startTransition
      let answer := (Engine.dispatcher (.cutOff "node2")).dispatch .clusterEvent 1 g e
      answer.1 = false ∧ e.isExpectedDown "node2" = false ∧
        answer.2.2.isExpectedDown "node2" = true) ∧
    ¬ (Cluster.cutOff "node2").Traceless := by
  have hfacts : ∀ g, GraphDocument.shutdownAndStart.toGraph = .ok g →
      let e := (Engine.new { node := "node1" } 0).startTransition
      let answer := (Engine.dispatcher (.cutOff "node2")).dispatch .clusterEvent 1 g e
      answer.1 = false ∧ e.isExpectedDown "node2" = false ∧
        answer.2.2.isExpectedDown "node2" = true := by
    rintro _ ⟨⟩
    decide +kernel
  obtain ⟨g, hg⟩ : ∃ g, GraphDocument.shutdownAndStart.toGraph = .ok g := ⟨_, rfl⟩
  refine ⟨⟨g, hg, hfacts g hg⟩, fun htraceless => ?_⟩
  obtain ⟨hfalse, hbefore, hafter⟩ := hfacts g hg
  have hsame := (htraceless _ _ _ _ _ _ (Prod.ext hfalse rfl)).expected "node2"
  rw [hafter, hbefore] at hsame
  cases hsame

end ClusterTransition
