import ClusterTransition.Controller
import ClusterTransition.Proofs.Lists
import Mathlib.Data.List.Induction

/-! # One conclusion for each transition

A controller is in the state of executing a graph exactly while a graph has begun that was not
concluded since (`Controller.Keeps`).  Every event of a notification in this state leads out of it,
and none of the events that a transition ends with is raised outside of it.  So each transition is
concluded once, however often and about whatever graphs the controller is notified.
-/

namespace ClusterTransition

/-- The event says how a transition ended: its graph is carried out, or another is to be
computed. -/
def ControlEvent.IsConclusion : ControlEvent → Prop
  | .success | .recompute | .startCooldown _ => True
  | .invokePolicyEngine | .stop | .terminate => False

/-! ## Histories -/

/-- What can happen to a controller. -/
inductive ControllerStep where
  /-- The execution of a graph begins. -/
  | beginTransition
  | notify (g : Graph) (tooManyFenceFailures : Bool)
  /-- An administrator asks for the shutdown of the node, or no longer does. -/
  | setShutdown (requested : Bool)

namespace ControllerStep

/-- What a step does to the controller. -/
def make : ControllerStep → Controller → Controller
  | beginTransition, c => c.beginTransition
  | notify g tooMany, c => (c.notify g tooMany).2.1
  | setShutdown requested, c => { c with shutdownRequested := requested }

/-- What several steps do. -/
def makeAll (steps : List ControllerStep) (c : Controller) : Controller :=
  steps.foldl (fun c step => step.make c) c

/-- A graph has begun, and there was no notification since. -/
def Awaiting (steps : List ControllerStep) : Prop :=
  ∃ before since, steps = before ++ beginTransition :: since ∧
    ∀ g tooMany, notify g tooMany ∉ since

variable {steps : List ControllerStep}

theorem not_awaiting_nil : ¬ Awaiting [] := by
  rintro ⟨before, since, heq, -⟩
  simp at heq

/-- What the last step does to a history. -/
theorem awaiting_snoc {step : ControllerStep} : Awaiting (steps ++ [step]) ↔
    step = beginTransition ∨ Awaiting steps ∧ ∀ g tooMany, step ≠ notify g tooMany := by
  constructor
  · rintro ⟨before, since, heq, hsince⟩
    rcases append_singleton_eq_append_cons_iff.mp heq with ⟨-, -, hlast⟩ | ⟨rest, rfl, rfl⟩
    · exact .inl hlast
    · refine .inr ⟨⟨before, rest, rfl, fun g tooMany hmem => ?_⟩, ?_⟩
      · exact hsince g tooMany (List.mem_append_left _ hmem)
      · rintro g tooMany rfl
        exact hsince g tooMany (List.mem_append_right _ (List.mem_singleton_self _))
  · rintro (rfl | ⟨⟨before, since, rfl, hsince⟩, hstep⟩)
    · exact ⟨steps, [], rfl, by simp⟩
    · refine ⟨before, since ++ [step], by simp, fun g tooMany hmem => ?_⟩
      rcases List.mem_append.mp hmem with hmem | hmem
      · exact hsince g tooMany hmem
      · exact hstep g tooMany (List.mem_singleton.mp hmem).symm

end ControllerStep

namespace Controller

variable {c : Controller} {g : Graph} {tooMany : Bool}

/-! ## Events -/

/-- While a graph is executed, its end leads to an event. -/
theorem eventFor_isSome (h : c.state = .transitionEngine) : (c.eventFor g tooMany).isSome := by
  unfold eventFor
  split
  · simp [h]
  · simp [h]
  · simp only [restartEvent, h]
    split
    · rfl
    · split <;> rfl
  · split <;> rfl

/-- No conclusion is raised unless a graph is executed. -/
theorem not_isConclusion (h : c.state ≠ .transitionEngine) {event : ControlEvent}
    (hevent : c.eventFor g tooMany = some event) : ¬ event.IsConclusion := by
  unfold eventFor at hevent
  split at hevent
  · simp [h] at hevent
  · simp [h] at hevent
  · unfold restartEvent at hevent
    split at hevent
    · exact absurd ‹_› h
    · cases hevent
      exact id
    · cases hevent
  · split at hevent <;>
    · cases hevent
      exact id

/-- A pause is the delay of the graph, which has one. -/
theorem eq_delay_of_startCooldown {pause : Duration}
    (h : c.eventFor g tooMany = some (.startCooldown pause)) :
    ∃ ms : Nat, 0 < ms ∧ g.transitionDelay = ms ∧ pause = Duration.ofMillis ms := by
  unfold eventFor at h
  split at h
  · split at h <;> cases h
  · split at h <;> cases h
  · unfold restartEvent at h
    split at h
    · split at h
      · cases h
      · split at h
        · rename_i hdelay
          cases h
          exact ⟨g.transitionDelay.toNat, by omega, by omega, rfl⟩
        · cases h
    · cases h
    · cases h
  · split at h <;> cases h

/-- Only while a graph is computed is the policy engine invoked. -/
theorem state_of_invokePolicyEngine (h : c.eventFor g tooMany = some .invokePolicyEngine) :
    c.state = .policyEngine := by
  unfold eventFor at h
  split at h
  · split at h <;> cases h
  · split at h <;> cases h
  · unfold restartEvent at h
    split at h
    · split at h
      · cases h
      · split at h <;> cases h
    · assumption
    · cases h
  · split at h <;> cases h

/-- No notification leaves the controller executing. -/
theorem state_notify_ne (c : Controller) (g : Graph) (tooMany : Bool) :
    (c.notify g tooMany).2.1.state ≠ .transitionEngine := by
  simp only [notify]
  cases hevent : c.eventFor g tooMany with
  | none =>
    intro hstate
    have hsome : (c.eventFor g tooMany).isSome := eventFor_isSome hstate
    rw [hevent] at hsome
    cases hsome
  | some event =>
    cases event with
    | invokePolicyEngine => simp [stateAfter, state_of_invokePolicyEngine hevent]
    | success | recompute | startCooldown | stop | terminate => simp [stateAfter]

/-! ## The state -/

/-- The controller is executing exactly while a graph has begun and is not concluded. -/
structure Keeps (c : Controller) (steps : List ControllerStep) : Prop where
  state : c.state = .transitionEngine ↔ ControllerStep.Awaiting steps
  inTransition : c.inTransition = true ↔ ControllerStep.Awaiting steps

theorem keeps_new : ({} : Controller).Keeps [] :=
  ⟨by simp [ControllerStep.not_awaiting_nil], by simp [ControllerStep.not_awaiting_nil]⟩

/-- **Each step keeps the state in line with what happened.** -/
theorem Keeps.make {steps : List ControllerStep} (h : c.Keeps steps) (step : ControllerStep) :
    (step.make c).Keeps (steps ++ [step]) := by
  have hlast : ControllerStep.Awaiting (steps ++ [step]) ↔ _ := ControllerStep.awaiting_snoc
  cases step with
  | beginTransition =>
    have hawaiting := hlast.mpr (.inl rfl)
    exact ⟨iff_of_true rfl hawaiting, iff_of_true rfl hawaiting⟩
  | notify g tooMany =>
    have hidle : ¬ ControllerStep.Awaiting (steps ++ [.notify g tooMany]) := by
      rw [hlast]
      rintro (heq | ⟨-, hne⟩)
      · cases heq
      · exact hne g tooMany rfl
    exact ⟨iff_of_false (c.state_notify_ne g tooMany) hidle, iff_of_false Bool.false_ne_true hidle⟩
  | setShutdown requested =>
    have hsame : ControllerStep.Awaiting (steps ++ [.setShutdown requested]) ↔
        ControllerStep.Awaiting steps := by simp [hlast]
    exact ⟨h.state.trans hsame.symm, h.inTransition.trans hsame.symm⟩

theorem keeps_makeAll (steps : List ControllerStep) :
    (ControllerStep.makeAll steps {}).Keeps steps := by
  induction steps using List.reverseRecOn with
  | nil => exact keeps_new
  | append_singleton steps step ih =>
    rw [ControllerStep.makeAll, List.foldl_append]
    exact ih.make step

/-- **One conclusion for each transition.**  Take a controller after any steps from the start.  It
is in a transition exactly if its state is that of executing a graph.  If a graph has begun and
there was no notification since, the next one leads to an event; and if not, it raises no
conclusion.  A pause is raised only for a graph with a delay, and lasts as many milliseconds.  Every
notification says how the graph was to end and why, and leaves the graph complete, without a reason
and with nothing more to do, and otherwise as it was. -/
theorem concluded_once (steps : List ControllerStep) :
    let c := ControllerStep.makeAll steps {}
    (c.inTransition = true ↔ c.state = .transitionEngine) ∧
    ∀ g tooMany, let (n, _, g') := c.notify g tooMany
      (ControllerStep.Awaiting steps → n.event.isSome) ∧
      (¬ ControllerStep.Awaiting steps → ∀ event, n.event = some event → ¬ event.IsConclusion) ∧
      (∀ pause, n.event = some (.startCooldown pause) →
        ∃ ms : Nat, 0 < ms ∧ g.transitionDelay = ms ∧ pause = Duration.ofMillis ms) ∧
      (n.transition = g.id ∧ n.completion = g.completionAction ∧ n.reason = g.abortReason) ∧
      g' = { g with complete := true, abortReason := none, completionAction := .done } := by
  have hkeeps := keeps_makeAll steps
  refine ⟨hkeeps.inTransition.trans hkeeps.state.symm, fun g tooMany => ⟨?_, ?_, ?_, ?_, rfl⟩⟩
  · exact fun hawaiting => eventFor_isSome (hkeeps.state.mpr hawaiting)
  · exact fun hidle event hevent => not_isConclusion (mt hkeeps.state.mp hidle) hevent
  · exact fun pause hevent => eq_delay_of_startCooldown hevent
  · exact ⟨rfl, rfl, rfl⟩

/-- A graph that is to be computed anew after a pause of two and a half seconds is concluded by the
first notification.  A second one about it raises no conclusion. -/
theorem restart_concluded_once :
    let g : Graph :=
      { id := 3
        transitionDelay := 2500
        completionAction := .restart
        abortReason := some "Event failed" }
    let c : Controller := ControllerStep.makeAll [.beginTransition] {}
    let c' := ControllerStep.makeAll [.beginTransition, .notify g false] {}
    (c.notify g false).1.event = some (.startCooldown (Duration.ofMillis 2500)) ∧
      (c.notify g false).1.event.isSome ∧
      (c'.notify g false).1.event = some .invokePolicyEngine ∧
      ¬ ControlEvent.invokePolicyEngine.IsConclusion := by
  intro g c c'
  have hbegun : ControllerStep.Awaiting [.beginTransition] := ⟨[], [], rfl, by simp⟩
  have hconcluded : ¬ ControllerStep.Awaiting [.beginTransition, .notify g false] := by
    intro hawaiting
    have hsnoc : ControllerStep.Awaiting ([.beginTransition] ++ [.notify g false]) := hawaiting
    rcases ControllerStep.awaiting_snoc.mp hsnoc with h | ⟨-, h⟩
    · cases h
    · exact h g false rfl
  have hfirst := (concluded_once [.beginTransition]).2 g false
  have hsecond := (concluded_once [.beginTransition, .notify g false]).2 g false
  exact ⟨rfl, hfirst.1 hbegun, rfl, hsecond.2.1 hconcluded _ rfl⟩

end Controller
end ClusterTransition
