import ClusterTransition.Duration
import ClusterTransition.Sorting
import ClusterTransition.Table

/-! # Action timers

One timer is armed for each dispatched action that waits for a result.  The timers run on a clock
that is moved forward by hand: `advance` moves it by a span, `expireNext` moves it to the next
deadline.  Both disarm the timers whose deadline is reached and answer whose they were.
-/

namespace ClusterTransition

/-- A clock and the deadlines of the armed timers, by action id. -/
structure Timers where
  now : Duration := 0
  deadlines : Table Int Duration := .empty
  deriving DecidableEq, Inhabited

namespace Timers

/-- Arms the timer of an action, or arms it anew. -/
def set (t : Timers) (id : Int) (after : Duration) : Timers :=
  { t with deadlines := t.deadlines.insert id (t.now.saturatingAdd after) }

/-- Disarms the timer of an action. -/
def cancel (t : Timers) (id : Int) : Timers := { t with deadlines := t.deadlines.erase id }

/-- Whether the timer of an action is armed. -/
def isArmed (t : Timers) (id : Int) : Bool := t.deadlines.contains id

/-- The number of armed timers. -/
def activeCount (t : Timers) : Nat := t.deadlines.size

/-- The actions whose deadline is not after `time`, by deadline and then by id. -/
def dueAt (t : Timers) (time : Duration) : List Int :=
  (sortByKey (·.2) (t.deadlines.entries.filter fun e => e.2 ≤ time)).map (·.1)

/-- Moves the clock forward and disarms what is due.  Also answers the actions that were due, by
deadline and then by id. -/
def advance (t : Timers) (span : Duration) : List Int × Timers :=
  let now := t.now.saturatingAdd span
  (t.dueAt now, { now, deadlines := t.deadlines.filter fun _ deadline => !(deadline ≤ now) })

/-- The smallest deadline. -/
def nextDeadline? (t : Timers) : Option Duration := t.deadlines.values.min?

/-- Moves the clock to the smallest deadline, if a timer is armed, as `advance` does. -/
def expireNext (t : Timers) : List Int × Timers :=
  match t.nextDeadline? with
  | none => ([], t)
  | some deadline => t.advance (deadline - t.now)

/-- Disarms every timer. -/
def clear (t : Timers) : Timers := { t with deadlines := .empty }

end Timers
end ClusterTransition
