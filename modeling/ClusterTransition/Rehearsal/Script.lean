import ClusterTransition.Graph.Pass

/-! # A scripted dispatcher

Carries out actions by a script: lists of ids say which actions cannot be set going, which may not
go yet, and which are completed in the moment in which they are dispatched.  It writes down each
question and each dispatch.
-/

namespace ClusterTransition

/-- One line of the record of a scripted dispatcher. -/
inductive ScriptEntry where
  | dispatched (channel : Channel) (id : ActionId)
  | asked (id : ActionId)
  deriving DecidableEq, Repr

/-- What a scripted dispatcher does with each action, and what it has done. -/
structure Script where
  /-- The actions that cannot be set going. -/
  fail : List ActionId := []
  /-- The actions that may not go. -/
  deny : List ActionId := []
  /-- The actions that are confirmed at once; markers always are. -/
  instant : List ActionId := []
  /-- The actions that fail at once. -/
  instantFail : List ActionId := []
  log : List ScriptEntry := []
  deriving DecidableEq, Repr, Inhabited

namespace Script

/-- Adds a line to the record. -/
def note (s : Script) (entry : ScriptEntry) : Script := { s with log := s.log ++ [entry] }

/-- Carries out an action. -/
def dispatch (channel : Channel) (id : ActionId) (g : Graph) (s : Script) :
    Bool × Graph × Script :=
  let s := s.note (.dispatched channel id)
  if s.fail.contains id then (false, g, s)
  else if s.instantFail.contains id then (true, ((g.failAction id .execution).2.update id).2, s)
  else if channel = .pseudo || s.instant.contains id then
    (true, ((g.confirmAction id).2.update id).2, s)
  else (true, g, s)

/-- The script as a dispatcher. -/
def dispatcher : Dispatcher Script where
  dispatch := dispatch
  allowed id _ s := (!s.deny.contains id, s.note (.asked id))

end Script
end ClusterTransition
