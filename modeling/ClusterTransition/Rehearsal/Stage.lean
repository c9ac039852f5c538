import ClusterTransition.Loop

/-! # A cluster for rehearsals

A rehearsal runs an engine against a cluster that exists on paper only.  It writes down every call,
and switches say which calls it refuses.  It may also follow a script that answers requests and
fencing calls after a while; the answers wait in an outbox until someone delivers them.
-/

namespace ClusterTransition

/-- A call that an engine made. -/
inductive ClusterCall where
  | send (peer : String) (ok : Bool) (request : ActionRequest)
  | status (action : ActionId) (status : OpStatus) (rc : Int) (ok : Bool)
  | fenced (target uuid : String) (ok : Bool)
  /-- The number that the call was given is missing if it was refused. -/
  | fence (target kind : String) (timeoutMs : Nat) (call : Option Nat)
  | confirm (target : String) (ok : Bool)
  deriving DecidableEq

/-- Which calls are refused. -/
structure Switches where
  /-- The nodes that cannot be reached. -/
  unreachable : List String := []
  rejectUpdates : Bool := false
  rejectFencing : Bool := false
  rejectConfirm : Bool := false
  rejectFenced : Bool := false
  deriving DecidableEq, Repr, Inhabited

/-- What a node will report about an action, and how long after the request. -/
structure Reply where
  id : ActionId
  after : Duration
  status : OpStatus
  rc : Int
  deriving DecidableEq, Repr

/-- What the fencing service will report about a call, and how long after it. -/
structure FenceReply where
  after : Duration
  outcome : Except String Unit

/-- The cluster of a rehearsal. -/
structure Stage where
  switches : Switches := {}
  /-- The calls that were made, in order. -/
  log : List ClusterCall := []
  /-- How many fencing calls were accepted. -/
  calls : Nat := 0
  replies : List Reply := []
  /-- What will be reported about each fencing call, from the first on. -/
  fenceReplies : List (Option FenceReply) := []
  /-- The reports under way, each with the time it still takes. -/
  outbox : List (Duration × EngineEvent) := []
  deriving Inhabited

namespace Stage

/-- Writes down a call. -/
def note (s : Stage) (call : ClusterCall) : Stage := { s with log := s.log ++ [call] }

/-- Sends a report on its way. -/
def post (s : Stage) (after : Duration) (event : EngineEvent) : Stage :=
  { s with outbox := s.outbox ++ [(after, event)] }

/-- Sends the scripted replies to a request on their way. -/
def reply (s : Stage) (request : ActionRequest) : Stage :=
  (s.replies.filter (·.id = request.action)).foldl (fun s r =>
    s.post r.after (.actionResult
      { transitionKey := request.transitionKey, status := r.status, rc := r.rc })) s

/-- Accepts a fencing call: gives it the next number and sends its scripted outcome on its way. -/
def acceptFence (s : Stage) : Nat × Stage :=
  let call := s.calls + 1
  let s := { s with calls := call }
  match s.fenceReplies[s.calls - 1]? with
  | some (some r) => (call, s.post r.after (.fencingResult call r.outcome))
  | _ => (call, s)

/-- How the cluster answers the calls of an engine. -/
def cluster : Cluster Stage where
  send peer request s :=
    let ok := !s.switches.unreachable.contains peer
    let s := s.note (.send peer ok request)
    (ok, if ok then s.reply request else s)
  storeStatus a status rc s :=
    let ok := !s.switches.rejectUpdates
    (ok, s.note (.status a.id status rc ok))
  storeFenced target uuid s :=
    let ok := !s.switches.rejectFenced
    (ok, s.note (.fenced target uuid ok))
  fence target kind timeoutMs s :=
    if s.switches.rejectFencing then (none, s.note (.fence target kind timeoutMs none))
    else
      let (call, s) := s.acceptFence
      (some call, s.note (.fence target kind timeoutMs (some call)))
  confirmSafe target s :=
    let ok := !s.switches.rejectConfirm
    (if ok then .ok () else .error (.fencing ("cannot confirm " ++ target)),
      s.note (.confirm target ok))

end Stage
end ClusterTransition
