import ClusterTransition.Synapse

/-! # The cluster around an engine

An engine sends requests to nodes, stores status records and asks for nodes to be fenced.  It does
none of this itself: whoever runs it brings a `Cluster`, which says how each call is answered and
what becomes of the surroundings, of a type of its own.
-/

namespace ClusterTransition

/-- Asks a node to carry out an action. -/
structure ActionRequest where
  action : ActionId
  kind : ActionKind
  task : String
  /-- The written transition key, which comes back with the result. -/
  transitionKey : String
  /-- The node that the action runs on. -/
  target : String
  op : Operation
  deriving DecidableEq

/-- What a node reports about an action. -/
structure ActionResult where
  transitionKey : String
  status : OpStatus
  rc : Int
  deriving DecidableEq, Repr

/-- The answers of the surroundings, whose state is of type `ε`. -/
structure Cluster (ε : Type) where
  /-- Sends a request to a node; the answer says whether it went out. -/
  send : String → ActionRequest → ε → Bool × ε
  /-- Stores a status record of an action; the answer says whether the store took it. -/
  storeStatus : Action → OpStatus → Int → ε → Bool × ε
  /-- Stores that a node, given by its name and its uuid, was fenced. -/
  storeFenced : String → String → ε → Bool × ε
  /-- Starts to fence a node in a certain way within a number of milliseconds.  The answer is the
  number under which the outcome will be reported, if the fencing was started. -/
  fence : String → String → Nat → ε → Option Nat × ε
  /-- Takes note that a node is safe without being fenced. -/
  confirmSafe : String → ε → Except Error Unit × ε

end ClusterTransition
