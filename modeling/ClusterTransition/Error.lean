import ClusterTransition.Text.Numeral

/-! # What can go wrong

Each way in which an operation of the library fails is one constructor, which holds what the
failure is about.  The wording is in `Error.message` and nowhere else.
-/

namespace ClusterTransition

/-- The cause of a failure. -/
inductive Error where
  /-- There is no configuration file at the path. -/
  | configNotFound (path : String)
  /-- Two actions of one graph have the same id. -/
  | duplicateAction (id : Int)
  /-- A synapse waits for an action that its graph does not have. -/
  | unknownInput (synapse action : Int)
  /-- A report names an action that the graph does not have. -/
  | actionNotFound (id : Int)
  /-- No kind of action has this name. -/
  | invalidActionType (text : String)
  /-- No completion action has this name. -/
  | invalidCompletionAction (text : String)
  /-- The text is not a transition key. -/
  | invalidTransitionKey (text : String)
  /-- The text is not transition magic. -/
  | invalidTransitionMagic (text : String)
  /-- A report belongs to another transition. -/
  | staleResult (expected got : Int)
  /-- A report belongs to another engine. -/
  | foreignResult (expected got : String)
  /-- No fencing request with this call number is outstanding. -/
  | unknownFenceCall (call : Nat)
  /-- The fencing service refused. -/
  | fencing (reason : String)
  /-- The status store refused. -/
  | statusUpdate (reason : String)
  /-- A stored snapshot or digest is not well formed. -/
  | invalidSnapshot (reason : String)
  /-- A file could not be read or written. -/
  | file
  /-- A text is not the YAML of the value it should hold. -/
  | yaml
  /-- A text is not the JSON of the value it should hold. -/
  | json
  deriving DecidableEq, Repr

/-- The wording of a failure.  The texts of the last three come from below this library and are not
fixed here. -/
def Error.message : Error → String
  | .configNotFound path => "configuration not found: " ++ path
  | .duplicateAction id => "duplicate action id " ++ Numeral.intText id ++ " in transition graph"
  | .unknownInput synapse action =>
    "synapse " ++ Numeral.intText synapse ++ " references unknown input action " ++
      Numeral.intText action
  | .actionNotFound id => "action not found: " ++ Numeral.intText id
  | .invalidActionType text => "invalid action type: " ++ text
  | .invalidCompletionAction text => "invalid completion action: " ++ text
  | .invalidTransitionKey text => "cannot decode transition key '" ++ text ++ "'"
  | .invalidTransitionMagic text => "cannot decode transition magic '" ++ text ++ "'"
  | .staleResult expected got =>
    "result for transition " ++ Numeral.intText got ++ " does not belong to transition " ++
      Numeral.intText expected
  | .foreignResult expected got =>
    "result for engine " ++ got ++ " does not belong to engine " ++ expected
  | .unknownFenceCall call => "unknown fencing call: " ++ Numeral.natText call
  | .fencing reason => "fencing request failed: " ++ reason
  | .statusUpdate reason => "status update failed: " ++ reason
  | .invalidSnapshot reason => "invalid configuration snapshot: " ++ reason
  | .file => "file error"
  | .yaml => "malformed YAML"
  | .json => "malformed JSON"

end ClusterTransition
