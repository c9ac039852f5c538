import ClusterTransition.CommandLine.Files
import ClusterTransition.CommandLine.Invocation
import ClusterTransition.CommandLine.Layout
import ClusterTransition.Json.Printer
import ClusterTransition.Record.Report

/-! # Commands on graphs

A graph is listed, or walked through in a dry run.  Both fill in what the graph leaves open from the
configuration, if there is one.
-/

namespace ClusterTransition

/-- An error with what failed in front. -/
def Error.within (e : Error) (what : String) : String := what ++ ": " ++ e.message

namespace GraphCommands

/-- The configuration at a path, or a default one if there is none. -/
def configOrDefault (files : Files) (path : String) : Except String EngineConfig :=
  match files.loadConfig path with
  | .ok c => .ok c
  | .error (.configNotFound _) => .ok { node := "local" }
  | .error e => .error (e.within ("failed to load " ++ path))

/-- The graph of a document, completed from a configuration. -/
def loadGraph (files : Files) (configPath path : String) : Except String Graph := do
  let config ← configOrDefault files configPath
  let document ← (files.loadGraph path).mapError (·.within ("failed to load graph " ++ path))
  (document.toGraphWith config).mapError (·.within "invalid transition graph")

/-! ## Listing a graph -/

/-- The actions of a synapse. -/
def actionsOf (g : Graph) (s : Synapse) : List Action := s.actions.filterMap (g.actions[·]?)

/-- The ids of the actions that a synapse waits for. -/
def inputsOf (g : Graph) (s : Synapse) : List Int :=
  s.inputs.filterMap fun i => g.actions[i.slot]?.map (·.id)

/-- An action as JSON. -/
def actionJson (a : Action) : Json :=
  Json.object
    [("id", .int a.id), ("type", .text a.kind.name), ("label", .text a.label),
      ("target", .optional .text a.target), ("timeout_ms", .int a.op.timeoutMs),
      ("can_fail", .bool a.canFail)]

/-- A synapse as JSON. -/
def synapseJson (g : Graph) (s : Synapse) : Json :=
  Json.object
    [("id", .int s.id), ("priority", .int s.priority),
      ("actions", .list actionJson (actionsOf g s)), ("inputs", .list .int (inputsOf g s))]

/-- A graph as JSON. -/
def graphJson (g : Graph) : Json :=
  Json.object
    [("transition", .int g.id), ("source", .text g.source), ("batch_limit", .int g.batchLimit),
      ("migration_limit", .int g.migrationLimit), ("network_delay_ms", .int g.networkDelay),
      ("stonith_timeout_ms", .int g.stonithTimeout),
      ("synapses", .list (synapseJson g) g.synapses)]

/-- Numbers with commas between them, or a dash. -/
def idList (ids : List Int) : String :=
  if ids.isEmpty then "-" else ",".intercalate (ids.map Numeral.intText)

/-- The rows of a synapse: one for each action. -/
def synapseRows (g : Graph) (s : Synapse) : List (List String) :=
  (actionsOf g s).map fun a =>
    [Numeral.intText s.id, Numeral.intText s.priority, Numeral.intText a.id, a.kind.name, a.label,
      Layout.orDash a.target, idList (inputsOf g s)]

/-- A graph as a text. -/
def graphText (g : Graph) : String :=
  "Transition " ++ Numeral.intText g.id ++ " (" ++ g.source ++ ")\n  batch limit " ++
    Numeral.intText g.batchLimit ++ ", migration limit " ++ Numeral.intText g.migrationLimit ++
    ", network delay " ++ Numeral.intText g.networkDelay ++ "ms\n\n" ++
    Layout.table ["SYNAPSE", "PRIORITY", "ACTION", "TYPE", "LABEL", "TARGET", "INPUTS"]
      (g.synapses.flatMap (synapseRows g))

/-- Lists a graph. -/
def list (files : Files) (configPath path : String) (json : Bool) : Plan :=
  match loadGraph files configPath path with
  | .error message => .fail message
  | .ok g => .print (if json then (graphJson g).pretty ++ "\n" else graphText g)

/-! ## Dry runs -/

/-- The text for what became of an action. -/
def outcomeText : SimOutcome → String
  | .confirmed => "ok"
  | .failed => "FAILED"
  | .ignored => "failed (ignored)"
  | .notDispatched => "NOT DISPATCHED"

/-- The text of an event of the controller. -/
def eventText : ControlEvent → String
  | .success => "Success"
  | .recompute => "Recompute"
  | .startCooldown pause => "StartCooldown(" ++ Duration.text pause ++ ")"
  | .invokePolicyEngine => "InvokePolicyEngine"
  | .stop => "Stop"
  | .terminate => "Terminate"

/-- The row of an executed action. -/
def executedRow (a : ExecutedAction) : List String :=
  [Numeral.natText a.pass, Numeral.intText a.id, a.kind.name, a.label, Layout.orDash a.target,
    outcomeText a.outcome]

/-- A line on synapses, if there are any. -/
def synapsesLine (title : String) (ids : List Int) : String :=
  if ids.isEmpty then ""
  else "  " ++ title ++ " synapses: [" ++ ", ".intercalate (ids.map Numeral.intText) ++ "]\n"

/-- The report of a dry run as a text. -/
def reportText (r : SimulationReport) : String :=
  Layout.table ["PASS", "ACTION", "TYPE", "LABEL", "TARGET", "OUTCOME"]
      (r.executed.map executedRow) ++
    "\nTransition " ++ Numeral.intText r.transition ++ ": " ++ r.result.title ++ " after " ++
    Numeral.natText r.passes ++ " pass(es)\n" ++
    (match r.notification.reason with
      | none => ""
      | some reason =>
        "  aborted: " ++ reason ++ " (priority " ++ Numeral.intText r.abortPriority ++ ")\n") ++
    synapsesLine "skipped" r.skipped ++ synapsesLine "blocked" r.blocked ++
    "  next: " ++ (r.notification.event.map eventText).getD "nothing" ++ "\n"

/-- Makes a dry run. -/
def dryRun (files : Files) (configPath path : String) (options : SimulationOptions) (json : Bool) :
    Plan :=
  match loadGraph files configPath path with
  | .error message => .fail message
  | .ok g =>
    let (report, _) := simulate options g
    .print (if json then report.toJson.pretty ++ "\n" else reportText report)

end GraphCommands
end ClusterTransition
