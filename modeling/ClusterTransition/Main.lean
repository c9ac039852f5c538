import ClusterTransition.CommandLine.Program
import ClusterTransition.Text.Path

/-! # The program `crm`

The outer layer: it reads the files that a command looks at, writes the one that it saves, and
prints the answer.
-/

namespace ClusterTransition
namespace Main

/-- Whether a path leads to something. -/
def isThere (path : String) : IO Bool := do
  try
    discard (IO.FS.realPath path)
    return true
  catch _ => return false

/-- Looks at a path. -/
def look (path : String) : IO FileState := do
  unless ← isThere path do return .missing
  try
    return .text (← IO.FS.readFile path)
  catch _ => return .unreadable

/-- Looks at paths. -/
def lookAt : List String → IO Files
  | [] => return fun _ => .missing
  | path :: rest => do
    let state ← look path
    let files ← lookAt rest
    return fun p => if p = path then state else files p

/-- Writes a file in one step: first beside its path, then in its place. -/
def save (path content : String) : IO Bool := do
  try
    match Path.parent? path with
    | some parent => IO.FS.createDirAll parent
    | none => pure ()
    let draft := path ++ ".new"
    IO.FS.writeFile draft content
    try IO.FS.rename draft path
    catch e =>
      IO.FS.removeFile draft
      throw e
    return true
  catch _ => return false

/-- Carries out a command. -/
def perform (i : Invocation) : IO Response := do
  match i.plan (← lookAt i.paths) with
  | .finish outcome => return outcome.response
  | .save path content outcome =>
    return if ← save path content then outcome.response else (Outcome.notSaved path).response

end Main
end ClusterTransition

open ClusterTransition in
/-- Carries out the command that the arguments name. -/
def main (args : List String) : IO UInt32 := do
  let response ← match Arguments.read (← IO.getEnv "CRM_CONFIG") args with
    | .error stop => pure stop.response
    | .ok invocation => Main.perform invocation
  IO.print response.output
  if let some message := response.error then
    IO.eprintln ("error: " ++ message)
  return response.exitCode.toUInt32
