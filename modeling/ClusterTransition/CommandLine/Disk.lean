import ClusterTransition.CommandLine.Program

/-! # The program on a disk

What the program does depends on the files that it finds and on whether it can write; how the files
are kept does not matter.  A `Disk` is any way to keep them, and `Disk.run` is a run of the program
on it.
-/

namespace ClusterTransition

/-- A way to keep files, in states of the type `δ`. -/
structure Disk (δ : Type) where
  /-- What is found at each path. -/
  files : δ → Files
  /-- Writes a text to a path, if that can be done. -/
  write : δ → String → String → Option δ

/-- Runs the program on a disk. -/
def Disk.run {δ : Type} (k : Disk δ) (d : δ) (environment : Option String) (args : List String) :
    Response × δ :=
  match Arguments.read environment args with
  | .error stop => (stop.response, d)
  | .ok i =>
    match i.plan (k.files d) with
    | .finish outcome => (outcome.response, d)
    | .save path content outcome =>
      match k.write d path content with
      | some d => (outcome.response, d)
      | none => ((Outcome.notSaved path).response, d)

end ClusterTransition
