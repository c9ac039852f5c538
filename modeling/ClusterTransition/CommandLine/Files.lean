import ClusterTransition.Record.Config
import ClusterTransition.Record.Format
import ClusterTransition.Record.Snapshot
import ClusterTransition.Snapshot.Digest

/-! # Files that commands read

A command sees the files by their paths: each path holds a text, holds something that cannot be read
as a text, or holds nothing.
-/

namespace ClusterTransition

/-- What is found at a path. -/
inductive FileState where
  | missing
  /-- A directory, or a file that cannot be read as a text. -/
  | unreadable
  | text (content : String)
  deriving DecidableEq, Repr

/-- What is found at each path. -/
abbrev Files := String → FileState

namespace Files

/-- The files after a text was written to a path. -/
def write (files : Files) (path content : String) : Files :=
  fun p => if p = path then .text content else files p

/-- Reads a text. -/
def read (files : Files) (path : String) : Except Error String :=
  match files path with
  | .text content => .ok content
  | _ => .error .file

/-- Reads a record in the format that belongs to its path. -/
def load {α : Type} (files : Files) (record : Format.RecordReader α) (path : String) :
    Except Error α :=
  (files.read path).bind fun content => (Format.ofPath path).read record content

/-- Reads a graph document.  A document without a source gets its path as the source. -/
def loadGraph (files : Files) (path : String) : Except Error GraphDocument :=
  (files.load GraphDocument.read? path).map (·.withSource path)

/-- Reads a snapshot. -/
def loadSnapshot (files : Files) (path : String) : Except Error ConfigNode :=
  files.load ConfigNode.read? path

/-- Reads a configuration, which is stored as YAML whatever its path. -/
def loadConfig (files : Files) (path : String) : Except Error EngineConfig :=
  if files path = .missing then .error (.configNotFound path)
  else (files.read path).bind fun content => Format.yaml.read EngineConfig.read? content

/-- The path of the signature of a snapshot. -/
def signaturePath (snapshot : String) : String := snapshot ++ ".sig"

/-- Reads the signature at a path. -/
def loadSignature (files : Files) (path : String) : Except Error String :=
  (files.read path).bind fun content => Signature.read path content

end Files
end ClusterTransition
