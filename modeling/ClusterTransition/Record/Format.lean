import ClusterTransition.Error
import ClusterTransition.Json.Reader
import ClusterTransition.Json.Scalar
import ClusterTransition.Text.Path
import ClusterTransition.Yaml.Decode

/-! # Formats of stored records

A record is stored as JSON or as YAML.  The name of its file tells which: files with the extension
`json` hold JSON, and all others YAML.
-/

namespace ClusterTransition

/-- A format that records are stored in. -/
inductive Format where
  | json
  | yaml
  deriving DecidableEq, Repr

namespace Format

/-- The format of the file at a path.  The case of the extension does not matter. -/
def ofPath (path : String) : Format :=
  let extension := (Path.fileName? path).bind Path.extension?
  if extension.any fun e => e.toList.map Char.toLower = "json".toList then json else yaml

/-- A way to read a record, whatever the format. -/
abbrev RecordReader (α : Type) := {ν : Type} → ValueReader ν → ν → Option α

/-- Reads the record that a text in a format holds. -/
def read {α : Type} (record : RecordReader α) (text : String) : Format → Except Error α
  | json => ((Json.parse? text).bind (record Json.reader)).elim (.error .json) .ok
  | yaml => ((Yaml.parse? text).bind (record Yaml.reader)).elim (.error .yaml) .ok

end Format
end ClusterTransition
