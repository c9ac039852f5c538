import ClusterTransition.CommandLine.GraphCommands

/-! # Commands on snapshots

The digest of a snapshot is computed, and compared with an expected one.  The digest that is written
beside a snapshot is always the one that the comparison computes, so a snapshot that was signed is
found to be good until it changes.
-/

namespace ClusterTransition
namespace SnapshotCommands

/-- The snapshot at a path. -/
def loadSnapshot (files : Files) (path : String) : Except String ConfigNode :=
  (files.loadSnapshot path).mapError (·.within ("failed to load snapshot " ++ path))

/-! ## Digests -/

/-- A digest and the version of the algorithm that it was computed with. -/
structure NamedDigest where
  value : String
  algorithm : String
  deriving DecidableEq, Repr

/-- The answer to the question for a digest; `signature` is the path that it was written to. -/
def digestText (d : NamedDigest) (signature : Option String) (json : Bool) : String :=
  if json then
    (Json.object
      [("algorithm", .text d.algorithm), ("digest", .text d.value),
        ("signature", .optional .text signature)]).pretty ++ "\n"
  else d.value ++ "\n"

/-- The digest that the options ask for.  A feature set that is not given comes from the
configuration. -/
def digestOf (files : Files) (configPath : String) (n : ConfigNode) (o : DigestOptions) :
    Except String NamedDigest :=
  match o.algorithm with
  | .v1 => .ok ⟨n.digestV1 o.sort, "v1"⟩
  | .v2 => .ok ⟨n.digestV2 o.filter, "v2"⟩
  | .auto => do
    let featureSet ← match o.featureSet with
      | some version => pure (some version)
      | none =>
        (GraphCommands.configOrDefault files configPath).map fun c => c.digest.featureSet
    return ⟨n.versionedDigest o.sort o.filter featureSet,
      if ConfigNode.usesV2 featureSet then "v2" else "v1"⟩

/-- Whether the options ask for another digest than the one that is written beside a snapshot. -/
def asksForOther (o : DigestOptions) : Bool :=
  o.sort || o.filter || o.featureSet.isSome || o.algorithm = .v2

/-- Writes the digest of a snapshot beside it. -/
def sign (path : String) (n : ConfigNode) (o : DigestOptions) (json : Bool) : Plan :=
  if asksForOther o then
    .fail ("--sign writes the on-disk digest (unsorted v1); " ++
      "drop --sort, --filter, --feature-set and --algorithm v2")
  else
    let signature := Files.signaturePath path
    .save signature (Signature.write n.onDiskDigest)
      { output := digestText ⟨n.onDiskDigest, "v1"⟩ (some signature) json }

/-- Computes the digest of a snapshot. -/
def digest (files : Files) (configPath path : String) (o : DigestOptions) (json : Bool) : Plan :=
  match loadSnapshot files path with
  | .error message => .fail message
  | .ok n =>
    if o.sign then sign path n o json
    else
      match digestOf files configPath n o with
      | .error message => .fail message
      | .ok d => .print (digestText d none json)

/-! ## Comparison -/

/-- The digest that a snapshot is expected to have. -/
def expectedDigest (files : Files) (path : String) : Option String → Except String String
  | some digest => .ok digest
  | none =>
    let signature := Files.signaturePath path
    (files.loadSignature signature).mapError (·.within ("failed to read " ++ signature))

/-- What a comparison prints. -/
def verdictText (n : ConfigNode) (expected : String) (json : Bool) : String :=
  if json then
    (Json.object
      [("calculated", .text n.onDiskDigest), ("expected", .text expected),
        ("valid", .bool (n.verify expected))]).pretty ++ "\n"
  else if n.verify expected then "Digest matches.\n"
  else ""

/-- Compares a snapshot with the digest that it is expected to have. -/
def verify (files : Files) (path : String) (expected : Option String) (json : Bool) : Plan :=
  match loadSnapshot files path with
  | .error message => .fail message
  | .ok n =>
    match expectedDigest files path expected with
    | .error message => .fail message
    | .ok expected =>
      .finish
        { output := verdictText n expected json
          error := if n.verify expected then none else some ("digest mismatch for " ++ path) }

end SnapshotCommands
end ClusterTransition
