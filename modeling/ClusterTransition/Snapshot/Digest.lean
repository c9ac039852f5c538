import ClusterTransition.Config
import ClusterTransition.Snapshot.Node
import ClusterTransition.Snapshot.Sha256

/-! # Digests of snapshots

Replicas of the configuration database compare digests of its content to see whether they differ.
There are two algorithms.  The first may sort the snapshot and frames its XML by a blank and the end
of a line; digests on disk and digests of operations are made by it.  The second hashes the XML as
it is and may leave volatile attributes out; peers from a certain feature set on use it.
-/

namespace ClusterTransition

/-! ## Versions -/

namespace Version

/-- The number at the front of a part of a version; parts without one, or with one beyond 64 bits,
count as zero. -/
def part (cs : List Char) : Nat :=
  (((Numeral.parseNat? ((trimBlank cs).takeWhile Char.isDigit)).filter Numeral.isNat64)).getD 0

/-- The numbers of a version. -/
def parts (version : String) : List Nat := (splitAll '.' version.toList).map part

/-- Compares two lists of numbers; missing numbers count as zero. -/
def compareParts : List Nat → List Nat → Ordering
  | [], [] => .eq
  | x :: xs, [] => (compare x 0).then (compareParts xs [])
  | [], y :: ys => (compare 0 y).then (compareParts [] ys)
  | x :: xs, y :: ys => (compare x y).then (compareParts xs ys)

/-- Compares two dotted versions by their numbers. -/
def compare (a b : String) : Ordering := compareParts (parts a) (parts b)

end Version

/-! ## Algorithms -/

namespace ConfigNode

/-- The feature set from which on peers expect the second algorithm. -/
def v2FeatureSet : String := "3.0.5"

/-- The text that the first algorithm hashes. -/
def v1Buffer (n : ConfigNode) (sort : Bool) : String :=
  " " ++ (if sort then n.sorted else n).toXml false ++ "\n"

/-- The digest of the first algorithm, of the sorted snapshot if asked to. -/
def digestV1 (n : ConfigNode) (sort : Bool) : String := Sha256.textDigest (n.v1Buffer sort)

/-- The digest of the second algorithm, without volatile attributes if asked to. -/
def digestV2 (n : ConfigNode) (filter : Bool) : String := Sha256.textDigest (n.toXml filter)

/-- Whether a peer with this feature set expects the second algorithm. -/
def usesV2 : Option String → Bool
  | none => false
  | some version => Version.compare v2FeatureSet version != .gt

/-- The digest that a peer with a certain feature set expects. -/
def versionedDigest (n : ConfigNode) (sort filter : Bool) (featureSet : Option String) : String :=
  if usesV2 featureSet then n.digestV2 filter else n.digestV1 sort

/-- The digest that is stored beside a configuration. -/
def onDiskDigest (n : ConfigNode) : String := n.digestV1 false

/-- The digest of the parameters of an operation. -/
def operationDigest (n : ConfigNode) : String := n.digestV1 true

/-- Whether the snapshot has the digest that is stored beside it. -/
def verify (n : ConfigNode) (expected : String) : Bool := n.onDiskDigest = expected

end ConfigNode

/-! ## Signature files -/

namespace Signature

/-- Whether a character is a digit to the base of sixteen, in either case. -/
def isHexDigit (c : Char) : Bool :=
  c.isDigit || ('a' ≤ c && c ≤ 'f') || ('A' ≤ c && c ≤ 'F')

/-- The content of a signature file. -/
def write (digest : String) : String := digest ++ "\n"

/-- Removes one end of line from the end of a text. -/
def dropNewline (cs : List Char) : List Char :=
  match cs.reverse with
  | '\n' :: rest => rest.reverse
  | _ => cs

/-- Reads the digest from the content of the signature file at a path. -/
def read (path content : String) : Except Error String :=
  let cs := dropNewline content.toList
  if !cs.isEmpty && cs.all isHexDigit then .ok (String.ofList cs)
  else .error (.invalidSnapshot (path ++ " does not contain a digest"))

end Signature
end ClusterTransition
