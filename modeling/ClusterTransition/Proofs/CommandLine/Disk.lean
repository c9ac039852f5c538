import ClusterTransition.CommandLine.Disk

/-! # Files that are written and read

Of a sound disk three things are known: what was written is read again at the same path, and a file
and its signature are two files, so that writing the one leaves the other.
-/

namespace ClusterTransition

/-- What is known of a disk on which reading and writing do what they should. -/
structure Disk.Sound {δ : Type} (k : Disk δ) : Prop where
  reads_back : ∀ {d d' path content}, k.write d path content = some d' →
    k.files d' path = .text content
  /-- Writing a signature leaves the file that it belongs to. -/
  keeps_file : ∀ {d d' path content text}, k.write d (Files.signaturePath path) content = some d' →
    k.files d path = .text text → k.files d' path = .text text
  /-- Writing a file leaves its signature. -/
  keeps_signature : ∀ {d d' path content text}, k.write d path content = some d' →
    k.files d (Files.signaturePath path) = .text text →
    k.files d' (Files.signaturePath path) = .text text

/-! ## The simplest disk -/

/-- Files that are kept by their paths alone. -/
def Files.disk : Disk Files where
  files := id
  write files path content := some (files.write path content)

/-- The path of a signature is longer than that of its file. -/
theorem Files.signaturePath_ne (path : String) : Files.signaturePath path ≠ path := by
  intro h
  have hlength := congrArg String.length h
  simp [Files.signaturePath] at hlength

theorem Files.disk_sound : Files.disk.Sound where
  reads_back h := by
    obtain rfl := Option.some.inj h
    exact if_pos rfl
  keeps_file h htext := by
    obtain rfl := Option.some.inj h
    exact (if_neg (Files.signaturePath_ne _).symm).trans htext
  keeps_signature h htext := by
    obtain rfl := Option.some.inj h
    exact (if_neg (Files.signaturePath_ne _)).trans htext

end ClusterTransition
