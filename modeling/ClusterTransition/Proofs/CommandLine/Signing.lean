import ClusterTransition.Proofs.CommandLine.DigestLines
import ClusterTransition.Proofs.Record.Nested
import ClusterTransition.Proofs.Rehearsal.Writing

/-! # Signed snapshots

The digest that is written beside a snapshot is the one that is computed again when the snapshot is
checked, and the digest is a text that a signature file gives back unchanged.  So a snapshot that
was signed is found to be good until its digest changes.

Neither signing nor checking looks at the configuration: a digest that a feature set or an option
would change is not written at all.
-/

namespace ClusterTransition

/-! ## Signature files -/

namespace Signature

/-- A digest to the base of sixteen. -/
structure IsHex (digest : String) : Prop where
  nonempty : digest ≠ ""
  digits : ∀ c ∈ digest.toList, isHexDigit c = true

/-- **What is read of a signature is what was written.** -/
theorem read_write {digest : String} (h : IsHex digest) (path : String) :
    read path (write digest) = .ok digest := by
  have hdrop : dropNewline (write digest).toList = digest.toList := by
    simp [write, dropNewline]
  have hnonempty : digest.toList.isEmpty = false := by
    simpa using h.nonempty
  have hdigits : digest.toList.all isHexDigit = true := List.all_eq_true.mpr h.digits
  simp [read, hdrop, hnonempty, hdigits]

end Signature

namespace Sha256

theorem isHexDigit_digitChar : ∀ n < 16, Signature.isHexDigit (Nat.digitChar n) = true := by
  decide

theorem isHexDigit_of_mem_hexWord {w : UInt32} {c : Char} (hc : c ∈ hexWord w) :
    Signature.isHexDigit c = true := by
  obtain ⟨shift, -, rfl⟩ := List.mem_map.mp hc
  exact isHexDigit_digitChar _ (Nat.mod_lt _ (by decide))

/-- Digests are written to the base of sixteen. -/
theorem isHex_textDigest (text : String) : Signature.IsHex (textDigest text) where
  nonempty := by
    intro hempty
    have hlength := congrArg String.length hempty
    simp [textDigest, digest, HashState.words, hexWord] at hlength
  digits c hc := by
    rw [textDigest, String.toList_ofList] at hc
    obtain ⟨w, -, hc⟩ := List.mem_flatMap.mp hc
    exact isHexDigit_of_mem_hexWord hc

end Sha256

theorem Disk.Sound.loadSignature {δ : Type} {k : Disk δ} (hk : k.Sound) {d d' : δ}
    {path digest : String} (hdigest : Signature.IsHex digest)
    (h : k.write d path (Signature.write digest) = some d') :
    (k.files d').loadSignature path = .ok digest := by
  simp only [Files.loadSignature, Files.read, hk.reads_back h, Except.bind]
  exact Signature.read_write hdigest path

/-! ## Signing -/

theorem SnapshotCommands.asksForOther_iff (o : DigestOptions) :
    asksForOther o = true ↔ o.AsksForOther := by
  simp [asksForOther, DigestOptions.AsksForOther, or_assoc]

/-- What can be read as a snapshot is a text. -/
theorem Files.exists_text_of_loadSnapshot {files : Files} {path : String} {n : ConfigNode}
    (h : files.loadSnapshot path = .ok n) : ∃ text, files path = .text text := by
  simp only [loadSnapshot, load, read] at h
  split at h
  · rename_i text heq
    exact ⟨text, heq⟩
  · cases h

/-- What is at a path decides what is loaded. -/
theorem Files.loadSnapshot_congr {files files' : Files} {path : String}
    (h : files' path = files path) : files'.loadSnapshot path = files.loadSnapshot path := by
  simp only [loadSnapshot, load, read, h]

/-- A snapshot that was stored as JSON can be loaded. -/
theorem Files.loadSnapshot_of_stored {files : Files} {path : String} {n : ConfigNode}
    (hformat : Format.ofPath path = .json) (hnesting : n.toJson.nesting ≤ 127)
    (h : files path = .text n.toJson.compact) : files.loadSnapshot path = .ok n := by
  have hback := (ConfigNode.restores hnesting).readsBack.1
  simp only [loadSnapshot, load, read, h, Except.bind, hformat, Format.read, hback,
    Option.elim_some]

/-- A line that asks for the digest of a file to be signed. -/
def Arguments.Signs (environment : Option String) (args : List String) (f : String)
    (o : DigestOptions) : Prop :=
  ∃ i, read environment args = .ok i ∧ i.command = .digest f o ∧ o.sign = true

/-- A line that asks for a check of a file against its signature. -/
def Arguments.Checks (environment : Option String) (args : List String) (f : String) : Prop :=
  ∃ i, read environment args = .ok i ∧ i.command = .verify f none

namespace Disk

variable {δ : Type} {k : Disk δ} {d d' : δ} {f : String} {n : ConfigNode}
  {environment : Option String} {args : List String} {o : DigestOptions}

/-- **Signing** a snapshot with options that ask for another digest fails and writes nothing. -/
theorem run_sign_refused (hload : (k.files d).loadSnapshot f = .ok n)
    (hsigns : Arguments.Signs environment args f o) (hother : o.AsksForOther) :
    (k.run d environment args).1.exitCode = 1 ∧ (k.run d environment args).2 = d := by
  obtain ⟨i, hread, hcommand, hsign⟩ := hsigns
  have hasks := (SnapshotCommands.asksForOther_iff o).mpr hother
  simp only [run, hread, Invocation.plan, hcommand, SnapshotCommands.digest,
    SnapshotCommands.loadSnapshot, hload, Except.mapError, hsign, if_true, SnapshotCommands.sign,
    hasks, Plan.fail]
  exact ⟨rfl, trivial⟩

/-- **Signing** a snapshot writes its digest beside it. -/
theorem run_sign (hload : (k.files d).loadSnapshot f = .ok n)
    (hsigns : Arguments.Signs environment args f o) (hother : ¬ o.AsksForOther)
    (hwrite : k.write d (Files.signaturePath f) (Signature.write n.onDiskDigest) = some d') :
    (k.run d environment args).1.exitCode = 0 ∧ (k.run d environment args).2 = d' := by
  obtain ⟨i, hread, hcommand, hsign⟩ := hsigns
  have hasks : SnapshotCommands.asksForOther o = false := by
    rwa [← Bool.not_eq_true, SnapshotCommands.asksForOther_iff]
  simp only [run, hread, Invocation.plan, hcommand, SnapshotCommands.digest,
    SnapshotCommands.loadSnapshot, hload, Except.mapError, hsign, if_true, SnapshotCommands.sign,
    hasks, Bool.false_eq_true, if_false, hwrite]
  exact ⟨rfl, trivial⟩

/-- **Checking** a snapshot against its signature compares the digests, and writes nothing. -/
theorem run_verify {digest : String} (hload : (k.files d).loadSnapshot f = .ok n)
    (hsignature : (k.files d).loadSignature (Files.signaturePath f) = .ok digest)
    (hchecks : Arguments.Checks environment args f) :
    (k.run d environment args).1.exitCode = (if n.onDiskDigest = digest then 0 else 1) ∧
      (k.run d environment args).2 = d := by
  obtain ⟨i, hread, hcommand⟩ := hchecks
  simp only [run, hread, Invocation.plan, hcommand, SnapshotCommands.verify,
    SnapshotCommands.loadSnapshot, hload, Except.mapError, SnapshotCommands.expectedDigest,
    hsignature, Outcome.response, ConfigNode.verify]
  by_cases hsame : n.onDiskDigest = digest <;> simp [hsame]

/-- The signature of the snapshot `n` lies beside the file `f`: a check of `f` succeeds exactly
while the digest of what is there is the one of `n`, and it writes nothing. -/
structure SignedAs (k : Disk δ) (d : δ) (f : String) (n : ConfigNode) : Prop where
  signature : k.files d (Files.signaturePath f) = .text (Signature.write n.onDiskDigest)
  checks : ∀ {m environment args}, (k.files d).loadSnapshot f = .ok m →
    Arguments.Checks environment args f →
    ((k.run d environment args).1.exitCode = 0 ↔ m.onDiskDigest = n.onDiskDigest) ∧
      (k.run d environment args).2 = d

/-- The signature that is found decides what a check says. -/
theorem signedAs_of_signature
    (h : k.files d (Files.signaturePath f) = .text (Signature.write n.onDiskDigest)) :
    k.SignedAs d f n := by
  refine ⟨h, fun {m environment args} hload hchecks => ?_⟩
  have hsignature : (k.files d).loadSignature (Files.signaturePath f) = .ok n.onDiskDigest := by
    simp only [Files.loadSignature, Files.read, h, Except.bind]
    exact Signature.read_write (Sha256.isHex_textDigest _) _
  obtain ⟨hcode, hstays⟩ := run_verify hload hsignature hchecks
  refine ⟨?_, hstays⟩
  rw [hcode]
  split <;> simp_all

/-- **A snapshot that was signed** can still be loaded, and its signature is found, also after
another content was written to its file. -/
theorem Sound.signedAs (hk : k.Sound) (hload : (k.files d).loadSnapshot f = .ok n)
    (hwrite : k.write d (Files.signaturePath f) (Signature.write n.onDiskDigest) = some d') :
    (k.files d').loadSnapshot f = .ok n ∧ k.SignedAs d' f n ∧
      ∀ {content d₂}, k.write d' f content = some d₂ → k.SignedAs d₂ f n := by
  have hsignature := hk.reads_back hwrite
  refine ⟨?_, signedAs_of_signature hsignature, fun hreplace =>
    signedAs_of_signature (hk.keeps_signature hreplace hsignature)⟩
  obtain ⟨text, htext⟩ := Files.exists_text_of_loadSnapshot hload
  have hsame : k.files d' f = k.files d f := (hk.keeps_file hwrite htext).trans htext.symm
  rw [Files.loadSnapshot_congr hsame, hload]

end Disk

/-! ## Lines -/

namespace Arguments

variable {f : String} {environment : Option String} {flags : List DigestFlag}

theorem signs_digest (hf : IsOperand f) (henvironment : environment ≠ some "")
    (hflags : DigestFlag.Distinct flags) (hsign : .sign ∈ flags) :
    Signs environment ("digest" :: f :: flags.flatMap DigestFlag.words) f
      (digestOptions (DigestFlag.given f flags)) :=
  ⟨_, read_digest hf hflags henvironment, rfl, DigestFlag.sign_given_iff.mpr hsign⟩

theorem checks_verify (hf : IsOperand f) (henvironment : environment ≠ some "") :
    Checks environment ["verify", f] f :=
  ⟨_, read_verify hf henvironment, rfl⟩

end Arguments

/-! ## Agreement -/

/-- **Signing and checking agree.**  On a sound disk on which `f` can be loaded as the snapshot `n`,
and whatever else is on it,

* a line that signs `f` and asks for another digest fails and changes nothing;
* any other line that signs `f` succeeds once the digest could be written beside `f`; from then on
  each check of `f` succeeds, and after `f` was replaced it succeeds exactly if the digest of what
  is there now is the one of `n`;
* options of which one signs make a line that signs, which asks for another digest if one of the
  options does, and the plain line that checks is one that checks;
* each text to the base of sixteen that was written as a signature is read again as it was. -/
theorem signing_agrees {δ : Type} {k : Disk δ} (hk : k.Sound) {d : δ} {f : String} {n : ConfigNode}
    (hload : (k.files d).loadSnapshot f = .ok n) :
    (∀ {environment args o}, Arguments.Signs environment args f o → o.AsksForOther →
      (k.run d environment args).1.exitCode = 1 ∧ (k.run d environment args).2 = d) ∧
    (∀ {environment args o d₁}, Arguments.Signs environment args f o → ¬ o.AsksForOther →
      k.write d (Files.signaturePath f) (Signature.write n.onDiskDigest) = some d₁ →
      (k.run d environment args).1.exitCode = 0 ∧ (k.run d environment args).2 = d₁ ∧
      (∀ {environment args}, Arguments.Checks environment args f →
        (k.run d₁ environment args).1.exitCode = 0) ∧
      ∀ {content d₂}, k.write d₁ f content = some d₂ → k.SignedAs d₂ f n) ∧
    (∀ {environment flags}, Arguments.IsOperand f → environment ≠ some "" →
      DigestFlag.Distinct flags → .sign ∈ flags →
      (∃ o, Arguments.Signs environment ("digest" :: f :: flags.flatMap DigestFlag.words) f o ∧
        (o.AsksForOther ↔ ∃ flag ∈ flags, flag.AsksForOther)) ∧
      Arguments.Checks environment ["verify", f] f) ∧
    (∀ {path digest d₁}, Signature.IsHex digest →
      k.write d path (Signature.write digest) = some d₁ →
      (k.files d₁).loadSignature path = .ok digest) := by
  refine ⟨Disk.run_sign_refused hload, ?_, ?_, hk.loadSignature⟩
  · intro environment args o d₁ hsigns hother hwrite
    obtain ⟨hcode, hstate⟩ := Disk.run_sign hload hsigns hother hwrite
    obtain ⟨hstays, hsigned, hreplaced⟩ := hk.signedAs hload hwrite
    exact ⟨hcode, hstate, fun hchecks => (hsigned.checks hstays hchecks).1.mpr rfl, hreplaced⟩
  · intro environment flags hf henvironment hflags hsign
    exact ⟨⟨_, Arguments.signs_digest hf henvironment hflags hsign,
      DigestFlag.asksForOther_given_iff hflags⟩, Arguments.checks_verify hf henvironment⟩

/-- An empty configuration database. -/
def ConfigNode.emptyDatabase : ConfigNode where
  name := "cib"
  attributes := [("epoch", "0")]

/-- A directory with the snapshot of an empty database and a configuration that cannot be read. -/
def WorkingDirectory.emptyDatabase : WorkingDirectory where
  entries :=
    [(["cib.json"], .file ConfigNode.emptyDatabase.toJson.compact), (["crm.yaml"], .file "\t")]

theorem WorkingDirectory.emptyDatabase_loads :
    emptyDatabase.files.loadSnapshot "cib.json" = .ok .emptyDatabase :=
  Files.loadSnapshot_of_stored (by decide) (by decide) rfl

theorem WorkingDirectory.emptyDatabase_write (content : String) :
    disk.write emptyDatabase (Files.signaturePath "cib.json") content =
      some (emptyDatabase.put ["cib.json.sig"] (.file content)) :=
  rfl

/-- The empty database is not signed if it should also be sorted.  Otherwise it is, and a check
finds it to be good, and after that whatever has its digest. -/
theorem emptyDatabase_signed :
    ((WorkingDirectory.disk.run .emptyDatabase none
        ["digest", "cib.json", "--sign", "--sort"]).1.exitCode = 1 ∧
      (WorkingDirectory.disk.run .emptyDatabase none
        ["digest", "cib.json", "--sign", "--sort"]).2 = .emptyDatabase) ∧
    (∃ signed : WorkingDirectory,
      (WorkingDirectory.disk.run .emptyDatabase none
        ["digest", "cib.json", "--sign", "--algorithm", "v1"]).1.exitCode = 0 ∧
      (WorkingDirectory.disk.run .emptyDatabase none
        ["digest", "cib.json", "--sign", "--algorithm", "v1"]).2 = signed ∧
      (WorkingDirectory.disk.run signed none ["verify", "cib.json"]).1.exitCode = 0 ∧
      ∀ {content d m}, WorkingDirectory.disk.write signed "cib.json" content = some d →
        d.files.loadSnapshot "cib.json" = .ok m →
        ((WorkingDirectory.disk.run d none ["verify", "cib.json"]).1.exitCode = 0 ↔
          m.onDiskDigest = ConfigNode.emptyDatabase.onDiskDigest)) ∧
    ∀ {d},
      WorkingDirectory.disk.write .emptyDatabase "cib.json.sig" (Signature.write "Ff0") = some d →
      d.files.loadSignature "cib.json.sig" = .ok "Ff0" := by
  obtain ⟨hrefused, hsigned, hlines, hsignature⟩ :=
    signing_agrees WorkingDirectory.disk_sound WorkingDirectory.emptyDatabase_loads
  have hf : Arguments.IsOperand "cib.json" := ⟨by decide, by decide⟩
  obtain ⟨⟨sorted, hsorted, hother⟩, hcheck⟩ :=
    @hlines none [.sign, .sort] hf (by decide) (by decide) (by simp)
  obtain ⟨⟨plain, hplain, hsame⟩, -⟩ :=
    @hlines none [.sign, .algorithm .v1] hf (by decide) (by decide) (by simp)
  replace hsorted : Arguments.Signs none ["digest", "cib.json", "--sign", "--sort"] "cib.json"
    sorted := hsorted
  replace hplain : Arguments.Signs none ["digest", "cib.json", "--sign", "--algorithm", "v1"]
    "cib.json" plain := hplain
  have hyes := hsigned hplain (by simp [hsame, DigestFlag.AsksForOther])
    (WorkingDirectory.emptyDatabase_write _)
  obtain ⟨hcode, hstate, hgood, hreplaced⟩ := hyes
  exact ⟨hrefused hsorted (hother.mpr ⟨.sort, by simp, trivial⟩),
    ⟨_, hcode, hstate, hgood hcheck,
      fun hwrite hload => ((hreplaced hwrite).checks hload hcheck).1⟩,
    hsignature ⟨by decide, List.all_eq_true.mp (by decide)⟩⟩

end ClusterTransition
