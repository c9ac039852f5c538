import ClusterTransition.CommandLine.Arguments
import Mathlib.Data.List.Nodup
import Mathlib.Data.List.TakeWhile

/-! # Lines that ask for digests

What the reader of a level does with one word is said once for each kind of word: a flag, an option
with a value, which may be attached, and an operand.

With these the lines on snapshots are read.  A line that asks for a digest names the file and then
any options of the command, each at most once and in any order.  They are put down in that order
(`DigestFlag.read_flatMap_words`), so the command is asked for just what is written
(`Arguments.read_digest`).
-/

namespace ClusterTransition

/-! ## Words -/

namespace Level

variable {l : Level} {g : Given} {name : String} {rule : OptionRule} {rest : List String}

/-- The characters of a name that holds no equality sign. -/
theorem forall_ne_of_notMem (h : '=' ∉ name.toList) :
    ∀ c ∈ name.toList, decide (c ≠ '=') = true := by
  intro c hc
  refine decide_eq_true fun heq => h ?_
  rwa [← heq]

theorem splitOption_name (h : '=' ∉ name.toList) : splitOption name.toList = (name, none) := by
  have htake := List.takeWhile_eq_self_iff.mpr (forall_ne_of_notMem h)
  have hdrop := List.dropWhile_eq_nil_iff.mpr (forall_ne_of_notMem h)
  simp only [splitOption, htake, hdrop, String.ofList_toList]

theorem splitOption_attached (h : '=' ∉ name.toList) (value : String) :
    splitOption (name.toList ++ '=' :: value.toList) = (name, some value) := by
  simp only [splitOption, List.takeWhile_append_of_pos (forall_ne_of_notMem h),
    List.dropWhile_append_of_pos (forall_ne_of_notMem h)]
  simp

/-- The characters of an option that is written out. -/
theorem exists_toList_option (hname : name ≠ "") :
    ∃ c cs, name.toList = c :: cs ∧ ("--" ++ name).toList = '-' :: '-' :: c :: cs := by
  obtain ⟨c, cs, h⟩ := List.exists_cons_of_ne_nil (l := name.toList) (by simpa using hname)
  exact ⟨c, cs, h, by rw [String.toList_append, h]; rfl⟩

theorem read_flag (hname : name ≠ "") (hplain : '=' ∉ name.toList)
    (hrule : l.options.find? (·.name = name) = some rule) (hflag : rule.hasValue = false) :
    l.read g (("--" ++ name) :: rest) = (g.add rule none).bind fun g => l.read g rest := by
  obtain ⟨c, cs, hcs, htext⟩ := exists_toList_option hname
  rw [Level.read, htext]
  have hsplit := splitOption_name hplain
  rw [hcs] at hsplit
  simp only [hsplit, hrule, hflag, Bool.false_and, Bool.false_eq_true, if_false]

theorem read_attached (hname : name ≠ "") (hplain : '=' ∉ name.toList)
    (hrule : l.options.find? (·.name = name) = some rule) (value : String) :
    l.read g (("--" ++ name ++ "=" ++ value) :: rest) =
      (g.add rule (some value)).bind fun g => l.read g rest := by
  obtain ⟨c, cs, hcs, htext⟩ := exists_toList_option hname
  have hsplit := splitOption_attached hplain value
  rw [hcs] at hsplit
  have htext' : ("--" ++ name ++ "=" ++ value).toList =
      '-' :: '-' :: c :: cs ++ '=' :: value.toList := by
    rw [String.toList_append, String.toList_append, htext]
    simp
  rw [Level.read, htext']
  simp only [List.cons_append] at hsplit ⊢
  simp only [hsplit, hrule, Option.isNone_some, Bool.and_false, Bool.false_eq_true, if_false]

theorem read_value (hname : name ≠ "") (hplain : '=' ∉ name.toList)
    (hrule : l.options.find? (·.name = name) = some rule) (hvalue : rule.hasValue = true)
    {value : String} (hword : isValue value = true) :
    l.read g (("--" ++ name) :: value :: rest) =
      (g.add rule (some value)).bind fun g => l.read g rest := by
  obtain ⟨c, cs, hcs, htext⟩ := exists_toList_option hname
  rw [Level.read, htext]
  have hsplit := splitOption_name hplain
  rw [hcs] at hsplit
  simp only [hsplit, hrule, hvalue, Option.isNone_none, Bool.and_self, if_true, hword]

theorem read_operand {arg : String} (harg : arg.toList.head? ≠ some '-') :
    l.read g (arg :: rest) =
      if arg ∈ l.subcommands then .ok (g, some (arg, rest))
      else (l.addOperand g arg).bind fun g => l.read g rest := by
  rw [Level.read]
  split
  · rename_i h
    simp [h] at harg
  · rename_i h
    simp [h] at harg
  · rename_i h
    simp [h] at harg
  · rfl

end Level

namespace Given

variable {g : Given} {name value : String}

theorem isSome_value? : (g.value? name).isSome = g.has name := by
  rw [Bool.eq_iff_iff, value?, values, List.isSome_head?]
  simp [has, List.filter_eq_nil_iff]

/-- An option that was put down once has the value that was put down. -/
theorem value?_eq_some_iff (hnodup : (g.options.map (·.1)).Nodup) :
    g.value? name = some value ↔ (name, value) ∈ g.options := by
  obtain ⟨options, operand⟩ := g
  simp only [value?, values]
  induction options with
  | nil => simp
  | cons entry options ih =>
    obtain ⟨hfresh, hnodup⟩ := List.nodup_cons.mp hnodup
    by_cases heq : entry.1 = name
    · subst heq
      simp only [decide_true, List.filter_cons_of_pos, List.map_cons, List.head?_cons,
        Option.some.injEq, List.mem_cons]
      constructor
      · rintro rfl
        exact .inl rfl
      · rintro (h | h)
        · rw [← h]
        · exact absurd (List.mem_map_of_mem (f := (·.1)) h) hfresh
    · rw [List.filter_cons_of_neg (by simpa using heq), ih hnodup, List.mem_cons]
      refine (or_iff_right ?_).symm
      rintro rfl
      exact heq rfl

end Given

/-! ## Options of a digest -/

/-- The name of an algorithm. -/
def DigestAlgorithm.name : DigestAlgorithm → String
  | auto => "auto"
  | v1 => "v1"
  | v2 => "v2"

@[simp] theorem DigestAlgorithm.ofName?_name (a : DigestAlgorithm) : ofName? a.name = some a := by
  cases a <;> rfl

/-- What a command asks for when it asks for another digest than the one that is kept on disk. -/
def DigestOptions.AsksForOther (o : DigestOptions) : Prop :=
  o.sort = true ∨ o.filter = true ∨ o.featureSet.isSome = true ∨ o.algorithm = .v2

/-- An option of the command `digest`. -/
inductive DigestFlag where
  | sign
  | sort
  | filter
  | featureSet (version : String)
  | algorithm (a : DigestAlgorithm)

namespace DigestFlag

/-- What is put down for an option. -/
def entry : DigestFlag → String × String
  | sign => ("sign", "")
  | sort => ("sort", "")
  | filter => ("filter", "")
  | featureSet version => ("feature-set", version)
  | algorithm a => ("algorithm", a.name)

/-- The words of an option. -/
def words : DigestFlag → List String
  | sign => ["--" ++ "sign"]
  | sort => ["--" ++ "sort"]
  | filter => ["--" ++ "filter"]
  | featureSet version => ["--" ++ "feature-set" ++ "=" ++ version]
  | algorithm a => ["--" ++ "algorithm", a.name]

/-- The option asks for another digest than the one that is kept on disk. -/
def AsksForOther : DigestFlag → Prop
  | sort | filter | featureSet _ => True
  | algorithm a => a = .v2
  | sign => False

/-- Each option is there at most once. -/
abbrev Distinct (flags : List DigestFlag) : Prop :=
  (flags.map fun flag => flag.entry.1).Nodup

/-- What is given with a file and options. -/
def given (f : String) (flags : List DigestFlag) : Given where
  options := flags.map entry
  operand := f

variable {f name value : String} {flags : List DigestFlag}

theorem has_given_iff :
    (given f flags).has name = true ↔ ∃ flag ∈ flags, flag.entry.1 = name := by
  simp [Given.has, given]

/-- The options that all commands have are not among them. -/
theorem has_given_common (hname : name ∈ ["config", "json"]) :
    (given f flags).has name = false := by
  rw [← Bool.not_eq_true, has_given_iff]
  rintro ⟨flag, -, rfl⟩
  cases flag <;> simp [entry] at hname

theorem value?_given_iff (hflags : Distinct flags) :
    (given f flags).value? name = some value ↔ ∃ flag ∈ flags, flag.entry = (name, value) := by
  have hnodup : ((given f flags).options.map (·.1)).Nodup := by
    simpa [given, List.map_map, Function.comp_def] using hflags
  rw [Given.value?_eq_some_iff hnodup]
  simp [given]

theorem sign_given_iff :
    (Arguments.digestOptions (given f flags)).sign = true ↔ sign ∈ flags := by
  have hflag (flag : DigestFlag) : flag.entry.1 = "sign" ↔ flag = sign := by
    cases flag <;> simp [entry]
  simp only [Arguments.digestOptions, has_given_iff, hflag, exists_eq_right]

/-- The second algorithm is asked for just if it is named. -/
theorem algorithm_given_iff (hflags : Distinct flags) :
    (Arguments.digestOptions (given f flags)).algorithm = .v2 ↔ algorithm .v2 ∈ flags := by
  have hname (name : String) : DigestAlgorithm.ofName? name = some .v2 ↔ name = "v2" := by
    unfold DigestAlgorithm.ofName?
    split <;> simp_all
  have hflag (flag : DigestFlag) : flag.entry = ("algorithm", "v2") ↔ flag = algorithm .v2 := by
    cases flag with
    | algorithm a => cases a <;> simp [entry, DigestAlgorithm.name]
    | sign | sort | filter | featureSet => simp [entry]
  simp [Arguments.digestOptions, Option.getD_eq_iff, Option.bind_eq_some_iff, hname,
    value?_given_iff hflags, hflag]

/-- **The options ask for another digest if one of them does.** -/
theorem asksForOther_given_iff (hflags : Distinct flags) :
    (Arguments.digestOptions (given f flags)).AsksForOther ↔
      ∃ flag ∈ flags, flag.AsksForOther := by
  have hflag (flag : DigestFlag) : flag.AsksForOther ↔ flag.entry.1 = "sort" ∨
      flag.entry.1 = "filter" ∨ flag.entry.1 = "feature-set" ∨ flag = algorithm .v2 := by
    cases flag <;> simp [AsksForOther, entry]
  simp only [hflag, and_or_left, exists_or, exists_eq_right]
  rw [DigestOptions.AsksForOther, algorithm_given_iff hflags]
  simp only [Arguments.digestOptions, Given.isSome_value?, has_given_iff]

end DigestFlag

/-! ## Lines -/

/-- The level of the command `digest`. -/
abbrev digestLevel : Level := Arguments.fileLevel "digest" (Arguments.optionsOf "digest")

namespace DigestFlag

variable {f : String} {g : Given} {flags : List DigestFlag} {environment : Option String}

/-- **An option that is read is put down.** -/
theorem read_words (flag : DigestFlag) (hnew : g.has flag.entry.1 = false) (rest : List String) :
    digestLevel.read g (flag.words ++ rest) =
      digestLevel.read { g with options := g.options ++ [flag.entry] } rest := by
  cases flag with
  | sign | sort | filter =>
    refine (Level.read_flag (by decide) (by decide) rfl rfl).trans ?_
    simp only [entry] at hnew
    simp [Given.add, hnew, Except.bind, entry]
  | featureSet version =>
    refine (Level.read_attached (by decide) (by decide) rfl version).trans ?_
    simp only [entry] at hnew
    simp [Given.add, hnew, Except.bind, entry]
  | algorithm a =>
    have hword : Level.isValue a.name = true := by cases a <;> decide
    refine (Level.read_value (by decide) (by decide) rfl rfl hword).trans ?_
    simp only [entry] at hnew
    simp [Given.add, hnew, Except.bind, entry]

/-- **Options that are read are put down** in their order. -/
theorem read_flatMap_words (hflags : Distinct flags)
    (hnew : ∀ flag ∈ flags, g.has flag.entry.1 = false) :
    digestLevel.read g (flags.flatMap words) =
      .ok ({ g with options := g.options ++ flags.map entry }, none) := by
  induction flags generalizing g with
  | nil => simp [Level.read]
  | cons flag flags ih =>
    obtain ⟨hfresh, hflags⟩ := List.nodup_cons.mp hflags
    rw [List.flatMap_cons, read_words flag (hnew flag List.mem_cons_self), ih hflags]
    · simp
    · intro other hother
      have hne : flag.entry.1 ≠ other.entry.1 := fun heq =>
        hfresh (List.mem_map.mpr ⟨other, hother, heq.symm⟩)
      have hold := hnew other (List.mem_cons_of_mem _ hother)
      simp only [Given.has] at hold ⊢
      simp [hold, hne]

end DigestFlag

namespace Arguments

variable {f : String} {flags : List DigestFlag} {environment : Option String}

/-- A path that can be an operand: it is not empty and does not look like an option. -/
structure IsOperand (f : String) : Prop where
  nonempty : f ≠ ""
  plain : f.toList.head? ≠ some '-'

/-- Without the options that all commands have, the environment decides on the configuration and
the answer is not JSON. -/
theorem invocation_of_plain (henvironment : environment ≠ some "") {g : Given} (c : Command)
    (hconfig : g.has "config" = false) (hjson : g.has "json" = false) :
    invocation environment [{}, g] (some c) =
      .ok { configPath := environment.getD defaultConfigPath, command := c } := by
  have hopen : g.value? "config" = none := by
    rw [← Option.not_isSome_iff_eq_none, Given.isSome_value?, hconfig]
    exact Bool.false_ne_true
  have hlevels : [{}, g].map (·.value? "config") = [none, none] := by
    simp only [List.map_cons, List.map_nil, hopen]
    rfl
  have hpath : configPath environment [{}, g] = .ok (environment.getD defaultConfigPath) := by
    simp only [configPath, hlevels, henvironment]
    rfl
  have hany : [{}, g].any (·.has "json") = false := by
    simp only [List.any_cons, List.any_nil, hjson]
    rfl
  simp only [invocation, bind, Except.bind, hpath, hany]

/-- A line that begins with the name of a command on files. -/
theorem read_command {name : String} (hname : name ∈ ["show", "simulate", "digest", "verify"])
    (rest : List String) :
    read environment (name :: rest) = ((fileLevel name (optionsOf name)).read {} rest).bind
      fun inner => invocation environment [{}, inner.1] (command? name inner.1) := by
  have hcommand : name.toList.head? ≠ some '-' ∧
      name ∈ (groupLevel programName commandNames).subcommands := by
    revert name
    decide
  rw [read, Level.read_operand hcommand.1, if_pos hcommand.2]
  simp only [List.mem_cons, List.not_mem_nil, or_false] at hname
  rcases hname with rfl | rfl | rfl | rfl <;> rfl

/-- The operand of a level comes first. -/
theorem read_file (hf : IsOperand f) (name : String) (options : List OptionRule)
    (rest : List String) :
    (fileLevel name options).read {} (f :: rest) =
      (fileLevel name options).read { operand := f } rest := by
  rw [Level.read_operand hf.plain]
  simp [fileLevel, Level.addOperand, hf.nonempty, Except.bind]

/-- **A line that asks for a digest**, with each option at most once, is read as it is written. -/
theorem read_digest (hf : IsOperand f) (hflags : DigestFlag.Distinct flags)
    (henvironment : environment ≠ some "") :
    read environment ("digest" :: f :: flags.flatMap DigestFlag.words) = .ok
      { configPath := environment.getD defaultConfigPath
        command := .digest f (digestOptions (DigestFlag.given f flags)) } := by
  have hread : digestLevel.read { operand := f } (flags.flatMap DigestFlag.words) =
      .ok (DigestFlag.given f flags, none) :=
    DigestFlag.read_flatMap_words hflags fun _ _ => rfl
  rw [read_command (by decide), read_file hf, hread]
  exact invocation_of_plain henvironment _ (DigestFlag.has_given_common (by decide))
    (DigestFlag.has_given_common (by decide))

/-- **A line that asks for a check** against the signature is read as it is written. -/
theorem read_verify (hf : IsOperand f) (henvironment : environment ≠ some "") :
    read environment ["verify", f] = .ok
      { configPath := environment.getD defaultConfigPath
        command := .verify f none } := by
  rw [read_command (by decide), read_file hf]
  exact invocation_of_plain henvironment _ rfl rfl

end Arguments
end ClusterTransition
