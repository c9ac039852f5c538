/-! # Options and operands

A command line has levels: each subcommand opens a new one.  The arguments of a level are read from
left to right.  An option is written out after two dashes, and its value follows an equality sign or
is the next argument; options without a value may have a letter too, and letters can be put together
after one dash.  After two dashes alone, all arguments are operands.
-/

namespace ClusterTransition

/-- What ends the reading before a command was found. -/
inductive Stop where
  /-- The arguments do not make a command. -/
  | usage
  /-- An explanation is asked for. -/
  | help
  /-- The version is asked for; the program may be named after its subcommand. -/
  | version (program : String)
  deriving DecidableEq, Repr

/-- What an option stands for. -/
inductive OptionKind where
  | flag
  /-- The option has a value, and can be given more than once if it `repeats`. -/
  | value (accepts : String → Bool) (repeats : Bool)
  /-- The option ends the reading. -/
  | stop (reason : Stop)

/-- An option that a level has. -/
structure OptionRule where
  name : String
  letter : Option Char := none
  kind : OptionKind

/-- Whether an option has a value. -/
def OptionRule.hasValue (r : OptionRule) : Bool :=
  match r.kind with
  | .value .. => true
  | _ => false

/-- What may be given at a level. -/
structure Level where
  options : List OptionRule
  /-- Which operands there can be; a level has at most one. -/
  operand : Option (String → Bool) := none
  subcommands : List String := []

/-- What was given at a level. -/
structure Given where
  /-- The options and their values in order; the value of a flag is empty. -/
  options : List (String × String) := []
  operand : Option String := none
  deriving DecidableEq, Repr

namespace Given

/-- Whether an option was given. -/
def has (g : Given) (name : String) : Bool := g.options.any (·.1 = name)

/-- The values that an option was given. -/
def values (g : Given) (name : String) : List String :=
  (g.options.filter (·.1 = name)).map (·.2)

/-- The value that an option was given. -/
def value? (g : Given) (name : String) : Option String := (g.values name).head?

/-- Adds an option, with a value if one is written. -/
def add (g : Given) (rule : OptionRule) (value : Option String) : Except Stop Given :=
  let added (v : String) : Given := { g with options := g.options ++ [(rule.name, v)] }
  match rule.kind, value with
  | .stop reason, none => .error reason
  | .flag, none => if g.has rule.name then .error .usage else .ok (added "")
  | .value accepts repeats, some v =>
    if accepts v && (repeats || !g.has rule.name) then .ok (added v) else .error .usage
  | _, _ => .error .usage

end Given

namespace Level

/-- Adds an operand. -/
def addOperand (l : Level) (g : Given) (arg : String) : Except Stop Given :=
  match l.operand, g.operand with
  | some accepts, none => if accepts arg then .ok { g with operand := arg } else .error .usage
  | _, _ => .error .usage

/-- Adds the option with a letter. -/
def addLetter (l : Level) (g : Given) (c : Char) : Except Stop Given :=
  match l.options.find? (·.letter = some c) with
  | some rule => g.add rule none
  | none => .error .usage

/-- The name of an option that is written out, and the value after the equality sign. -/
def splitOption (cs : List Char) : String × Option String :=
  (String.ofList (cs.takeWhile (· ≠ '=')),
    match cs.dropWhile (· ≠ '=') with
    | [] => none
    | _ :: value => some (String.ofList value))

/-- Whether an argument can be the value of the option before it. -/
def isValue (arg : String) : Bool := arg = "-" || arg.toList.head? ≠ some '-'

/-- Reads the arguments of a level: what is given, and the subcommand with its arguments. -/
def read (l : Level) (g : Given) :
    List String → Except Stop (Given × Option (String × List String))
  | [] => .ok (g, none)
  | arg :: rest =>
    match arg.toList with
    | ['-', '-'] => (rest.foldlM l.addOperand g).map fun g => (g, none)
    | '-' :: '-' :: cs =>
      let (name, attached) := splitOption cs
      match l.options.find? (·.name = name) with
      | none => .error .usage
      | some rule =>
        if rule.hasValue && attached.isNone then
          match rest with
          | [] => .error .usage
          | value :: rest =>
            if isValue value then (g.add rule (some value)).bind fun g => l.read g rest
            else .error .usage
        else (g.add rule attached).bind fun g => l.read g rest
    | '-' :: c :: cs => ((c :: cs).foldlM l.addLetter g).bind fun g => l.read g rest
    | _ =>
      if arg ∈ l.subcommands then .ok (g, some (arg, rest))
      else (l.addOperand g arg).bind fun g => l.read g rest

end Level
end ClusterTransition
