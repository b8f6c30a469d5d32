import JavaStubs.Files.Path

/-!
# Command line arguments

The arguments are options for the program, then a command, then options for it. An option with a
value has it in the next argument or attached to its own; options of one letter can share an
argument. No option may be given twice on one level, and paths are not empty.

What is given is checked when another option follows and at the end of a level. So a command that
asks for help gets it even if the option before the command is given twice.
-/
namespace JavaStubs.Command

/-- An option with a value. -/
inductive ValueOption where
  | model
  | config
  | output
  | log
  deriving DecidableEq, Repr

/-- Whether the value of an option is a path. -/
def ValueOption.isPath (option : ValueOption) : Bool := option ≠ .log

/-- An option without a value. -/
inductive Flag where
  | noGenerics
  | requireSuperResolved
  | dryRun
  | help
  | version
  deriving DecidableEq, Repr

/-- An option of either kind. -/
inductive Switch where
  | valued (option : ValueOption)
  | flag (flag : Flag)
  deriving DecidableEq, Repr

/-- Why no command is run. -/
inductive Refusal where
  /-- Help is asked for. -/
  | help
  /-- The version is asked for. -/
  | version
  /-- The arguments are wrong. -/
  | wrongArguments
  deriving DecidableEq, Repr

/-- The commands. -/
inductive Verb where
  | generate
  | clean
  | help
  deriving DecidableEq, Repr

/-- The command of that name. -/
def Verb.ofName? : String → Option Verb
  | "generate" => some .generate
  | "clean" => some .clean
  | "help" => some .help
  | _ => none

/-- What may be given on a level of the command line. -/
structure Level where
  long : List (String × Switch)
  short : List (Char × Switch)
  /-- Whether a command is due. -/
  hasVerbs : Bool

namespace Level

/-- Before the command. -/
def program : Level where
  long := [("log", .valued .log), ("help", .flag .help), ("version", .flag .version)]
  short := [('h', .flag .help), ('V', .flag .version)]
  hasVerbs := true

/-- After `clean`. -/
def clean : Level where
  long :=
    [("model", .valued .model), ("config", .valued .config), ("output", .valued .output),
     ("log", .valued .log), ("dry-run", .flag .dryRun), ("help", .flag .help)]
  short :=
    [('m', .valued .model), ('c', .valued .config), ('o', .valued .output), ('h', .flag .help)]
  hasVerbs := false

/-- After `generate`. -/
def generate : Level :=
  { clean with
    long := clean.long ++
      [("no-generics", .flag .noGenerics),
       ("require-super-resolved", .flag .requireSuperResolved)] }

/-- The command that an argument names. -/
def verb? (level : Level) (argument : String) : Option Verb :=
  if level.hasVerbs then Verb.ofName? argument else none

end Level

/-- What was given on a level, in reverse. -/
structure Given where
  values : List (ValueOption × String) := []
  flags : List Flag := []
  deriving DecidableEq, Repr

namespace Given

/-- Whether no option is given twice and no path is empty. -/
def isProper (given : Given) : Bool :=
  (given.values.map Prod.fst).Nodup && given.flags.Nodup &&
    given.values.all fun (option, value) => !(option.isPath && value.isEmpty)

/-- What was given, if it is proper. -/
def check (given : Given) : Except Refusal Given :=
  if given.isProper then .ok given else .error .wrongArguments

/-- The value of an option. -/
def value? (given : Given) (option : ValueOption) : Option String :=
  given.values.lookup option

/-- The path that is the value of an option. -/
def path? (given : Given) (option : ValueOption) : Option Path :=
  (given.value? option).map Path.ofString

/-- Whether a flag was given. -/
def has (given : Given) (flag : Flag) : Bool := given.flags.contains flag

/-- One more value, not checked yet. -/
def addValue (given : Given) (option : ValueOption) (value : String) : Given :=
  { given with values := (option, value) :: given.values }

/-- One more value that is attached to its option. -/
def attach (given : Given) (option : ValueOption) (value : String) : Except Refusal Given := do
  let given ← given.check
  (given.addValue option value).check

/-- One more flag. -/
def addFlag (given : Given) (flag : Flag) : Except Refusal Given := do
  let given ← given.check
  match flag with
  | .help => .error .help
  | .version => .error .version
  | flag => Given.check { given with flags := flag :: given.flags }

end Given

/-- What is given after an option, and the option whose value is still due. -/
abbrev Awaiting := Given × Option ValueOption

/-- A long option, after its two hyphens. -/
def readLong (level : Level) (given : Given) (text : List Char) : Except Refusal Awaiting := do
  let name := String.ofList (text.takeWhile (· != '='))
  match level.long.lookup name, text.dropWhile (· != '=') with
  | some (.flag flag), [] => return (← given.addFlag flag, none)
  | some (.valued option), [] => return (← given.check, some option)
  | some (.valued option), _ :: value =>
    return (← given.attach option (String.ofList value), none)
  | _, _ => .error .wrongArguments

/-- Options of one letter, after their hyphen. -/
def readShort (level : Level) (given : Given) : List Char → Except Refusal Awaiting
  | [] => .ok (given, none)
  | letter :: rest =>
    match level.short.lookup letter, rest with
    | some (.flag flag), rest => do
      let given ← given.addFlag flag
      readShort level given rest
    | some (.valued option), [] => do return (← given.check, some option)
    | some (.valued option), '=' :: value =>
      do return (← given.attach option (String.ofList value), none)
    | some (.valued option), value =>
      do return (← given.attach option (String.ofList value), none)
    | none, _ => .error .wrongArguments

/-- Whether an argument can be the value of the option before it. -/
def isValue (argument : String) : Bool :=
  match argument.toList with
  | '-' :: _ :: _ => false
  | _ => true

/-- A level that was read, with the command after it and the arguments of that. -/
structure Outline where
  given : Given
  verb : Option (Verb × List String)

/-- Reads a level. If a value is awaited the first argument is it. -/
def Level.read (level : Level) (given : Given) (awaited : Option ValueOption) :
    List String → Except Refusal Outline
  | [] => do
    if awaited.isSome then .error .wrongArguments
    return ⟨← given.check, none⟩
  | argument :: rest =>
    match awaited with
    | some option =>
      if isValue argument then level.read (given.addValue option argument) none rest
      else .error .wrongArguments
    | none =>
      match level.verb? argument, argument.toList with
      | some verb, _ => .ok ⟨given, some (verb, rest)⟩
      | none, ['-', '-'] => do
        if !rest.isEmpty then .error .wrongArguments
        return ⟨← given.check, none⟩
      | none, '-' :: '-' :: text => do
        let (given, awaited) ← readLong level given text
        level.read given awaited rest
      | none, '-' :: letter :: text => do
        let (given, awaited) ← readShort level given (letter :: text)
        level.read given awaited rest
      | none, _ => .error .wrongArguments

/-- What is to be done with a model. -/
inductive Task where
  | generate (noGenerics requireSuperResolved : Bool)
  | clean
  deriving DecidableEq, Repr

/-- A command with its options. -/
structure Request where
  task : Task
  model : Path
  config : Option Path
  output : Option Path
  dryRun : Bool
  deriving DecidableEq, Repr

/-- The command that the options of its level make; it needs a model. -/
def Request.ofGiven (task : Given → Task) (given : Given) : Except Refusal Request :=
  match given.path? .model with
  | none => .error .wrongArguments
  | some model =>
    .ok
      { task := task given
        model
        config := given.path? .config
        output := given.path? .output
        dryRun := given.has .dryRun }

/-- Reads the arguments of a command. -/
def Request.read (verb : Verb) (arguments : List String) : Except Refusal Request :=
  match verb with
  | .generate => do
    let outline ← Level.generate.read {} none arguments
    Request.ofGiven (fun given =>
      .generate (given.has .noGenerics) (given.has .requireSuperResolved)) outline.given
  | .clean => do
    let outline ← Level.clean.read {} none arguments
    Request.ofGiven (fun _ => .clean) outline.given
  | .help =>
    match arguments with
    | [] => .error .help
    | [name] => .error (if (Verb.ofName? name).isSome then .help else .wrongArguments)
    | _ => .error .wrongArguments

/-- Reads a command line. -/
def Request.parse (arguments : List String) : Except Refusal Request := do
  let outline ← Level.program.read {} none arguments
  match outline.verb with
  | none => .error .wrongArguments
  | some (verb, arguments) =>
    let request ← Request.read verb arguments
    let _ ← outline.given.check
    return request

end JavaStubs.Command
