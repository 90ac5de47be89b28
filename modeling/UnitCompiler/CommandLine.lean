import UnitCompiler.Text.Numeric

/-!
# The command line

`firefly [-v] [-d] compile <source> [-o <output>] [-c <settings>] [-j <number>] [--keep-going]`.
Arguments are read from left to right and the first one that decides the outcome does so: a request
for help or for the version, or a mistake. An option's value is looked at when the next argument
comes.
-/

namespace UnitCompiler

structure CompileOptions where
  source : String
  output : String := "out"
  /-- The file with the settings. -/
  config : Option String := none
  jobs : Option Nat := none
  keepGoing : Bool := false
  deriving DecidableEq, Repr

/-- What the arguments ask for. -/
inductive Command where
  | help
  | version
  | misuse
  | compile (options : CompileOptions)
  deriving DecidableEq, Repr

namespace CommandLine

/-- What takes a value. -/
inductive Slot where
  | source
  | output
  | config
  | jobs
  deriving DecidableEq, Repr

/-- The arguments of `compile` read so far. -/
structure Reading where
  source : Option String := none
  output : Option String := none
  config : Option String := none
  jobs : Option Nat := none
  keepGoing : Bool := false
  /-- What was given last, with its value if that has come. -/
  pending : Option (Slot × Option String) := none
  /-- Whether two dashes have ended the options. -/
  optionsEnded : Bool := false
  deriving Repr

/-- A count: digits, with an optional plus in front, of 64 bits. -/
def count? (text : String) : Option Nat :=
  let digits := match text.toList with
    | '+' :: rest => rest
    | chars => chars
  if digits.isEmpty || !digits.all Text.isDigit then none
  else
    let n := digits.foldl (fun n c => 10 * n + (c.toNat - 48)) 0
    if n < 0x10000000000000000 then some n else none

/-- A path that was not given before and is not empty. -/
def path? (old : Option String) (path : String) : Option (Option String) :=
  if old.isSome || path.isEmpty then none else some (some path)

def Reading.set? (r : Reading) (slot : Slot) (value : String) : Option Reading :=
  match slot with
  | .source => (path? r.source value).map fun source => { r with source }
  | .output => (path? r.output value).map fun output => { r with output }
  | .config => (path? r.config value).map fun config => { r with config }
  | .jobs => if r.jobs.isSome then none else (count? value).map fun n => { r with jobs := some n }

/-- Takes in what was given last. -/
def Reading.resolve? (r : Reading) : Option Reading :=
  match r.pending with
  | none => some r
  | some (_, none) => none
  | some (slot, some value) => { r with pending := none }.set? slot value

/-- Takes an option whose value may be attached to it. -/
def Reading.option? (r : Reading) (slot : Slot) (attached : Option String) : Option Reading := do
  let r ← r.resolve?
  match attached with
  | some value => r.set? slot value
  | none => return { r with pending := some (slot, none) }

/-- Takes an argument that stands on its own. -/
def Reading.positional? (r : Reading) (value : String) : Option Reading := do
  let r ← r.resolve?
  if r.source.isSome then none
  else return { r with pending := some (.source, some value) }

def Reading.keepGoing? (r : Reading) : Option Reading := do
  let r ← r.resolve?
  if r.keepGoing then none else return { r with keepGoing := true }

/-- What one argument comes to. -/
inductive Verdict where
  | help
  | misuse
  | next (reading : Reading)

def Verdict.ofOption : Option Reading → Verdict
  | some r => .next r
  | none => .misuse

/-- Help is shown unless what stands before is wrong already. -/
def Reading.help (r : Reading) : Verdict :=
  if r.resolve?.isSome then .help else .misuse

/-- The parts of a long option before and after its first equals sign. -/
def splitLong (chars : List Char) : String × Option String :=
  (String.ofList (chars.takeWhile (· != '=')),
    match chars.dropWhile (· != '=') with
    | _ :: value => some (String.ofList value)
    | [] => none)

def readLong (r : Reading) (chars : List Char) : Verdict :=
  match splitLong chars with
  | ("help", none) => r.help
  | ("keep-going", none) => .ofOption r.keepGoing?
  | ("output", value) => .ofOption (r.option? .output value)
  | ("config", value) => .ofOption (r.option? .config value)
  | ("jobs", value) => .ofOption (r.option? .jobs value)
  | _ => .misuse

/-- The value attached to a short option, an equals sign in front of it aside. -/
def attached? : List Char → Option String
  | [] => none
  | '=' :: value => some (String.ofList value)
  | value => some (String.ofList value)

def readShort (r : Reading) : List Char → Verdict
  | 'h' :: _ => r.help
  | 'o' :: rest => .ofOption (r.option? .output (attached? rest))
  | 'c' :: rest => .ofOption (r.option? .config (attached? rest))
  | 'j' :: rest => .ofOption (r.option? .jobs (attached? rest))
  | _ => .misuse

/-- A value that an option waits for, or else an argument on its own. -/
def readPlain (r : Reading) (arg : String) : Verdict :=
  match r.pending with
  | some (slot, none) => .next { r with pending := some (slot, some arg) }
  | _ => .ofOption (r.positional? arg)

def readArgument (r : Reading) (arg : String) : Verdict :=
  if r.optionsEnded then .ofOption (r.positional? arg)
  else
    match arg.toList with
    | ['-', '-'] => .next { r with optionsEnded := true }
    | '-' :: '-' :: chars => readLong r chars
    | ['-'] => readPlain r arg
    | '-' :: chars => readShort r chars
    | _ => readPlain r arg

/-- The command, once all arguments are read. A setting from the environment stands in for the file
with the settings. -/
def Reading.finish (r : Reading) (environment : Option String) : Command :=
  let complete := do
    let r ← r.resolve?
    let r ← match r.config, environment with
      | none, some path => r.set? .config path
      | _, _ => some r
    let source ← r.source
    return { source, output := r.output.getD "out", config := r.config, jobs := r.jobs,
             keepGoing := r.keepGoing }
  match complete with
  | some options => .compile options
  | none => .misuse

def readCompile (environment : Option String) : Reading → List String → Command
  | r, [] => r.finish environment
  | r, arg :: rest =>
    match readArgument r arg with
    | .help => .help
    | .misuse => .misuse
    | .next r => readCompile environment r rest

/-- The flags in front of the command. -/
structure Flags where
  verbose : Bool := false
  debug : Bool := false

/-- What flags in front of the command come to. -/
inductive FlagVerdict where
  | command (command : Command)
  | next (flags : Flags)

def Flags.verbose? (f : Flags) : FlagVerdict :=
  if f.verbose then .command .misuse else .next { f with verbose := true }

def Flags.debug? (f : Flags) : FlagVerdict :=
  if f.debug then .command .misuse else .next { f with debug := true }

def readShortFlags (f : Flags) : List Char → FlagVerdict
  | [] => .next f
  | c :: rest =>
    let verdict : FlagVerdict := match c with
      | 'v' => f.verbose?
      | 'd' => f.debug?
      | 'h' => .command .help
      | 'V' => .command .version
      | _ => .command .misuse
    match verdict with
    | .command command => .command command
    | .next f => readShortFlags f rest

def readFlag (f : Flags) (arg : String) : FlagVerdict :=
  match arg.toList with
  | '-' :: '-' :: chars =>
    match String.ofList chars with
    | "verbose" => f.verbose?
    | "debug" => f.debug?
    | "help" => .command .help
    | "version" => .command .version
    | _ => .command .misuse
  | '-' :: c :: rest => readShortFlags f (c :: rest)
  | _ => .command .misuse

/-- Help on the whole program, on `compile` or on `help` itself. -/
def readHelp : List String → Command
  | [] => .help
  | ["compile"] => .help
  | ["help"] => .help
  | _ => .misuse

def readArguments (environment : Option String) : Flags → List String → Command
  | _, [] => .misuse
  | f, arg :: rest =>
    if arg = "compile" then readCompile environment {} rest
    else if arg = "help" then readHelp rest
    else
      match readFlag f arg with
      | .command command => command
      | .next f => readArguments environment f rest

end CommandLine

/-- The command that arguments ask for. The path of the settings may also come from the
environment. -/
def Command.parse (environment : Option String) (arguments : List String) : Command :=
  CommandLine.readArguments environment {} arguments

end UnitCompiler
