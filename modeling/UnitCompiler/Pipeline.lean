import UnitCompiler.Report
import UnitCompiler.Settings
import UnitCompiler.Tables
import UnitCompiler.Toolchain

/-!
# The compilation pipeline

Units go through two stages. In the parse stage every unit has a task that reads it, registers its
outline and looks up the names it refers to; once all units are registered the resolution ends, so
that a name nobody declares is not waited for. In the compile stage every unit has a job that makes
its artifacts. Between the stages, and behind the second one, units wait in channels of limited room.
A limited number of permits allows units to be read and generated at once.

All of these go on independently: the pipeline is a system of steps, and any order of its steps is a
run. `Pipeline.run` takes the order in which all units are registered first.
-/

namespace UnitCompiler

/-- What the input hands over. -/
inductive Input where
  | unit (unit : SourceUnit)
  /-- The input failed, for a chain of reasons. -/
  | failure (cause : List String)
  deriving DecidableEq, Repr

/-- A unit with its artifacts. -/
structure CompiledUnit where
  declared : DeclaredUnit
  artifacts : List Artifact
  deriving DecidableEq, Repr

/-- How far the parse task of a unit has come. It holds a permit while it reads and registers. -/
inductive ParsePhase where
  | queued
  | reading
  | registering (state : Registering)
  | resolving (state : Resolving)
  /-- Has diagnostics left to report. -/
  | reporting (unit : DeclaredUnit) (diagnostics : List Diagnostic)
  /-- Waits for room in the channel of declared units. -/
  | sending (unit : DeclaredUnit)
  | finished

structure ParseTask where
  unit : SourceUnit
  phase : ParsePhase := .queued

/-- How far the job of a declared unit has come. It holds a permit while it generates. -/
inductive JobPhase where
  | queued
  | generating
  /-- Waits for room in the channel of compiled units. -/
  | sending (unit : CompiledUnit)
  | finished

structure Job where
  declared : DeclaredUnit
  phase : JobPhase := .queued

inductive ParseStage where
  | accepting
  /-- Waits for all units to be registered. -/
  | awaiting
  | endingTypes
  | endingMethods
  /-- Waits for all tasks to finish. -/
  | joining
  | finished
  deriving DecidableEq, Repr

inductive CompileStage where
  | receiving
  /-- Waits for all jobs to finish. -/
  | joining
  | finished
  deriving DecidableEq, Repr

structure Pipeline where
  settings : Settings
  toolchain : Toolchain
  input : List Input
  parse : ParseStage := .accepting
  tasks : List ParseTask := []
  tables : Tables
  /-- The permits that are free, if their number is limited. -/
  permits : Option Nat
  /-- The channel between the stages. -/
  declared : List DeclaredUnit := []
  compile : CompileStage := .receiving
  jobs : List Job := []
  /-- The channel behind the second stage. -/
  compiled : List CompiledUnit := []
  /-- How many more units are received, if not all. -/
  wanted : Option Nat := none
  received : List CompiledUnit := []
  /-- Records on their way to the reporter. -/
  records : List Record := []
  reported : List Record := []
  /-- The number of the next instance of an intrinsic. -/
  instances : Nat := 1

namespace ParsePhase

/-- Whether a task will not register anything any more. -/
def isDeclared : ParsePhase → Bool
  | .queued | .reading | .registering _ => false
  | .resolving _ | .reporting _ _ | .sending _ | .finished => true

def isFinished : ParsePhase → Bool
  | .finished => true
  | _ => false

/-- Whether a task holds a permit. -/
def holdsPermit : ParsePhase → Bool
  | .reading | .registering _ => true
  | _ => false

end ParsePhase

namespace JobPhase

def isFinished : JobPhase → Bool
  | .finished => true
  | _ => false

def holdsPermit : JobPhase → Bool
  | .generating => true
  | _ => false

end JobPhase

namespace Pipeline

def start (toolchain : Toolchain) (settings : Settings) (input : List Input)
    (wanted : Option Nat) : Pipeline where
  settings
  toolchain
  input
  tables := .withCapacity settings.resolutionBuffer
  permits := settings.maxParallelUnits
  wanted

inductive Action where
  | accept
  /-- The parse stage goes on once its input has ended. -/
  | conclude
  | tables (action : Tables.Action)
  | parse (task : Nat)
  /-- The compile stage takes a declared unit, or goes on once there are no more. -/
  | receive
  | generate (job : Nat)
  | consume
  | report
  deriving DecidableEq, Repr

/-! ## Small changes -/

def record (p : Pipeline) (record : Record) : Pipeline :=
  { p with records := p.records ++ [record] }

def setTask (p : Pipeline) (index : Nat) (phase : ParsePhase) : Pipeline :=
  { p with tasks := p.tasks.modify index fun task => { task with phase } }

def setJob (p : Pipeline) (index : Nat) (phase : JobPhase) : Pipeline :=
  { p with jobs := p.jobs.modify index fun job => { job with phase } }

/-- Takes a permit, if one is free. -/
def acquire? (p : Pipeline) : Option Pipeline :=
  match p.permits with
  | none => some p
  | some 0 => none
  | some (free + 1) => some { p with permits := some free }

def release (p : Pipeline) : Pipeline :=
  { p with permits := p.permits.map (· + 1) }

/-- Whether nobody receives compiled units any more. -/
def isAbandoned (p : Pipeline) : Bool := p.wanted == some 0

/-! ## The parse stage -/

/-- The number under which the stage itself uses the tables. -/
def stageCaller : Nat := 0

/-- The number under which a task uses the tables. -/
def taskCaller (task : Nat) : Nat := task + 1

def accept? (p : Pipeline) : Option Pipeline :=
  if p.parse ≠ .accepting then none
  else
    match p.input with
    | [] => some { p with parse := .awaiting }
    | .unit unit :: input => some { p with input, tasks := p.tasks ++ [{ unit }] }
    | .failure cause :: input =>
      let p := p.record (.parsing none ("Failed to receive a compilation unit" :: cause))
      match p.settings.inputErrors with
      | .keepGoing => some { p with input }
      | .failFast => some { p with input := [], parse := .awaiting }

def conclude? (p : Pipeline) : Option Pipeline :=
  match p.parse with
  | .accepting => none
  | .awaiting =>
    if p.tasks.all (·.phase.isDeclared) then
      let types := p.tables.types.post stageCaller .finish
      some { p with parse := .endingTypes, tables := { p.tables with types } }
    else none
  | .endingTypes =>
    (p.tables.types.takeReply? stageCaller).map fun (_, types) =>
      let methods := p.tables.methods.post stageCaller .finish
      { p with parse := .endingMethods, tables := ⟨types, methods⟩ }
  | .endingMethods =>
    (p.tables.methods.takeReply? stageCaller).map fun (_, methods) =>
      { p with parse := .joining, tables := { p.tables with methods } }
  | .joining =>
    if p.tasks.all (·.phase.isFinished) then some { p with parse := .finished } else none
  | .finished => none

/-- A task ends with an error. -/
def failTask (p : Pipeline) (index : Nat) (unit : SourceUnit) (error : DeclareError) : Pipeline :=
  let path := unit.displayPath
  (p.record (.parsing (some path) (s!"Failed to parse {path}" :: error.chain))).setTask index .finished

def crashTask (p : Pipeline) (index : Nat) (unit : SourceUnit) (text : String) : Pipeline :=
  let path := unit.displayPath
  (p.record (.parsing (some path) [s!"Parse task for {path} panicked: {text}"])).setTask index
    .finished

/-- The names of a unit are known: its faults are reported and its declaration is sent on. -/
def emitTask (p : Pipeline) (index : Nat) (o : Outline) (references : References) : Pipeline :=
  let (unit, diagnostics, instances) := o.emit p.toolchain.inliner p.instances references
  { p with instances }.setTask index (.reporting unit diagnostics)

def parseTask? (p : Pipeline) (index : Nat) : Option Pipeline :=
  match p.tasks[index]? with
  | none => none
  | some task =>
    match task.phase with
    | .queued => p.acquire?.map fun p => p.setTask index .reading
    | .reading =>
      match Outline.read p.toolchain.grammar task.unit with
      | .ok outline => some (p.setTask index (.registering { outline }))
      | .error (.error e) => some (p.release.failTask index task.unit e)
      | .error (.crash message) => some (p.release.crashTask index task.unit (crashText message))
    | .registering state =>
      (state.step? (taskCaller index) p.tables).map fun
        | (.continuing next, tables) => { p with tables }.setTask index (.registering next)
        | (.finished o, tables) => { p.release with tables }.setTask index (.resolving (.start o))
        | (.failed e, tables) => { p.release with tables }.failTask index task.unit e
    | .resolving state =>
      (state.step? p.tables).map fun
        | (.continuing next, tables) => { p with tables }.setTask index (.resolving next)
        | (.finished references, tables) =>
          { p with tables }.emitTask index state.outline references
        | (.failed e, tables) => { p with tables }.failTask index task.unit e
    | .reporting unit (diagnostic :: rest) =>
      some ((p.record (.diagnostic diagnostic)).setTask index (.reporting unit rest))
    | .reporting unit [] => some (p.setTask index (.sending unit))
    | .sending unit =>
      if p.declared.length < p.settings.channelCapacity then
        some ({ p with declared := p.declared ++ [unit] }.setTask index .finished)
      else none
    | .finished => none

/-! ## The compile stage -/

def receive? (p : Pipeline) : Option Pipeline :=
  match p.compile with
  | .receiving =>
    match p.declared with
    | unit :: declared => some { p with declared, jobs := p.jobs ++ [{ declared := unit }] }
    | [] => if p.parse = .finished then some { p with compile := .joining } else none
  | .joining =>
    if p.jobs.all (·.phase.isFinished) then some { p with compile := .finished } else none
  | .finished => none

def failJob (p : Pipeline) (index : Nat) (unit : SourceUnit) (cause : List String) : Pipeline :=
  (p.record (.compilation (some unit.displayPath) cause)).setJob index .finished

def generate? (p : Pipeline) (index : Nat) : Option Pipeline :=
  match p.jobs[index]? with
  | none => none
  | some job =>
    let unit := job.declared.unit
    let path := unit.displayPath
    match job.phase with
    | .queued => p.acquire?.map fun p => p.setJob index .generating
    | .generating =>
      match p.toolchain.backend unit.fileName job.declared.declaration with
      | .ok artifacts => some (p.release.setJob index (.sending ⟨job.declared, artifacts⟩))
      | .error (.error e) =>
        some (p.release.failJob index unit (s!"Failed to generate code for {path}" :: e.chain))
      | .error (.crash message) =>
        let text := crashText message
        some (p.release.failJob index unit [s!"Code generation for {path} panicked: {text}"])
    | .sending compiled =>
      if p.isAbandoned then some (p.setJob index .finished)
      else if p.compiled.length < p.settings.channelCapacity then
        some ({ p with compiled := p.compiled ++ [compiled] }.setJob index .finished)
      else none
    | .finished => none

/-! ## Behind the stages -/

/-- Whoever wants the units takes one. When it wants no more, those that wait are dropped. -/
def consume? (p : Pipeline) : Option Pipeline :=
  match p.wanted, p.compiled with
  | some 0, _ => none
  | _, [] => none
  | none, unit :: compiled => some { p with compiled, received := p.received ++ [unit] }
  | some 1, unit :: _ =>
    some { p with compiled := [], received := p.received ++ [unit], wanted := some 0 }
  | some (n + 2), unit :: compiled =>
    some { p with compiled, received := p.received ++ [unit], wanted := some (n + 1) }

def report? (p : Pipeline) : Option Pipeline :=
  match p.records with
  | [] => none
  | record :: records => some { p with records, reported := p.reported ++ [record] }

/-! ## Runs -/

def perform (p : Pipeline) : Action → Option Pipeline
  | .accept => p.accept?
  | .conclude => p.conclude?
  | .tables action => (p.tables.perform action).map fun tables => { p with tables }
  | .parse task => p.parseTask? task
  | .receive => p.receive?
  | .generate job => p.generate? job
  | .consume => p.consume?
  | .report => p.report?

/-- Everything has been done and reported, and received by whoever wants it. -/
def isFinished (p : Pipeline) : Bool :=
  p.parse == .finished && p.compile == .finished && p.compiled.isEmpty && p.records.isEmpty

/-- The tasks that may still register something. -/
def undeclared (p : Pipeline) : List Nat :=
  (List.range p.tasks.length).filter fun index =>
    (p.tasks[index]?).any fun task => !task.phase.isDeclared

/-- All steps in the order in which `run` prefers them. -/
def actions (p : Pipeline) : List Action :=
  Action.accept :: p.undeclared.map Action.parse ++
    p.tables.actions.map Action.tables ++
    Action.conclude :: (List.range p.tasks.length).map Action.parse ++
    Action.receive :: (List.range p.jobs.length).map Action.generate ++
    [Action.consume, Action.report]

def next? (p : Pipeline) : Option Pipeline :=
  p.actions.findSome? p.perform

def inputSize : Input → Nat
  | .unit unit =>
    match unit.content with
    | .text source => source.length + 8
    | _ => 8
  | .failure _ => 8

/-- The most steps that `run` takes. -/
def budget (input : List Input) : Nat :=
  let size := input.foldl (fun n next => n + inputSize next) 8
  16 * size * size

/-- Takes steps in the order of preference until none is enabled or the budget is spent. -/
def run (p : Pipeline) : Pipeline :=
  runSteps next? (budget p.input) p

def summary (p : Pipeline) : Summary := .ofRecords p.reported

end Pipeline

/-- What a compilation leaves behind. -/
structure Outcome where
  units : List CompiledUnit
  records : List Record
  deriving DecidableEq, Repr

namespace Outcome

def summary (o : Outcome) : Summary := .ofRecords o.records

end Outcome

/-- Compiles all units of the input and receives as many of them as wanted. -/
def compileInput (toolchain : Toolchain) (settings : Settings) (input : List Input)
    (wanted : Option Nat := none) : Except SettingsError Outcome :=
  match settings.validate, settings.checkLimits with
  | .error e, _ => .error e
  | .ok _, .error e => .error e
  | .ok _, .ok _ =>
    let p := (Pipeline.start toolchain settings input wanted).run
    .ok ⟨p.received, p.reported⟩

/-- A unit that was compiled on its own has no output. -/
structure UnitFailed where
  path : String
  /-- How many errors were reported. -/
  errors : Nat
  deriving DecidableEq, Repr

def UnitFailed.message (e : UnitFailed) : String :=
  s!"Unit '{e.path}' did not compile ({e.errors} error(s) reported)"

/-- The result for one unit out of the compilation of that unit alone. -/
def Outcome.single (o : Outcome) (unit : SourceUnit) : Except UnitFailed CompiledUnit :=
  match o.units with
  | compiled :: _ => .ok compiled
  | [] => .error ⟨unit.displayPath, o.summary.total⟩

end UnitCompiler
