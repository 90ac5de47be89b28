import UnitCompiler.Pipeline
import UnitCompiler.Proofs.Schedule

/-! What one step of a pipeline can do. Everything said about runs is derived from these moves; the
step function itself is opened here only. -/

namespace UnitCompiler

def SourceUnit.parsingRecord (unit : SourceUnit) (failure : Failure DeclareError) : Record :=
  let path := unit.displayPath
  match failure with
  | .error e => .parsing (some path) (s!"Failed to parse {path}" :: e.chain)
  | .crash message =>
    .parsing (some path) [s!"Parse task for {path} panicked: {crashText message}"]

def SourceUnit.compilationRecord (unit : SourceUnit) (failure : Failure ImageError) : Record :=
  let path := unit.displayPath
  match failure with
  | .error e => .compilation (some path) (s!"Failed to generate code for {path}" :: e.chain)
  | .crash message =>
    .compilation (some path) [s!"Code generation for {path} panicked: {crashText message}"]

namespace Pipeline

def inputRecord (cause : List String) : Record :=
  .parsing none ("Failed to receive a compilation unit" :: cause)

def execute (p : Pipeline) (schedule : List Action) : Option Pipeline := runSchedule perform p schedule

inductive Move (p : Pipeline) : Pipeline → Prop where
  -- The parse stage takes its input.
  | exhaust (stage : p.parse = .accepting) (input : p.input = []) :
      Move p { p with parse := .awaiting }
  | accept (stage : p.parse = .accepting) (unit : SourceUnit) (rest : List Input)
      (input : p.input = .unit unit :: rest) :
      Move p { p with input := rest, tasks := p.tasks ++ [{ unit }] }
  | skip (stage : p.parse = .accepting) (cause : List String) (rest : List Input)
      (input : p.input = .failure cause :: rest) (policy : p.settings.inputErrors = .keepGoing) :
      Move p ({ p with input := rest }.record (inputRecord cause))
  | abort (stage : p.parse = .accepting) (cause : List String) (rest : List Input)
      (input : p.input = .failure cause :: rest) (policy : p.settings.inputErrors = .failFast) :
      Move p ({ p with input := [], parse := .awaiting }.record (inputRecord cause))
  -- It ends the resolution and waits for its tasks.
  | endTypes (stage : p.parse = .awaiting)
      (declared : p.tasks.all (·.phase.isDeclared) = true) :
      Move p { p with
        parse := .endingTypes
        tables := { p.tables with types := p.tables.types.post stageCaller .finish } }
  | endMethods (stage : p.parse = .endingTypes) (reply : Reply TypeDeclaration)
      (types : Table TypeDeclaration)
      (taken : p.tables.types.takeReply? stageCaller = some (reply, types)) :
      Move p { p with
        parse := .endingMethods
        tables := ⟨types, p.tables.methods.post stageCaller .finish⟩ }
  | endResolution (stage : p.parse = .endingMethods) (reply : Reply MethodDeclaration)
      (methods : Table MethodDeclaration)
      (taken : p.tables.methods.takeReply? stageCaller = some (reply, methods)) :
      Move p { p with parse := .joining, tables := { p.tables with methods } }
  | join (stage : p.parse = .joining) (finished : p.tasks.all (·.phase.isFinished) = true) :
      Move p { p with parse := .finished }
  | tables (action : Tables.Action) (tables : Tables)
      (moved : p.tables.perform action = some tables) : Move p { p with tables }
  -- A parse task goes on.
  | enter (index : Nat) (task : ParseTask) (there : p.tasks[index]? = some task)
      (phase : task.phase = .queued) (permits : Option Nat)
      (acquired : p.acquire? = some { p with permits }) :
      Move p ({ p with permits }.setTask index .reading)
  | read (index : Nat) (task : ParseTask) (there : p.tasks[index]? = some task)
      (phase : task.phase = .reading) (outline : Outline)
      (read : Outline.read p.toolchain.grammar task.unit = .ok outline) :
      Move p (p.setTask index (.registering { outline }))
  | refuse (index : Nat) (task : ParseTask) (there : p.tasks[index]? = some task)
      (phase : task.phase = .reading) (failure : Failure DeclareError)
      (read : Outline.read p.toolchain.grammar task.unit = .error failure) :
      Move p ((p.release.record (task.unit.parsingRecord failure)).setTask index .finished)
  | register (index : Nat) (task : ParseTask) (there : p.tasks[index]? = some task)
      (state : Registering) (phase : task.phase = .registering state) (next : Registering)
      (tables : Tables)
      (step : state.step? (taskCaller index) p.tables = some (.continuing next, tables)) :
      Move p ({ p with tables }.setTask index (.registering next))
  | declare (index : Nat) (task : ParseTask) (there : p.tasks[index]? = some task)
      (state : Registering) (phase : task.phase = .registering state) (outline : Outline)
      (tables : Tables)
      (step : state.step? (taskCaller index) p.tables = some (.finished outline, tables)) :
      Move p ({ p with tables }.release.setTask index (.resolving (.start outline)))
  | bar (index : Nat) (task : ParseTask) (there : p.tasks[index]? = some task)
      (state : Registering) (phase : task.phase = .registering state) (error : DeclareError)
      (tables : Tables)
      (step : state.step? (taskCaller index) p.tables = some (.failed error, tables)) :
      Move p ({ p with tables }.release.failTask index task.unit error)
  | inquire (index : Nat) (task : ParseTask) (there : p.tasks[index]? = some task)
      (state : Resolving) (phase : task.phase = .resolving state) (next : Resolving)
      (tables : Tables) (step : state.step? p.tables = some (.continuing next, tables)) :
      Move p ({ p with tables }.setTask index (.resolving next))
  | emit (index : Nat) (task : ParseTask) (there : p.tasks[index]? = some task)
      (state : Resolving) (phase : task.phase = .resolving state) (references : References)
      (tables : Tables) (step : state.step? p.tables = some (.finished references, tables))
      (unit : DeclaredUnit) (diagnostics : List Diagnostic) (instances : Nat)
      (emitted : state.outline.emit p.toolchain.inliner p.instances references =
        (unit, diagnostics, instances)) :
      Move p ({ p with tables, instances }.setTask index (.reporting unit diagnostics))
  | lose (index : Nat) (task : ParseTask) (there : p.tasks[index]? = some task)
      (state : Resolving) (phase : task.phase = .resolving state) (error : DeclareError)
      (tables : Tables) (step : state.step? p.tables = some (.failed error, tables)) :
      Move p ({ p with tables }.failTask index task.unit error)
  | diagnose (index : Nat) (task : ParseTask) (there : p.tasks[index]? = some task)
      (unit : DeclaredUnit) (diagnostic : Diagnostic) (rest : List Diagnostic)
      (phase : task.phase = .reporting unit (diagnostic :: rest)) :
      Move p ((p.record (.diagnostic diagnostic)).setTask index (.reporting unit rest))
  | diagnosed (index : Nat) (task : ParseTask) (there : p.tasks[index]? = some task)
      (unit : DeclaredUnit) (phase : task.phase = .reporting unit []) :
      Move p (p.setTask index (.sending unit))
  | send (index : Nat) (task : ParseTask) (there : p.tasks[index]? = some task)
      (unit : DeclaredUnit) (phase : task.phase = .sending unit)
      (room : p.declared.length < p.settings.channelCapacity) :
      Move p ({ p with declared := p.declared ++ [unit] }.setTask index .finished)
  -- The compile stage takes declared units.
  | receive (stage : p.compile = .receiving) (unit : DeclaredUnit) (rest : List DeclaredUnit)
      (waiting : p.declared = unit :: rest) :
      Move p { p with declared := rest, jobs := p.jobs ++ [{ declared := unit }] }
  | close (stage : p.compile = .receiving) (empty : p.declared = [])
      (parsed : p.parse = .finished) : Move p { p with compile := .joining }
  | joinJobs (stage : p.compile = .joining) (finished : p.jobs.all (·.phase.isFinished) = true) :
      Move p { p with compile := .finished }
  -- A job goes on.
  | enterJob (index : Nat) (job : Job) (there : p.jobs[index]? = some job)
      (phase : job.phase = .queued) (permits : Option Nat)
      (acquired : p.acquire? = some { p with permits }) :
      Move p ({ p with permits }.setJob index .generating)
  | generate (index : Nat) (job : Job) (there : p.jobs[index]? = some job)
      (phase : job.phase = .generating) (artifacts : List Artifact)
      (generated : p.toolchain.backend job.declared.unit.fileName job.declared.declaration =
        .ok artifacts) :
      Move p (p.release.setJob index (.sending ⟨job.declared, artifacts⟩))
  | reject (index : Nat) (job : Job) (there : p.jobs[index]? = some job)
      (phase : job.phase = .generating) (failure : Failure ImageError)
      (generated : p.toolchain.backend job.declared.unit.fileName job.declared.declaration =
        .error failure) :
      Move p ((p.release.record (job.declared.unit.compilationRecord failure)).setJob index .finished)
  | abandon (index : Nat) (job : Job) (there : p.jobs[index]? = some job)
      (compiled : CompiledUnit) (phase : job.phase = .sending compiled)
      (gone : p.wanted = some 0) : Move p (p.setJob index .finished)
  | publish (index : Nat) (job : Job) (there : p.jobs[index]? = some job)
      (compiled : CompiledUnit) (phase : job.phase = .sending compiled)
      (wanted : p.wanted ≠ some 0) (room : p.compiled.length < p.settings.channelCapacity) :
      Move p ({ p with compiled := p.compiled ++ [compiled] }.setJob index .finished)
  -- Units and records leave the pipeline.
  | consume (unit : CompiledUnit) (rest : List CompiledUnit) (compiled : p.compiled = unit :: rest)
      (wanted : p.wanted = none) :
      Move p { p with compiled := rest, received := p.received ++ [unit] }
  | consumeLast (unit : CompiledUnit) (rest : List CompiledUnit)
      (compiled : p.compiled = unit :: rest) (wanted : p.wanted = some 1) :
      Move p { p with compiled := [], received := p.received ++ [unit], wanted := some 0 }
  | consumeOne (unit : CompiledUnit) (rest : List CompiledUnit)
      (compiled : p.compiled = unit :: rest) (more : Nat) (wanted : p.wanted = some (more + 2)) :
      Move p { p with compiled := rest, received := p.received ++ [unit], wanted := some (more + 1) }
  | report (record : Record) (rest : List Record) (records : p.records = record :: rest) :
      Move p { p with records := rest, reported := p.reported ++ [record] }

/-- A permit is all that acquiring one changes. -/
theorem acquire_frame {p q : Pipeline} (acquired : p.acquire? = some q) :
    ∃ permits, q = { p with permits } := by
  unfold acquire? at acquired
  split at acquired
  · cases acquired
    exact ⟨p.permits, rfl⟩
  · contradiction
  · next free _ =>
    cases acquired
    exact ⟨some free, rfl⟩

theorem accept_move {p q : Pipeline} (accepted : p.accept? = some q) : p.Move q := by
  unfold accept? at accepted
  split at accepted
  · contradiction
  next stage =>
  have stage : p.parse = .accepting := Decidable.not_not.mp stage
  split at accepted
  · next input =>
    cases accepted
    exact .exhaust stage input
  · next unit rest input =>
    cases accepted
    exact .accept stage unit rest input
  · next cause rest input =>
    dsimp only [record] at accepted
    split at accepted
    · next policy =>
      cases accepted
      exact .skip stage cause rest input policy
    · next policy =>
      cases accepted
      exact .abort stage cause rest input policy

theorem conclude_move {p q : Pipeline} (concluded : p.conclude? = some q) : p.Move q := by
  unfold conclude? at concluded
  split at concluded
  · contradiction
  · next stage =>
    split at concluded
    · next declared =>
      cases concluded
      exact .endTypes stage declared
    · contradiction
  · next stage =>
    obtain ⟨⟨reply, types⟩, taken, rfl⟩ := Option.map_eq_some_iff.mp concluded
    exact .endMethods stage reply types taken
  · next stage =>
    obtain ⟨⟨reply, methods⟩, taken, rfl⟩ := Option.map_eq_some_iff.mp concluded
    exact .endResolution stage reply methods taken
  · next stage =>
    split at concluded
    · next finished =>
      cases concluded
      exact .join stage finished
    · contradiction
  · contradiction

theorem parseTask_move {p q : Pipeline} {index : Nat} (parsed : p.parseTask? index = some q) :
    p.Move q := by
  unfold parseTask? at parsed
  split at parsed
  · contradiction
  next task there =>
  split at parsed
  · next phase =>
    obtain ⟨next, acquired, rfl⟩ := Option.map_eq_some_iff.mp parsed
    obtain ⟨permits, rfl⟩ := acquire_frame acquired
    exact .enter index task there phase permits acquired
  · next phase =>
    split at parsed
    · next outline read =>
      cases parsed
      exact .read index task there phase outline read
    · next error read =>
      cases parsed
      exact .refuse index task there phase (.error error) read
    · next message read =>
      cases parsed
      exact .refuse index task there phase (.crash message) read
  · next state phase =>
    obtain ⟨⟨progress, tables⟩, step, rfl⟩ := Option.map_eq_some_iff.mp parsed
    cases progress with
    | continuing next => exact .register index task there state phase next tables step
    | finished outline => exact .declare index task there state phase outline tables step
    | failed error => exact .bar index task there state phase error tables step
  · next state phase =>
    obtain ⟨⟨progress, tables⟩, step, rfl⟩ := Option.map_eq_some_iff.mp parsed
    cases progress with
    | continuing next => exact .inquire index task there state phase next tables step
    | finished references =>
      exact .emit index task there state phase references tables step _ _ _ rfl
    | failed error => exact .lose index task there state phase error tables step
  · next unit diagnostic rest phase =>
    cases parsed
    exact .diagnose index task there unit diagnostic rest phase
  · next unit phase =>
    cases parsed
    exact .diagnosed index task there unit phase
  · next unit phase =>
    split at parsed
    · next room =>
      cases parsed
      exact .send index task there unit phase room
    · contradiction
  · contradiction

theorem receive_move {p q : Pipeline} (received : p.receive? = some q) : p.Move q := by
  unfold receive? at received
  split at received
  · next stage =>
    split at received
    · next unit rest waiting =>
      cases received
      exact .receive stage unit rest waiting
    · next empty =>
      split at received
      · next parsed =>
        cases received
        exact .close stage empty parsed
      · contradiction
  · next stage =>
    split at received
    · next finished =>
      cases received
      exact .joinJobs stage finished
    · contradiction
  · contradiction

theorem generate_move {p q : Pipeline} {index : Nat} (moved : p.generate? index = some q) :
    p.Move q := by
  unfold generate? at moved
  split at moved
  · contradiction
  next job there =>
  dsimp only at moved
  split at moved
  · next phase =>
    obtain ⟨next, acquired, rfl⟩ := Option.map_eq_some_iff.mp moved
    obtain ⟨permits, rfl⟩ := acquire_frame acquired
    exact .enterJob index job there phase permits acquired
  · next phase =>
    split at moved
    · next artifacts generated =>
      cases moved
      exact .generate index job there phase artifacts generated
    · next error generated =>
      cases moved
      exact .reject index job there phase (.error error) generated
    · next message generated =>
      cases moved
      exact .reject index job there phase (.crash message) generated
  · next compiled phase =>
    split at moved
    · next abandoned =>
      cases moved
      exact .abandon index job there compiled phase (eq_of_beq abandoned)
    · next wanted =>
      split at moved
      · next room =>
        cases moved
        refine .publish index job there compiled phase (fun gone => wanted ?_) room
        simp [isAbandoned, gone]
      · contradiction
  · contradiction

theorem consume_move {p q : Pipeline} (consumed : p.consume? = some q) : p.Move q := by
  unfold consume? at consumed
  split at consumed
  · contradiction
  · contradiction
  · next unit rest wanted compiled =>
    cases consumed
    exact .consume unit rest compiled wanted
  · next unit rest wanted compiled =>
    cases consumed
    exact .consumeLast unit rest compiled wanted
  · next more unit rest wanted compiled =>
    cases consumed
    exact .consumeOne unit rest compiled more wanted

theorem report_move {p q : Pipeline} (reported : p.report? = some q) : p.Move q := by
  unfold report? at reported
  split at reported
  · contradiction
  · next record rest records =>
    cases reported
    exact .report record rest records

/-- Every step is one of the moves. -/
theorem perform_move {p q : Pipeline} {action : Action} (performed : p.perform action = some q) :
    p.Move q := by
  cases action with
  | accept => exact accept_move performed
  | conclude => exact conclude_move performed
  | tables action =>
    obtain ⟨tables, moved, rfl⟩ := Option.map_eq_some_iff.mp performed
    exact .tables action tables moved
  | parse index => exact parseTask_move performed
  | receive => exact receive_move performed
  | generate index => exact generate_move performed
  | consume => exact consume_move performed
  | report => exact report_move performed

/-- A unit is received, or about to be, only if a job has sent it. -/
theorem Move.delivers {p q : Pipeline} (move : p.Move q) {c : CompiledUnit}
    (held : c ∈ q.received ++ q.compiled) :
    c ∈ p.received ++ p.compiled ∨ ∃ job ∈ p.jobs, job.phase = .sending c := by
  cases move with
  | exhaust | accept | skip | abort | endTypes | endMethods | endResolution | join | tables | enter | read
  | refuse | register | declare | bar | inquire | emit | lose | diagnose | diagnosed | send | receive
  | close | joinJobs | enterJob | generate | reject | abandon | report => exact .inl held
  | publish index job there compiled phase =>
    rcases List.mem_append.mp held with old | waiting
    · exact .inl (List.mem_append_left _ old)
    · rcases List.mem_append.mp waiting with old | new
      · exact .inl (List.mem_append_right _ old)
      · rw [List.mem_singleton.mp new]
        exact .inr ⟨job, List.mem_of_getElem? there, phase⟩
  | consume unit rest waiting | consumeOne unit rest waiting =>
    rw [waiting]
    exact .inl (by simpa using held)
  | consumeLast unit rest waiting =>
    rw [List.append_nil] at held
    rw [waiting]
    rcases List.mem_append.mp held with old | new
    · exact .inl (List.mem_append_left _ old)
    · rw [List.mem_singleton.mp new]
      exact .inl (List.mem_append_right _ List.mem_cons_self)

/-- What every move preserves holds at the end of every schedule. -/
theorem execute_induction {property : Pipeline → Prop}
    (step : ∀ p q, property p → p.Move q → property q) (schedule : List Action) (p q : Pipeline)
    (initially : property p) (ran : p.execute schedule = some q) : property q := by
  refine runSchedule_induction (P := fun _ => property) initially ?_ ran
  intro past r action next held performed
  exact step r next held (perform_move performed)

/-- The run that prefers to register first is one of the schedules. -/
theorem run_execute (p : Pipeline) : ∃ schedule, p.execute schedule = some p.run := by
  refine exists_runSchedule (fun {state next} found => ?_) _ p
  obtain ⟨action, -, performed⟩ := List.exists_of_findSome?_eq_some found
  exact ⟨action, performed⟩

end Pipeline

end UnitCompiler
