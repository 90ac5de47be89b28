import UnitCompiler.Proofs.Lists
import UnitCompiler.Proofs.PipelineOutcome
import UnitCompiler.Proofs.PipelineProtocol

/-! Every accepted unit comes out of the pipeline once: compiled, or as one record of why it is not.
The accounts are kept at each place that units pass, and they are settled when nothing is on its way
any more. -/

namespace UnitCompiler

namespace ParseTask

/-- The path of a unit whose task is done with it, having failed. -/
def unparsed? (task : ParseTask) : Option String :=
  if task.phase.isFinished && !task.unit.parses then some task.unit.displayPath else none

def passed? (task : ParseTask) : Option SourceUnit :=
  if task.phase.isFinished && task.unit.parses then some task.unit else none

end ParseTask

namespace Job

def unit (job : Job) : SourceUnit := job.declared.unit

@[simp] theorem unit_phase (job : Job) (phase : JobPhase) : unit { job with phase } = job.unit := rfl

def rejected? (job : Job) : Option (Option String) :=
  if job.phase.isFinished && !Image.isValidName job.unit.qualifiedName then
    some (some job.unit.displayPath)
  else none

def produced? (job : Job) : Option SourceUnit :=
  if job.phase.isFinished && Image.isValidName job.unit.qualifiedName then some job.unit else none

end Job

namespace Pipeline

def log (p : Pipeline) : List Record := p.reported ++ p.records

/-- What came in has a task or is recorded, or is still to be taken. -/
structure Intake (input : List Input) (p : Pipeline) : Prop where
  accepted : Input.accepted p.settings.inputErrors input =
    p.tasks.map ParseTask.unit ++ Input.accepted p.settings.inputErrors p.input
  failures : Input.failures p.settings.inputErrors input =
    p.log.filterMap Record.inputFailure? ++ Input.failures p.settings.inputErrors p.input
  ended : p.parse ≠ .accepting → p.input = []

/-- A task that is done has recorded that it failed or has sent its unit on. -/
structure Parsing (p : Pipeline) : Prop where
  unparsed : (p.tasks.filterMap ParseTask.unparsed?).Perm (p.log.filterMap Record.unparsed?)
  passed : (p.tasks.filterMap ParseTask.passed?).Perm
    ((p.declared ++ p.jobs.map Job.declared).map DeclaredUnit.unit)

structure Compiling (p : Pipeline) : Prop where
  rejected : (p.jobs.filterMap Job.rejected?).Perm (p.log.filterMap Record.rejected?)
  produced : (p.jobs.filterMap Job.produced?).Perm
    ((p.received ++ p.compiled).map fun unit => unit.declared.unit)

structure Orderly (p : Pipeline) : Prop where
  named : ∀ d ∈ p.declared ++ p.jobs.map Job.declared,
    d.declaration.qualifiedName = d.unit.qualifiedName
  sending : ∀ job ∈ p.jobs, ∀ compiled, job.phase = .sending compiled →
    compiled.declared = job.declared ∧ Image.isValidName job.unit.qualifiedName = true
  closed : p.compile ≠ .receiving → p.parse = .finished ∧ p.declared = []
  joined : p.compile = .finished → ∀ job ∈ p.jobs, job.phase.isFinished = true

@[simp] theorem log_record (p : Pipeline) (record : Record) :
    (p.record record).log = p.log ++ [record] := by
  simp [log, Pipeline.record]

theorem declared_setJob (p : Pipeline) (index : Nat) (phase : JobPhase) :
    (p.setJob index phase).jobs.map Job.declared = p.jobs.map Job.declared :=
  map_modify index fun _ => rfl

theorem units_setTask (p : Pipeline) (index : Nat) (phase : ParsePhase) :
    (p.setTask index phase).tasks.map ParseTask.unit = p.tasks.map ParseTask.unit :=
  map_modify index fun _ => rfl

/-! ## Taking the input -/

namespace Intake

variable {input : List Input} {p q : Pipeline}

theorem setTask (intake : Intake input p) (index : Nat) (phase : ParsePhase) :
    Intake input (p.setTask index phase) := by
  exact ⟨by rw [units_setTask]; exact intake.accepted, intake.failures, intake.ended⟩

theorem record (intake : Intake input p) (record : Record) (other : record.inputFailure? = none) :
    Intake input (p.record record) := by
  refine ⟨intake.accepted, ?_, intake.ended⟩
  rw [log_record, filterMap_snoc_none _ _ other]
  exact intake.failures

theorem move (intake : Intake input p) (move : p.Move q) : Intake input q := by
  cases move with
  | exhaust stage none => exact ⟨intake.accepted, intake.failures, fun _ => none⟩
  | accept stage unit rest first =>
    refine ⟨?_, ?_, fun ended => absurd stage ended⟩
    · simp [intake.accepted, first, Input.accepted]
    · rw [intake.failures, first]
      rfl
  | skip stage cause rest first policy =>
    refine ⟨?_, ?_, fun ended => absurd stage ended⟩
    · simpa [Pipeline.record, first, policy, Input.accepted] using intake.accepted
    · simpa [Pipeline.record, log, first, policy, Input.failures, inputRecord,
        Record.inputFailure?] using intake.failures
  | abort stage cause rest first policy =>
    refine ⟨?_, ?_, fun _ => rfl⟩
    · simpa [Pipeline.record, first, policy, Input.accepted] using intake.accepted
    · simpa [Pipeline.record, log, first, policy, Input.failures, inputRecord,
        Record.inputFailure?] using intake.failures
  | endTypes stage => exact { intake with ended := fun _ => intake.ended (by simp [stage]) }
  | endMethods stage => exact { intake with ended := fun _ => intake.ended (by simp [stage]) }
  | endResolution stage => exact { intake with ended := fun _ => intake.ended (by simp [stage]) }
  | join stage => exact { intake with ended := fun _ => intake.ended (by simp [stage]) }
  | tables => exact { intake with }
  | enter index | read index | register index | declare index | inquire index | emit index
  | diagnosed index | send index => exact { intake.setTask index _ with }
  | refuse index task there phase failure =>
    have other := (task.unit.parsingRecord_kind failure).2.1
    exact { (intake.record _ other).setTask index .finished with }
  | bar index | lose index => exact { (intake.record _ rfl).setTask index .finished with }
  | diagnose index => exact (intake.record _ rfl).setTask index _
  | receive | close | joinJobs | enterJob | generate | abandon | publish | consume | consumeLast
  | consumeOne => exact { intake with }
  | reject index job there phase failure =>
    exact { intake.record _ (job.declared.unit.compilationRecord_kind failure).2.2.1 with }
  | report record rest records =>
    refine ⟨intake.accepted, ?_, intake.ended⟩
    rw [intake.failures]
    simp [log, records]

end Intake

/-! ## Parse tasks -/

namespace Parsing

variable {p q : Pipeline}

theorem record (parsing : p.Parsing) (record : Record) (other : record.unparsed? = none) :
    Parsing (p.record record) := by
  refine ⟨?_, parsing.passed⟩
  rw [log_record, filterMap_snoc_none _ _ other]
  exact parsing.unparsed

/-- A task goes on that is not done before or after. -/
theorem setTask (parsing : p.Parsing) {index : Nat} {task : ParseTask}
    (there : p.tasks[index]? = some task) (phase : ParsePhase)
    (before : task.phase.isFinished = false) (after : phase.isFinished = false) :
    Parsing (p.setTask index phase) := by
  constructor
  · refine (filterMap_modify_none _ _ there ?_ ?_).trans parsing.unparsed
    · simp [ParseTask.unparsed?, before]
    · simp [ParseTask.unparsed?, after]
  · refine (filterMap_modify_none _ _ there ?_ ?_).trans parsing.passed
    · simp [ParseTask.passed?, before]
    · simp [ParseTask.passed?, after]

theorem setJob (parsing : p.Parsing) (index : Nat) (phase : JobPhase) :
    Parsing (p.setJob index phase) := by
  exact ⟨parsing.unparsed, by rw [declared_setJob]; exact parsing.passed⟩

/-- A unit that cannot be read is recorded. -/
theorem refuse (parsing : p.Parsing) {index : Nat} {task : ParseTask}
    (there : p.tasks[index]? = some task) (phase : task.phase = .reading)
    (failure : Failure DeclareError) (unread : task.unit.parses = false) :
    Parsing ((p.record (task.unit.parsingRecord failure)).setTask index .finished) := by
  constructor
  · have path := (task.unit.parsingRecord_kind failure).1
    have moved := filterMap_modify_perm ParseTask.unparsed?
      (fun task => { task with phase := .finished }) there (by simp [ParseTask.unparsed?, phase,
        ParsePhase.isFinished])
    refine moved.trans ?_
    show List.Perm _ (List.filterMap Record.unparsed? (p.record _).log)
    rw [log_record, List.filterMap_append, List.filterMap_cons_some path]
    simpa [ParseTask.unparsed?, unread, ParsePhase.isFinished] using
      parsing.unparsed.append_right [task.unit.displayPath]
  · refine (filterMap_modify_none _ _ there ?_ ?_).trans parsing.passed
    · simp [ParseTask.passed?, phase, ParsePhase.isFinished]
    · simp [ParseTask.passed?, unread]

/-- A unit that is declared is sent on. -/
theorem send (parsing : p.Parsing) {index : Nat} {task : ParseTask}
    (there : p.tasks[index]? = some task) {unit : DeclaredUnit} (phase : task.phase = .sending unit)
    (own : unit.unit = task.unit) (read : task.unit.parses = true) :
    Parsing ({ p with declared := p.declared ++ [unit] }.setTask index .finished) := by
  constructor
  · refine (filterMap_modify_none _ _ there ?_ ?_).trans parsing.unparsed
    · simp [ParseTask.unparsed?, phase, ParsePhase.isFinished]
    · simp [ParseTask.unparsed?, read]
  · have moved := filterMap_modify_perm ParseTask.passed?
      (fun task => { task with phase := .finished }) there (by simp [ParseTask.passed?, phase,
        ParsePhase.isFinished])
    have result : ParseTask.passed? { task with phase := .finished } = some unit.unit := by
      simp [ParseTask.passed?, read, own, ParsePhase.isFinished]
    rw [result] at moved
    refine moved.trans ((parsing.passed.append_right _).trans ?_)
    show List.Perm _ (((p.declared ++ [unit]) ++ p.jobs.map Job.declared).map DeclaredUnit.unit)
    simp only [List.map_append, List.append_assoc, Option.toList_some]
    exact List.perm_append_comm.append_left _

theorem receive (parsing : p.Parsing) {unit : DeclaredUnit} {rest : List DeclaredUnit}
    (waiting : p.declared = unit :: rest) :
    Parsing { p with declared := rest, jobs := p.jobs ++ [{ declared := unit }] } := by
  refine ⟨parsing.unparsed, parsing.passed.trans (List.Perm.map _ ?_)⟩
  simp only [waiting, List.map_append, List.map_cons, List.map_nil, List.cons_append]
  rw [← List.append_assoc]
  exact (List.perm_append_singleton unit _).symm

theorem move (parsing : p.Parsing) (protocol : p.Protocol) (standard : p.toolchain = .standard)
    (move : p.Move q) : q.Parsing := by
  cases move with
  | exhaust | endTypes | endMethods | endResolution | join | tables => exact { parsing with }
  | accept stage unit rest input =>
    constructor
    · rw [filterMap_snoc_none ParseTask.unparsed? p.tasks rfl]
      exact parsing.unparsed
    · rw [filterMap_snoc_none ParseTask.passed? p.tasks rfl]
      exact parsing.passed
  | skip | abort => exact { parsing.record _ rfl with }
  | enter index task there phase =>
    exact { parsing.setTask there .reading (by rw [phase]; rfl) rfl with }
  | read index task there phase outline =>
    exact parsing.setTask there (.registering { outline }) (by rw [phase]; rfl) rfl
  | refuse index task there phase failure read =>
    refine { parsing.refuse there phase failure ?_ with }
    rw [SourceUnit.parses_eq _ standard, read]
    rfl
  | register index task there state phase next =>
    exact { parsing.setTask there (.registering next) (by rw [phase]; rfl) rfl with }
  | declare index task there state phase outline =>
    exact { parsing.setTask there (.resolving (.start outline)) (by rw [phase]; rfl) rfl with }
  | bar index task there state phase error tables step =>
    exact absurd step (protocol.not_barred there phase)
  | inquire index task there state phase next =>
    exact { parsing.setTask there (.resolving next) (by rw [phase]; rfl) rfl with }
  | emit index task there state phase references tables step unit diagnostics =>
    exact { parsing.setTask there (.reporting unit diagnostics) (by rw [phase]; rfl) rfl with }
  | lose index task there state phase error tables step => exact absurd step protocol.not_lost
  | diagnose index task there unit diagnostic rest phase =>
    exact (parsing.record _ rfl).setTask there (.reporting unit rest) (by rw [phase]; rfl) rfl
  | diagnosed index task there unit phase =>
    exact parsing.setTask there (.sending unit) (by rw [phase]; rfl) rfl
  | send index task there unit phase room =>
    obtain ⟨outline, instances, references, read, rfl⟩ := protocol.sending there phase
    refine parsing.send there phase ?_ ?_
    · rw [(outline.emit_unit _ _ _).1, Outline.read_unit read]
    · rw [SourceUnit.parses_eq _ standard, read]
      rfl
  | receive stage unit rest waiting => exact parsing.receive waiting
  | close | joinJobs | consume | consumeLast | consumeOne => exact { parsing with }
  | enterJob index | generate index | abandon index | publish index =>
    exact { parsing.setJob index _ with }
  | reject index job there phase failure =>
    have other := (job.declared.unit.compilationRecord_kind failure).2.1
    exact { (parsing.record _ other).setJob index _ with }
  | report record rest records =>
    refine ⟨?_, parsing.passed⟩
    simpa [log, records] using parsing.unparsed

end Parsing

/-! ## Jobs -/

namespace Orderly

variable {p q : Pipeline}

theorem name (orderly : p.Orderly) {index : Nat} {job : Job} (there : p.jobs[index]? = some job) :
    job.declared.declaration.qualifiedName = job.unit.qualifiedName := by
  refine orderly.named _ (List.mem_append_right _ ?_)
  exact List.mem_map_of_mem (List.mem_of_getElem? there)

/-- While the parse stage is at work the compile stage is too. -/
theorem receiving (orderly : p.Orderly) (unfinished : p.parse ≠ .finished) :
    p.compile = .receiving := by
  by_contra later
  exact unfinished (orderly.closed later).1

theorem setJob (orderly : p.Orderly) {index : Nat} {job : Job} (there : p.jobs[index]? = some job)
    (phase : JobPhase) (before : job.phase.isFinished = false)
    (sending : ∀ compiled, phase = .sending compiled →
      compiled.declared = job.declared ∧ Image.isValidName job.unit.qualifiedName = true) :
    Orderly (p.setJob index phase) := by
  refine ⟨?_, fun other member compiled waits => ?_, orderly.closed, fun last => ?_⟩
  · rw [declared_setJob]
    exact orderly.named
  · rcases mem_modify there member with rfl | old
    · exact sending compiled waits
    · exact orderly.sending other old compiled waits
  · have finished := orderly.joined last job (List.mem_of_getElem? there)
    simp [before] at finished

theorem move (orderly : p.Orderly) (protocol : p.Protocol) (standard : p.toolchain = .standard)
    (move : p.Move q) : q.Orderly := by
  -- While the parse stage changes, nothing is asked of the stage behind it.
  have early {q : Pipeline} (unfinished : p.parse ≠ .finished) (declared : q.declared = p.declared)
      (jobs : q.jobs = p.jobs) (compile : q.compile = p.compile) : q.Orderly := by
    have stage := orderly.receiving unfinished
    refine ⟨?_, ?_, ?_, ?_⟩
    · rw [declared, jobs]
      exact orderly.named
    · rw [jobs]
      exact orderly.sending
    · simp [compile, stage]
    · simp [compile, stage]
  cases move with
  | exhaust stage | accept stage | skip stage | abort stage | endTypes stage | endMethods stage
  | endResolution stage | join stage => exact early (by simp [stage]) rfl rfl rfl
  | tables | enter | read | refuse | register | declare | bar | inquire | emit | lose | diagnose
  | diagnosed => exact { orderly with }
  | send index task there unit phase room =>
    have member := List.mem_of_getElem? there
    have unfinished : p.parse ≠ .finished := by
      intro last
      have finished := protocol.finished last task member
      simp [phase, ParsePhase.isFinished] at finished
    have stage := orderly.receiving unfinished
    obtain ⟨outline, instances, references, read, rfl⟩ := protocol.sending there phase
    refine ⟨?_, orderly.sending, fun later => absurd stage later, ?_⟩
    · intro d held
      simp only [Pipeline.setTask, List.append_assoc, List.mem_append, List.mem_singleton] at held
      rcases held with old | rfl | old
      · exact orderly.named d (List.mem_append_left _ old)
      · rw [(outline.emit_unit _ _ _).2, (outline.emit_unit _ _ _).1]
        rfl
      · exact orderly.named d (List.mem_append_right _ old)
    · simp [Pipeline.setTask, stage]
  | receive stage unit rest waiting =>
    refine ⟨?_, ?_, fun later => absurd stage later, by simp [stage]⟩
    · intro d held
      refine orderly.named d ?_
      simp only [waiting, List.map_append, List.map_cons, List.map_nil, List.mem_append,
        List.mem_cons, List.not_mem_nil, or_false] at held ⊢
      rcases held with old | old | new
      · exact .inl (.inr old)
      · exact .inr old
      · exact .inl (.inl new)
    · intro job member compiled waits
      rcases List.mem_append.mp member with old | new
      · exact orderly.sending job old compiled waits
      · cases List.mem_singleton.mp new
        contradiction
  | close stage empty parsed =>
    exact ⟨orderly.named, orderly.sending, fun _ => ⟨parsed, empty⟩, by simp⟩
  | joinJobs stage finished =>
    refine ⟨orderly.named, orderly.sending, fun _ => orderly.closed (by simp [stage]), fun _ => ?_⟩
    exact List.all_eq_true.mp finished
  | enterJob index job there phase =>
    exact { orderly.setJob there .generating (by rw [phase]; rfl) (by simp) with }
  | generate index job there phase artifacts generated =>
    refine { orderly.setJob there (.sending ⟨job.declared, artifacts⟩) (by rw [phase]; rfl) ?_ with }
    rintro compiled same
    cases same
    refine ⟨rfl, ?_⟩
    rw [← orderly.name there, ← Toolchain.imageBackend_isOk job.declared.unit.fileName]
    rw [standard] at generated
    rw [show Toolchain.imageBackend _ _ = _ from generated]
    rfl
  | reject index job there phase =>
    exact { orderly.setJob there .finished (by rw [phase]; rfl) (by simp) with }
  | abandon index job there compiled phase =>
    exact { orderly.setJob there .finished (by rw [phase]; rfl) (by simp) with }
  | publish index job there compiled phase =>
    exact { orderly.setJob there .finished (by rw [phase]; rfl) (by simp) with }
  | consume | consumeLast | consumeOne | report => exact { orderly with }

end Orderly

namespace Compiling

variable {p q : Pipeline}

theorem record (compiling : p.Compiling) (record : Record) (other : record.rejected? = none) :
    Compiling (p.record record) := by
  refine ⟨?_, compiling.produced⟩
  rw [log_record, filterMap_snoc_none _ _ other]
  exact compiling.rejected

/-- A job goes on that is not done before or after. -/
theorem setJob (compiling : p.Compiling) {index : Nat} {job : Job}
    (there : p.jobs[index]? = some job) (phase : JobPhase) (before : job.phase.isFinished = false)
    (after : phase.isFinished = false) : Compiling (p.setJob index phase) := by
  constructor
  · refine (filterMap_modify_none _ _ there ?_ ?_).trans compiling.rejected
    · simp [Job.rejected?, before]
    · simp [Job.rejected?, after]
  · refine (filterMap_modify_none _ _ there ?_ ?_).trans compiling.produced
    · simp [Job.produced?, before]
    · simp [Job.produced?, after]

/-- A unit without a valid name is recorded. -/
theorem reject (compiling : p.Compiling) {index : Nat} {job : Job}
    (there : p.jobs[index]? = some job) (phase : job.phase = .generating)
    (failure : Failure ImageError) (unnamed : Image.isValidName job.unit.qualifiedName = false) :
    Compiling ((p.record (job.unit.compilationRecord failure)).setJob index .finished) := by
  constructor
  · have path := (job.unit.compilationRecord_kind failure).1
    have moved := filterMap_modify_perm Job.rejected?
      (fun job => { job with phase := .finished }) there (by simp [Job.rejected?, phase,
        JobPhase.isFinished])
    refine moved.trans ?_
    show List.Perm _ (List.filterMap Record.rejected? (p.record _).log)
    rw [log_record, List.filterMap_append, List.filterMap_cons_some path]
    have own : Job.rejected? { job with phase := .finished } = some (some job.unit.displayPath) := by
      simp [Job.rejected?, unnamed, JobPhase.isFinished]
    rw [own]
    exact compiling.rejected.append_right _
  · refine (filterMap_modify_none _ _ there ?_ ?_).trans compiling.produced
    · simp [Job.produced?, phase, JobPhase.isFinished]
    · simp [Job.produced?, unnamed]

/-- A unit with its images is sent on. -/
theorem publish (compiling : p.Compiling) {index : Nat} {job : Job}
    (there : p.jobs[index]? = some job) {compiled : CompiledUnit}
    (phase : job.phase = .sending compiled) (own : compiled.declared = job.declared)
    (named : Image.isValidName job.unit.qualifiedName = true) :
    Compiling ({ p with compiled := p.compiled ++ [compiled] }.setJob index .finished) := by
  constructor
  · refine (filterMap_modify_none _ _ there ?_ ?_).trans compiling.rejected
    · simp [Job.rejected?, phase, JobPhase.isFinished]
    · simp [Job.rejected?, named]
  · have moved := filterMap_modify_perm Job.produced?
      (fun job => { job with phase := .finished }) there (by simp [Job.produced?, phase,
        JobPhase.isFinished])
    have result : Job.produced? { job with phase := .finished } = some compiled.declared.unit := by
      rw [own, ← Job.unit]
      simp [Job.produced?, named, JobPhase.isFinished]
    rw [result] at moved
    refine moved.trans ((compiling.produced.append_right _).trans ?_)
    show List.Perm _ ((p.received ++ (p.compiled ++ [compiled])).map _)
    simp

theorem move (compiling : p.Compiling) (orderly : p.Orderly) (standard : p.toolchain = .standard)
    (everything : p.wanted = none) (move : p.Move q) : q.Compiling := by
  cases move with
  | exhaust | accept | endTypes | endMethods | endResolution | join | tables | enter | read
  | register | declare | inquire | emit | diagnosed | send => exact { compiling with }
  | skip | abort | bar | lose | diagnose => exact { compiling.record _ rfl with }
  | refuse index task there phase failure =>
    exact { compiling.record _ (task.unit.parsingRecord_kind failure).2.2.1 with }
  | receive stage unit rest waiting =>
    constructor
    · rw [filterMap_snoc_none Job.rejected? p.jobs rfl]
      exact compiling.rejected
    · rw [filterMap_snoc_none Job.produced? p.jobs rfl]
      exact compiling.produced
  | close | joinJobs => exact { compiling with }
  | enterJob index job there phase =>
    exact { compiling.setJob there .generating (by rw [phase]; rfl) rfl with }
  | generate index job there phase artifacts =>
    exact { compiling.setJob there (.sending ⟨job.declared, artifacts⟩) (by rw [phase]; rfl) rfl with }
  | reject index job there phase failure generated =>
    refine { compiling.reject there phase failure ?_ with }
    rw [← orderly.name there, ← Toolchain.imageBackend_isOk job.declared.unit.fileName]
    rw [standard] at generated
    rw [show Toolchain.imageBackend _ _ = _ from generated]
    rfl
  | abandon index job there compiled phase gone => simp [everything] at gone
  | publish index job there compiled phase =>
    obtain ⟨own, named⟩ := orderly.sending job (List.mem_of_getElem? there) compiled phase
    exact compiling.publish there phase own named
  | consume unit rest compiled =>
    refine ⟨compiling.rejected, ?_⟩
    simpa [compiled] using compiling.produced
  | consumeLast unit rest compiled wanted => simp [everything] at wanted
  | consumeOne unit rest compiled more wanted => simp [everything] at wanted
  | report record rest records =>
    refine ⟨?_, compiling.produced⟩
    simpa [log, records] using compiling.rejected

end Compiling

/-! ## The whole pipeline -/

structure Books (settings : Settings) (input : List Input) (p : Pipeline) : Prop where
  settings : p.settings = settings
  standard : p.toolchain = .standard
  everything : p.wanted = none
  protocol : p.Protocol
  intake : Intake input p
  parsing : p.Parsing
  orderly : p.Orderly
  compiling : p.Compiling

theorem start_books (settings : Settings) (input : List Input) :
    Books settings input (start .standard settings input none) where
  settings := rfl
  standard := rfl
  everything := rfl
  protocol := start_protocol _ _ _ _
  intake := ⟨rfl, rfl, fun ended => absurd rfl ended⟩
  parsing := ⟨.nil, .nil⟩
  orderly := ⟨by simp [start], by simp [start], fun later => absurd rfl later, by simp [start]⟩
  compiling := ⟨.nil, .nil⟩

theorem Books.move {settings : Settings} {input : List Input} {p q : Pipeline}
    (books : Books settings input p) (move : p.Move q) : Books settings input q where
  settings := by cases move <;> exact books.settings
  standard := by cases move <;> exact books.standard
  everything := by
    have everything := books.everything
    cases move with
    | consumeLast unit rest compiled wanted => simp [everything] at wanted
    | consumeOne unit rest compiled more wanted => simp [everything] at wanted
    | _ => exact everything
  protocol := books.protocol.move move
  intake := books.intake.move move
  parsing := books.parsing.move books.protocol books.standard move
  orderly := books.orderly.move books.protocol books.standard move
  compiling := books.compiling.move books.orderly books.standard books.everything move

/-- The books are kept along every schedule. -/
theorem execute_books {settings : Settings} {input : List Input} {schedule : List Action}
    {p : Pipeline} (ran : (start .standard settings input none).execute schedule = some p) :
    Books settings input p :=
  execute_induction (fun _ _ => Books.move) schedule _ _ (start_books settings input) ran

namespace Books

variable {settings : Settings} {input : List Input} {p : Pipeline}

theorem accepted (books : Books settings input p) (collected : p.isFinished = true) :
    Input.accepted settings.inputErrors input = p.tasks.map ParseTask.unit ∧
      Input.failures settings.inputErrors input = p.reported.filterMap Record.inputFailure? := by
  simp only [isFinished, Bool.and_eq_true, beq_iff_eq, List.isEmpty_iff] at collected
  obtain ⟨⟨⟨parsed, -⟩, -⟩, records⟩ := collected
  have none := books.intake.ended (by simp [parsed])
  have units := books.intake.accepted
  have failures := books.intake.failures
  rw [none, books.settings] at units failures
  simp only [log, records, List.append_nil, Input.accepted, Input.failures] at units failures
  exact ⟨units, failures⟩

theorem ended (collected : p.isFinished = true) :
    p.parse = .finished ∧ p.compile = .finished ∧ p.compiled = [] ∧ p.records = [] := by
  simpa [isFinished, and_assoc] using collected

/-- The units that failed before code generation are on record. -/
theorem unparsed (books : Books settings input p) (collected : p.isFinished = true) :
    (p.reported.filterMap Record.unparsed?).Perm
      (((Input.accepted settings.inputErrors input).filter (!·.parses)).map
        SourceUnit.displayPath) := by
  obtain ⟨parsed, -, -, records⟩ := ended collected
  have done := books.protocol.finished parsed
  have tasks : p.tasks.filterMap ParseTask.unparsed? =
      ((p.tasks.map ParseTask.unit).filter (!·.parses)).map SourceUnit.displayPath := by
    rw [List.filter_map, List.map_map]
    refine filterMap_keep _ _ fun task member => ?_
    simp [ParseTask.unparsed?, done task member]
  rw [(books.accepted collected).1, ← tasks]
  have recorded := books.parsing.unparsed.symm
  rwa [log, records, List.append_nil] at recorded

/-- All other units have a job. -/
theorem jobs (books : Books settings input p) (collected : p.isFinished = true) :
    (p.jobs.map Job.unit).Perm
      ((Input.accepted settings.inputErrors input).filter SourceUnit.parses) := by
  obtain ⟨parsed, compiled, -, -⟩ := ended collected
  have done := books.protocol.finished parsed
  have empty := (books.orderly.closed (by simp [compiled])).2
  have tasks : p.tasks.filterMap ParseTask.passed? =
      (p.tasks.map ParseTask.unit).filter SourceUnit.parses := by
    rw [List.filter_map]
    refine filterMap_keep _ _ fun task member => ?_
    simp [ParseTask.passed?, done task member]
  rw [(books.accepted collected).1, ← tasks]
  have passed := books.parsing.passed.symm
  rwa [empty, List.nil_append, List.map_map] at passed

theorem rejected (books : Books settings input p) (collected : p.isFinished = true) :
    (p.reported.filterMap Record.rejected?).Perm
      (((Input.accepted settings.inputErrors input).filter fun unit =>
        unit.parses && !unit.compiles).map fun unit => some unit.displayPath) := by
  obtain ⟨-, compiled, -, records⟩ := ended collected
  have done := books.orderly.joined compiled
  have jobs : p.jobs.filterMap Job.rejected? =
      ((p.jobs.map Job.unit).filter fun unit => !Image.isValidName unit.qualifiedName).map
        fun unit => some unit.displayPath := by
    rw [List.filter_map, List.map_map]
    refine filterMap_keep _ _ fun job member => ?_
    simp [Job.rejected?, done job member]
  have recorded := books.compiling.rejected.symm
  rw [log, records, List.append_nil, jobs] at recorded
  refine recorded.trans ((((books.jobs collected).filter _).map _).trans ?_)
  rw [List.filter_filter, List.filter_congr fun unit _ => unit.rejected_eq]

theorem received (books : Books settings input p) (collected : p.isFinished = true) :
    (p.received.map fun unit => unit.declared.unit).Perm
      ((Input.accepted settings.inputErrors input).filter SourceUnit.compiles) := by
  obtain ⟨-, compiled, empty, -⟩ := ended collected
  have done := books.orderly.joined compiled
  have jobs : p.jobs.filterMap Job.produced? =
      (p.jobs.map Job.unit).filter fun unit => Image.isValidName unit.qualifiedName := by
    rw [List.filter_map]
    refine filterMap_keep _ _ fun job member => ?_
    simp [Job.produced?, done job member]
  have produced := books.compiling.produced.symm
  rw [empty, List.append_nil, jobs] at produced
  refine produced.trans (((books.jobs collected).filter _).trans ?_)
  rw [List.filter_filter]
  exact List.Perm.of_eq (List.filter_congr fun unit _ => Bool.and_comm _ _)

end Books

/-- Whatever the input, the policy and the interleaving: once everything is collected, every accepted
unit has been compiled, or is on record as unparsed, or is on record as rejected, once and not
otherwise. -/
theorem units_conserved (settings : Settings) (input : List Input) (schedule : List Action)
    (p : Pipeline) (ran : (start .standard settings input none).execute schedule = some p)
    (collected : p.isFinished = true) :
    let units := Input.accepted settings.inputErrors input
    let failures := Input.failures settings.inputErrors input
    let unparsed := units.filter (!·.parses)
    let rejected := units.filter fun unit => unit.parses && !unit.compiles
    (p.received.map fun unit => unit.declared.unit).Perm (units.filter SourceUnit.compiles) ∧
    (p.reported.filterMap Record.unparsed?).Perm (unparsed.map SourceUnit.displayPath) ∧
    (p.reported.filterMap Record.rejected?).Perm (rejected.map fun unit => some unit.displayPath) ∧
    p.summary.parsingExceptions = unparsed.length + failures.length ∧
    p.summary.compilationExceptions = rejected.length ∧
    (settings.inputErrors = .failFast → failures.length ≤ 1) ∧
    (p.summary.isClean = true →
      (p.received.map fun unit => unit.declared.unit).Perm (input.filterMap Input.unit?)) := by
  intro units failures unparsed rejected
  have books := execute_books ran
  have received : (p.received.map fun unit => unit.declared.unit).Perm
      (units.filter SourceUnit.compiles) := books.received collected
  have unparsedRecords := books.unparsed collected
  have rejectedRecords := books.rejected collected
  have parsingCount : p.summary.parsingExceptions = unparsed.length + failures.length := by
    rw [summary, Summary.ofRecords_eq, unparsedRecords.length_eq, List.length_map,
      ← (books.accepted collected).2]
  have rejectedCount : p.summary.compilationExceptions = rejected.length := by
    rw [summary, Summary.ofRecords_eq, rejectedRecords.length_eq, List.length_map]
  refine ⟨received, unparsedRecords, rejectedRecords, parsingCount, rejectedCount, ?_, ?_⟩
  · intro policy
    have first := Input.failures_failFast input
    rwa [← policy] at first
  · intro clean
    simp only [Summary.isClean, Summary.total, beq_iff_eq] at clean
    have noFailures : failures = [] := List.eq_nil_of_length_eq_zero (by omega)
    have noUnparsed : unparsed = [] := List.eq_nil_of_length_eq_zero (by omega)
    have noRejected : rejected = [] := List.eq_nil_of_length_eq_zero (by omega)
    have all : units.filter SourceUnit.compiles = units := by
      refine List.filter_eq_self.mpr fun unit member => ?_
      have parses := List.filter_eq_nil_iff.mp noUnparsed unit member
      have named := List.filter_eq_nil_iff.mp noRejected unit member
      simp_all
    rw [← Input.accepted_eq _ _ noFailures]
    rwa [all] at received

/-- A unit whose reader breaks down, a failed input, a unit without a valid name and one that can be
compiled. -/
def mixture : List Input :=
  [.unit { fileName := "Broken.firefly", relativePath := "app", content := .crash "no disk" },
    .failure ["no such file"],
    .unit { fileName := "..firefly", relativePath := "app", content := .text "" },
    .unit { fileName := "Main.firefly", relativePath := "app", content := .text "println(1)" }]

theorem mixture_conserved :
    ∃ schedule p,
      (start .standard { inputErrors := .keepGoing } mixture none).execute schedule = some p ∧
      p.isFinished = true ∧
      p.received.map (fun unit => unit.declared.unit.fileName) = ["Main.firefly"] ∧
      p.reported.filterMap Record.unparsed? = ["app/Broken.firefly"] ∧
      p.reported.filterMap Record.rejected? = [some "app/..firefly"] ∧
      p.summary.parsingExceptions = 2 ∧ p.summary.compilationExceptions = 1 := by
  obtain ⟨schedule, ran⟩ :=
    run_execute (start .standard { inputErrors := .keepGoing } mixture none)
  have collected :
      (start .standard { inputErrors := .keepGoing } mixture none).run.isFinished = true := by
    decide +kernel
  obtain ⟨received, unparsed, rejected, parsing, compilation, -, -⟩ :=
    units_conserved { inputErrors := .keepGoing } mixture schedule _ ran collected
  refine ⟨schedule, _, ran, collected, ?_, ?_, ?_, ?_, ?_⟩
  · rw [← List.perm_singleton]
    have names := received.map SourceUnit.fileName
    rw [List.map_map] at names
    exact names.trans (.of_eq (by decide +kernel))
  · exact List.perm_singleton.mp (unparsed.trans (.of_eq (by decide +kernel)))
  · exact List.perm_singleton.mp (rejected.trans (.of_eq (by decide +kernel)))
  · exact parsing.trans (by decide +kernel)
  · exact compilation.trans (by decide +kernel)

end Pipeline

end UnitCompiler
