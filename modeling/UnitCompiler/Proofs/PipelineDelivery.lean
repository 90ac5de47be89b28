import UnitCompiler.Proofs.PipelineAnswers
import UnitCompiler.Proofs.PipelineConservation
import UnitCompiler.Proofs.Sequential

/-! What goes through a pipeline. Where settled lookups hold what a catalogue gives, every task gets the
references that its unit has by the catalogue, so what it hands on is the declaration by the catalogue,
and so is what the job behind it has. -/

namespace UnitCompiler

/-- What a task hands on is what a catalogue gives its unit. -/
def ParseTask.OnCourse (catalogue : Catalogue) (t : Tables) (task : ParseTask) : Prop :=
  match task.phase with
  | .queued | .reading | .registering _ | .finished => True
  | .resolving r => r.OnCourse catalogue t
  | .reporting declared _ | .sending declared =>
    Toolchain.standard.declaredBy? catalogue task.unit = some declared

theorem ParseTask.OnCourse.extend {catalogue : Catalogue} {t t' : Tables} {task : ParseTask}
    (course : task.OnCourse catalogue t) (more : t.Extends t') : task.OnCourse catalogue t' := by
  unfold OnCourse at course ⊢
  cases phase : task.phase with
  | resolving r =>
    rw [phase] at course
    exact Resolving.OnCourse.extend course more
  | reporting declared | sending declared =>
    rw [phase] at course
    exact course
  | queued | reading | registering | finished => trivial

def ParseTask.untold (catalogue : Catalogue) (task : ParseTask) : List Diagnostic :=
  match task.phase with
  | .queued | .reading | .registering _ | .resolving _ =>
    Toolchain.standard.diagnosticsBy catalogue task.unit
  | .reporting _ diagnostics => diagnostics
  | .sending _ | .finished => []

theorem ParseTask.untold_finished (catalogue : Catalogue) {task : ParseTask}
    (finished : task.phase.isFinished = true) : task.untold catalogue = [] := by
  unfold untold
  cases phase : task.phase with
  | finished => rfl
  | queued | reading | registering | resolving | reporting | sending =>
    simp [phase, ParsePhase.isFinished] at finished

namespace Pipeline

variable {settings : Settings} {input : List Input} {catalogue : Catalogue} {p q : Pipeline}

/-- Everything on its way through the pipeline is what a catalogue gives the units. -/
structure Course (catalogue : Catalogue) (p : Pipeline) : Prop where
  tasks : ∀ task ∈ p.tasks, task.OnCourse catalogue p.tables
  declared : ∀ d ∈ p.declared ++ p.jobs.map Job.declared,
    Toolchain.standard.declaredBy? catalogue d.unit = some d
  sending : ∀ job ∈ p.jobs, ∀ compiled, job.phase = .sending compiled →
    Toolchain.standard.generated? job.declared = some compiled
  compiled : ∀ compiled ∈ p.received ++ p.compiled,
    Toolchain.standard.compiledBy? catalogue compiled.declared.unit = some compiled

namespace Course

theorem extend (course : p.Course catalogue) (tables : Tables) (more : p.tables.Extends tables) :
    Course catalogue { p with tables } :=
  { course with tasks := fun task member => (course.tasks task member).extend more }

theorem setTask (course : p.Course catalogue) {index : Nat} {task : ParseTask}
    (there : p.tasks[index]? = some task) (phase : ParsePhase)
    (own : ParseTask.OnCourse catalogue p.tables { task with phase }) :
    Course catalogue (p.setTask index phase) := by
  refine { course with tasks := fun other member => ?_ }
  rcases mem_modify there member with rfl | old
  · exact own
  · exact course.tasks other old

theorem setJob (course : p.Course catalogue) {index : Nat} {job : Job}
    (there : p.jobs[index]? = some job) (phase : JobPhase)
    (sending : ∀ compiled, phase = .sending compiled →
      Toolchain.standard.generated? job.declared = some compiled) :
    Course catalogue (p.setJob index phase) := by
  refine ⟨course.tasks, ?_, fun other member compiled waits => ?_, course.compiled⟩
  · rw [declared_setJob]
    exact course.declared
  · rcases mem_modify there member with rfl | old
    · exact sending compiled waits
    · exact course.sending other old compiled waits

/-- A unit whose names are known is declared, and diagnosed, by the catalogue. -/
theorem emitted (course : p.Course catalogue) (books : Books settings input p) (plain : catalogue.Plain)
    {index : Nat} {task : ParseTask} (there : p.tasks[index]? = some task) {state : Resolving}
    (phase : task.phase = .resolving state) {references : References} {tables : Tables}
    (step : state.step? p.tables = some (.finished references, tables)) {unit : DeclaredUnit}
    {diagnostics : List Diagnostic} {instances : Nat}
    (emitted : state.outline.emit p.toolchain.inliner p.instances references =
      (unit, diagnostics, instances)) :
    tables = p.tables ∧ Toolchain.standard.declaredBy? catalogue task.unit = some unit ∧
      Toolchain.standard.diagnosticsBy catalogue task.unit = diagnostics := by
  have own := course.tasks task (List.mem_of_getElem? there)
  rw [ParseTask.OnCourse, phase] at own
  obtain ⟨rfl, same⟩ := own.done
    (Resolving.step_move books.protocol.types.sound books.protocol.methods.sound step)
  have read := books.protocol.resolving there phase
  rw [books.standard] at read emitted
  obtain ⟨_, expected⟩ := Toolchain.emit_standard plain read p.instances
  rw [emitted, Prod.mk.injEq, Prod.mk.injEq] at expected
  rw [Toolchain.declaredBy?_of_read _ catalogue read, Toolchain.diagnosticsBy_of_read _ catalogue read]
  exact ⟨same, by rw [expected.1], expected.2.1.symm⟩

theorem send (course : p.Course catalogue) {index : Nat} {task : ParseTask}
    (there : p.tasks[index]? = some task) {unit : DeclaredUnit}
    (own : Toolchain.standard.declaredBy? catalogue task.unit = some unit) :
    Course catalogue ({ p with declared := p.declared ++ [unit] }.setTask index .finished) := by
  refine { course.setTask there .finished trivial with declared := fun d held => ?_ }
  simp only [Pipeline.setTask, List.append_assoc, List.mem_append, List.mem_singleton] at held
  rcases held with old | rfl | old
  · exact course.declared d (List.mem_append_left _ old)
  · rw [Toolchain.declaredBy?_unit _ _ own]
    exact own
  · exact course.declared d (List.mem_append_right _ old)

theorem receive (course : p.Course catalogue) {unit : DeclaredUnit} {rest : List DeclaredUnit}
    (waiting : p.declared = unit :: rest) :
    Course catalogue { p with declared := rest, jobs := p.jobs ++ [{ declared := unit }] } := by
  refine { course with declared := fun d held => course.declared d ?_, sending := ?_ }
  · simp only [waiting, List.map_append, List.map_cons, List.map_nil, List.mem_append,
      List.mem_cons, List.not_mem_nil, or_false] at held ⊢
    rcases held with old | old | new
    · exact .inl (.inr old)
    · exact .inr old
    · exact .inl (.inl new)
  · intro job member compiled waits
    rcases List.mem_append.mp member with old | new
    · exact course.sending job old compiled waits
    · cases List.mem_singleton.mp new
      contradiction

/-- One step leaves everything on its way, so long as settled lookups hold what the catalogue gives. -/
theorem move (course : p.Course catalogue) (books : Books settings input p) (plain : catalogue.Plain)
    (types : p.tables.types.Settles catalogue.types)
    (methods : p.tables.methods.Settles catalogue.methods) (move : p.Move q) : q.Course catalogue := by
  have delivered : ∀ c ∈ q.received ++ q.compiled,
      Toolchain.standard.compiledBy? catalogue c.declared.unit = some c := by
    intro c held
    rcases move.delivers held with old | ⟨job, member, phase⟩
    · exact course.compiled c old
    · rw [(books.orderly.sending job member c phase).1, Toolchain.compiledBy?,
        course.declared job.declared (List.mem_append_right _ (List.mem_map_of_mem member))]
      exact course.sending job member c phase
  cases move with
  | exhaust | skip | abort | join | close | joinJobs | report => exact { course with }
  | accept stage unit rest input =>
    refine { course with tasks := fun task member => ?_ }
    rcases List.mem_append.mp member with old | new
    · exact course.tasks task old
    · rw [List.mem_singleton.mp new]
      trivial
  | endTypes stage declared =>
    have types := Table.sought_post p.tables.types stageCaller .finish
    exact { course.extend ⟨_, p.tables.methods⟩ (.of_eq types rfl) with }
  | endMethods stage reply types taken =>
    have methods := Table.sought_post p.tables.methods stageCaller .finish
    exact { course.extend ⟨types, _⟩ (.of_eq (Table.sought_takeReply taken) methods) with }
  | endResolution stage reply methods taken =>
    exact { course.extend ⟨_, methods⟩ (.of_eq rfl (Table.sought_takeReply taken)) with }
  | tables action tables moved => exact course.extend tables (Tables.perform_extends moved)
  | enter index task there => exact { course.setTask there .reading trivial with }
  | read index task there phase outline => exact course.setTask there (.registering _) trivial
  | refuse index task there => exact { course.setTask there .finished trivial with }
  | register index task there state phase next tables step =>
    obtain ⟨-, -, types, methods⟩ :=
      Registering.step_continuing (books.protocol.registering there phase).2 step
    have types := (types.frame books.protocol.types.sound).2.2
    have methods := (methods.frame books.protocol.methods.sound).2.2
    have kept := course.extend tables
      (.of_eq (congrArg (List.map _) types) (congrArg (List.map _) methods))
    exact kept.setTask there (.registering next) trivial
  | declare index task there state phase outline tables step =>
    obtain ⟨rfl, rfl, -, -⟩ :=
      Registering.step_finished (books.protocol.registering there phase).2 step
    exact { course.setTask there (.resolving (.start state.outline)) (.start _ _) with }
  | bar index task there state phase error tables step =>
    exact absurd step (books.protocol.not_barred there phase)
  | inquire index task there state phase next tables step =>
    have own := course.tasks task (List.mem_of_getElem? there)
    rw [ParseTask.OnCourse, phase] at own
    obtain ⟨onward, more⟩ := own.next types methods
      (Resolving.step_move books.protocol.types.sound books.protocol.methods.sound step)
    exact (course.extend tables more).setTask there (.resolving next) onward
  | emit index task there state phase references tables step unit diagnostics instances emitted =>
    obtain ⟨rfl, own, -⟩ := course.emitted books plain there phase step emitted
    exact { course.setTask there (.reporting unit diagnostics) own with }
  | lose index task there state phase error tables step =>
    exact absurd step books.protocol.not_lost
  | diagnose index task there unit diagnostic rest phase =>
    have own := course.tasks task (List.mem_of_getElem? there)
    rw [ParseTask.OnCourse, phase] at own
    exact { course.setTask there (.reporting unit rest) own with }
  | diagnosed index task there unit phase =>
    have own := course.tasks task (List.mem_of_getElem? there)
    rw [ParseTask.OnCourse, phase] at own
    exact course.setTask there (.sending unit) own
  | send index task there unit phase room =>
    have own := course.tasks task (List.mem_of_getElem? there)
    rw [ParseTask.OnCourse, phase] at own
    exact course.send there own
  | receive stage unit rest waiting => exact course.receive waiting
  | enterJob index job there phase => exact { course.setJob there .generating (by simp) with }
  | generate index job there phase artifacts generated =>
    refine { course.setJob there (.sending ⟨job.declared, artifacts⟩) fun compiled same => ?_ with }
    cases same
    rw [books.standard] at generated
    simp [Toolchain.generated?, generated, Except.toOption]
  | reject index job there | abandon index job there =>
    exact { course.setJob there .finished (by simp) with }
  | publish index job there =>
    exact { course.setJob there .finished (by simp) with compiled := delivered }
  | consume | consumeLast | consumeOne => exact { course with compiled := delivered }

end Course

/-! ## What is reported -/

def diagnostics (p : Pipeline) : List Diagnostic := p.log.filterMap Record.diagnostic?

theorem diagnostics_record (p : Pipeline) (record : Record) :
    (p.record record).diagnostics = p.diagnostics ++ record.diagnostic?.toList := by
  rw [diagnostics, log_record, List.filterMap_append, ← diagnostics]
  cases kind : record.diagnostic? <;> simp [kind]

theorem summary_diagnostics (collected : p.isFinished = true) :
    p.summary.diagnostics = p.diagnostics := by
  obtain ⟨-, -, -, records⟩ := Books.ended collected
  rw [summary, Summary.ofRecords_eq, diagnostics, log, records, List.append_nil]

/-- What a move reports: nothing, while the tasks stay as they are or one is added, or a task goes on and
reports what it does not have left to report. -/
inductive Tells (catalogue : Catalogue) (p q : Pipeline) : Prop where
  | idle (tasks : q.tasks = p.tasks) (diagnostics : q.diagnostics = p.diagnostics)
  | accept (unit : SourceUnit) (tasks : q.tasks = p.tasks ++ [({ unit } : ParseTask)])
      (diagnostics : q.diagnostics = p.diagnostics)
  | proceed {index : Nat} {task : ParseTask} (there : p.tasks[index]? = some task) (phase : ParsePhase)
      (told : List Diagnostic)
      (gone : task.untold catalogue = told ++ ParseTask.untold catalogue { task with phase })
      (tasks : q.tasks = (p.setTask index phase).tasks)
      (diagnostics : q.diagnostics = p.diagnostics ++ told)

theorem Tells.silent {index : Nat} {task : ParseTask} (there : p.tasks[index]? = some task)
    (phase : ParsePhase) (same : task.untold catalogue = ParseTask.untold catalogue { task with phase })
    (tasks : q.tasks = (p.setTask index phase).tasks)
    (diagnostics : q.diagnostics = p.diagnostics) : p.Tells catalogue q :=
  .proceed there phase [] same tasks (by rw [diagnostics, List.append_nil])

theorem Move.tells (move : p.Move q) (course : p.Course catalogue) (books : Books settings input p)
    (plain : catalogue.Plain) : p.Tells catalogue q := by
  have unreported {p : Pipeline} {record : Record} (other : record.diagnostic? = none) :
      (p.record record).diagnostics = p.diagnostics := by
    rw [diagnostics_record, other, Option.toList_none, List.append_nil]
  cases move with
  | exhaust | endTypes | endMethods | endResolution | join | tables | receive | close | joinJobs
  | enterJob | generate | abandon | publish | consume | consumeLast | consumeOne => exact .idle rfl rfl
  | accept stage unit rest input => exact .accept unit rfl rfl
  | skip | abort => exact .idle rfl (unreported rfl)
  | enter index task there phase =>
    exact .silent there .reading (by simp [ParseTask.untold, phase]) rfl rfl
  | read index task there phase outline =>
    exact .silent there (.registering { outline }) (by simp [ParseTask.untold, phase]) rfl rfl
  | refuse index task there phase failure read =>
    rw [books.standard] at read
    have kind := (task.unit.parsingRecord_kind failure).2.2.2
    refine .silent there .finished ?_ rfl (unreported (p := p.release) kind)
    simp [ParseTask.untold, phase, Toolchain.standard.diagnosticsBy_of_error catalogue read]
  | register index task there state phase next =>
    exact .silent there (.registering next) (by simp [ParseTask.untold, phase]) rfl rfl
  | declare index task there state phase outline =>
    exact .silent there (.resolving _) (by simp [ParseTask.untold, phase]) rfl rfl
  | bar index task there state phase error tables step =>
    exact absurd step (books.protocol.not_barred there phase)
  | inquire index task there state phase next =>
    exact .silent there (.resolving next) (by simp [ParseTask.untold, phase]) rfl rfl
  | emit index task there state phase references tables step unit diagnostics instances emitted =>
    obtain ⟨-, -, expected⟩ := course.emitted books plain there phase step emitted
    exact .silent there (.reporting unit diagnostics) (by simp [ParseTask.untold, phase, expected]) rfl rfl
  | lose index task there state phase error tables step =>
    exact absurd step books.protocol.not_lost
  | diagnose index task there unit diagnostic rest phase =>
    exact .proceed there (.reporting unit rest) [diagnostic] (by simp [ParseTask.untold, phase]) rfl
      (diagnostics_record p (.diagnostic diagnostic))
  | diagnosed index task there unit phase =>
    exact .silent there (.sending unit) (by simp [ParseTask.untold, phase]) rfl rfl
  | send index task there unit phase room =>
    exact .silent there .finished (by simp [ParseTask.untold, phase]) rfl rfl
  | reject index job there phase failure =>
    have kind := (job.declared.unit.compilationRecord_kind failure).2.2.2
    exact .idle rfl (unreported (p := p.release) kind)
  | report record rest records => exact .idle rfl (by simp [diagnostics, log, records])

structure Telling (catalogue : Catalogue) (p : Pipeline) : Prop where
  known : ∀ d ∈ p.diagnostics, d.unit ∈ p.tasks.map ParseTask.unit
  told : ∀ task ∈ p.tasks, p.diagnostics.filter (·.unit = task.unit) ++
    task.untold catalogue = Toolchain.standard.diagnosticsBy catalogue task.unit

namespace Telling

theorem accept (telling : p.Telling catalogue) {unit : SourceUnit}
    (fresh : unit ∉ p.tasks.map ParseTask.unit) (tasks : q.tasks = p.tasks ++ [({ unit } : ParseTask)])
    (diagnostics : q.diagnostics = p.diagnostics) : q.Telling catalogue := by
  refine ⟨fun d member => ?_, fun task member => ?_⟩
  · rw [diagnostics] at member
    rw [tasks, List.map_append]
    exact List.mem_append_left _ (telling.known d member)
  · rw [tasks] at member
    rw [diagnostics]
    rcases List.mem_append.mp member with old | new
    · exact telling.told task old
    · rw [List.mem_singleton.mp new]
      have silent : p.diagnostics.filter (·.unit = unit) = [] := by
        rw [List.filter_eq_nil_iff]
        intro d reported
        rw [decide_eq_true_eq]
        intro same
        exact fresh (same ▸ telling.known d reported)
      show p.diagnostics.filter (·.unit = unit) ++ _ = _
      rw [silent]
      rfl

/-- A task goes on and reports some diagnostics, which are about its own unit. -/
theorem proceed (telling : p.Telling catalogue)
    (names : ((p.tasks.map ParseTask.unit).map SourceUnit.qualifiedName).Nodup) {index : Nat}
    {task : ParseTask} (there : p.tasks[index]? = some task) {phase : ParsePhase} {told : List Diagnostic}
    (gone : task.untold catalogue = told ++ ParseTask.untold catalogue { task with phase })
    (tasks : q.tasks = (p.setTask index phase).tasks)
    (diagnostics : q.diagnostics = p.diagnostics ++ told) : q.Telling catalogue := by
  have member := List.mem_of_getElem? there
  have whole := telling.told task member
  rw [gone] at whole
  have own : ∀ d ∈ told, d.unit = task.unit := by
    intro d reported
    refine Toolchain.standard.diagnosticsBy_unit catalogue task.unit d ?_
    rw [← whole]
    exact List.mem_append_right _ (List.mem_append_left _ reported)
  have same : q.tasks.map ParseTask.unit = p.tasks.map ParseTask.unit := by
    rw [tasks, units_setTask]
  refine ⟨fun d reported => ?_, fun other changed => ?_⟩
  · rw [same]
    rw [diagnostics] at reported
    rcases List.mem_append.mp reported with old | new
    · exact telling.known d old
    · rw [own d new]
      exact List.mem_map_of_mem member
  · rw [tasks] at changed
    rw [diagnostics, List.filter_append]
    rcases place_of_mem_modify there changed with rfl | ⟨place, apart, found⟩
    · have all : told.filter (·.unit = task.unit) = told :=
        List.filter_eq_self.mpr fun d reported => decide_eq_true (own d reported)
      rw [all, List.append_assoc]
      exact whole
    · have different : told.filter (·.unit = other.unit) = [] := by
        rw [List.filter_eq_nil_iff]
        intro d reported
        rw [decide_eq_true_eq, own d reported]
        intro same
        exact apart (index_unique names found there (by rw [same]))
      rw [different, List.append_nil]
      exact telling.told other (List.mem_of_getElem? found)

theorem move (telling : p.Telling catalogue) (course : p.Course catalogue)
    (books : Books settings input p) (plain : catalogue.Plain)
    (distinct : ((Input.accepted settings.inputErrors input).map SourceUnit.qualifiedName).Nodup)
    (move : p.Move q) : q.Telling catalogue := by
  have whole := (books.move move).intake.accepted
  rw [(books.move move).settings] at whole
  have names := names_nodup whole distinct
  cases move.tells course books plain with
  | idle tasks diagnostics =>
    constructor
    · rw [tasks, diagnostics]
      exact telling.known
    · rw [tasks, diagnostics]
      exact telling.told
  | accept unit tasks diagnostics =>
    refine telling.accept ?_ tasks diagnostics
    have apart := names.of_map
    rw [tasks, List.map_append] at apart
    exact fun member => (List.nodup_append.mp apart).2.2 unit member unit List.mem_cons_self rfl
  | proceed there phase told gone tasks diagnostics =>
    refine telling.proceed ?_ there gone tasks diagnostics
    rwa [tasks, units_setTask] at names

/-- In the end everything has been reported. -/
theorem ended (telling : p.Telling catalogue) (books : Books settings input p)
    (collected : p.isFinished = true) (unit : SourceUnit) :
    p.summary.diagnostics.filter (·.unit = unit) =
      if unit ∈ Input.accepted settings.inputErrors input then
        Toolchain.standard.diagnosticsBy catalogue unit
      else [] := by
  have done := books.protocol.finished (Books.ended collected).1
  rw [summary_diagnostics collected, (books.accepted collected).1]
  split
  · next member =>
    obtain ⟨task, there, rfl⟩ := List.mem_map.mp member
    have told := telling.told task there
    rwa [task.untold_finished catalogue (done task there), List.append_nil] at told
  · next stranger =>
    refine List.filter_eq_nil_iff.mpr fun d member => ?_
    rw [decide_eq_true_eq]
    rintro rfl
    exact stranger (telling.known d member)

end Telling

end Pipeline

end UnitCompiler
