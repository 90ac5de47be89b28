import UnitCompiler.Proofs.PipelineProtocol
import UnitCompiler.Proofs.SessionRest

/-! A pipeline is never stuck. Permits are neither lost nor made up, and whoever holds one can go on or
has a letter with a table, which needs no permit to serve it. So what cannot go on waits for something
that comes before it: room for the stage behind, an answer for the end of the resolution, and the end
for the registrations of all units. -/

namespace UnitCompiler

namespace Table

variable {α : Type} [Named α] {t : Table α} {caller : Nat}

theorem mem_mailbox_of_calls {request : Request α} (called : request ∈ t.calls caller) :
    .call caller request ∈ t.mailbox := by
  obtain ⟨⟨other, own⟩, kept, rfl⟩ := List.mem_map.mp called
  obtain ⟨outstanding, same⟩ := List.mem_filter.mp kept
  obtain ⟨letter, posted, call⟩ := List.mem_filterMap.mp outstanding
  cases letter with
  | call other' own' =>
    cases call
    rwa [← eq_of_beq same]
  | check | subscribe => contradiction

/-- A request that is on the agenda is answered or in the mailbox. -/
theorem Serves.due {agenda : Nat → Option (Request α)} {confirmed : Nat → Log α}
    (serves : t.Serves agenda confirmed) {request : Request α} (asked : agenda caller = some request) :
    (∃ reply t', t.takeReply? caller = some (reply, t')) ∨ .call caller request ∈ t.mailbox := by
  obtain ⟨history, -, standings⟩ := serves
  have standing := standings caller
  rw [asked] at standing
  cases standing with
  | asked request calls =>
    apply Or.inr
    apply mem_mailbox_of_calls
    rw [calls]
    exact List.mem_singleton_self _
  | answered request reply calls answers =>
    apply Or.inl
    apply exists_takeReply
    rw [answers]
    exact List.cons_ne_nil _ _

end Table

/-- A caller has a letter in a mailbox. -/
def Tables.Awaits (t : Tables) (caller : Nat) : Prop :=
  (∃ request, .call caller request ∈ t.types.mailbox) ∨
    ∃ request, .call caller request ∈ t.methods.mailbox

namespace Registering

/-- A task that cannot go on has a registration with a table and no answer yet. -/
theorem blocked {r : Registering} {caller : Nat} {t : Tables} (valid : r.Valid)
    (stuck : r.step? caller t = none) :
    (∃ request, r.pending Outline.typePlan = some request ∧ t.types.takeReply? caller = none) ∨
      ∃ request, r.pending Outline.methodPlan = some request ∧
        t.methods.takeReply? caller = none := by
  unfold step? at stuck
  split at stuck
  · contradiction
  · next first waiting =>
    refine .inl ⟨.register r.outline.owner r.outline.type, ?_, Option.map_eq_none_iff.mp stuck⟩
    simp [pending, waiting, first, Outline.typePlan]
  · split at stuck <;> contradiction
  · next n later waiting =>
    have there : n < r.outline.methods.length := by
      have inside := valid.2 waiting
      rw [later, Outline.size] at inside
      omega
    refine .inr ⟨.register r.outline.owner r.outline.methods[n], ?_, Option.map_eq_none_iff.mp stuck⟩
    simp [pending, waiting, later, Outline.methodPlan, there]

end Registering

namespace Resolving

variable {r : Resolving} {t : Tables}

/-- A unit is not kept waiting by tables that are at rest and have ended. -/
theorem Poses.goes_on (poses : r.Poses t) (types : t.types.Sound) (methods : t.methods.Sound)
    (quietTypes : t.types.Quiescent) (quietMethods : t.methods.Quiescent)
    (typesEnded : t.types.registry.ended = true) (methodsEnded : t.methods.registry.ended = true) :
    r.step? t ≠ none := by
  intro stuck
  obtain ⟨spot, waits⟩ := poses.waits types methods quietTypes quietMethods stuck
  simpa [typesEnded, methodsEnded] using waits.live

end Resolving

namespace Pipeline

variable {p q : Pipeline}

/-! ## Permits -/

def holders (p : Pipeline) : Nat :=
  p.tasks.countP (·.phase.holdsPermit) + p.jobs.countP (·.phase.holdsPermit)

def allotment (p : Pipeline) : Option Nat := p.permits.map (· + p.holders)

theorem start_allotment (toolchain : Toolchain) (settings : Settings) (input : List Input)
    (wanted : Option Nat) :
    (start toolchain settings input wanted).allotment = settings.maxParallelUnits := by
  simp [allotment, holders, start]

theorem acquire_permits {permits : Option Nat} (acquired : p.acquire? = some { p with permits }) :
    p.permits = permits.map (· + 1) := by
  unfold acquire? at acquired
  split at acquired
  · next unlimited =>
    have same : p.permits = permits := congrArg Pipeline.permits (Option.some.inj acquired)
    rw [← same, unlimited]
    rfl
  · contradiction
  · next free limited =>
    have same : some free = permits := congrArg Pipeline.permits (Option.some.inj acquired)
    rw [← same, limited]
    rfl

/-- Permits change hands: what is free before and after makes up for what is held. -/
theorem exchange {free free' : Option Nat} {held held' before after : Nat}
    (freed : free'.map (· + after) = free.map (· + before))
    (taken : held' + before = held + after) : free'.map (· + held') = free.map (· + held) := by
  cases free with
  | none => simpa using freed
  | some n =>
    cases free' with
    | none => simp at freed
    | some m =>
      simp only [Option.map_some, Option.some.injEq] at freed ⊢
      omega

theorem allotment_setTask {index : Nat} {task : ParseTask} (there : p.tasks[index]? = some task)
    (phase : ParsePhase) (permits : Option Nat)
    (freed : permits.map (· + phase.holdsPermit.toNat) =
      p.permits.map (· + task.phase.holdsPermit.toNat)) :
    ({ p with permits }.setTask index phase).allotment = p.allotment := by
  apply exchange freed
  have count := countP_modify (fun task : ParseTask => task.phase.holdsPermit)
    (fun task => { task with phase }) there
  dsimp only at count
  simp only [holders, setTask]
  omega

/-- A task goes on with what it holds. -/
theorem allotment_keepTask {index : Nat} {task : ParseTask} (there : p.tasks[index]? = some task)
    {phase : ParsePhase} (same : phase.holdsPermit = task.phase.holdsPermit) :
    (p.setTask index phase).allotment = p.allotment :=
  allotment_setTask there phase p.permits (by rw [same])

theorem allotment_setJob {index : Nat} {job : Job} (there : p.jobs[index]? = some job)
    (phase : JobPhase) (permits : Option Nat)
    (freed : permits.map (· + phase.holdsPermit.toNat) =
      p.permits.map (· + job.phase.holdsPermit.toNat)) :
    ({ p with permits }.setJob index phase).allotment = p.allotment := by
  apply exchange freed
  have count := countP_modify (fun job : Job => job.phase.holdsPermit)
    (fun job => { job with phase }) there
  dsimp only at count
  simp only [holders, setJob]
  omega

/-- Permits are neither lost nor made up. -/
theorem move_allotment (move : p.Move q) : q.allotment = p.allotment := by
  have released : p.release.permits.map (· + 0) = p.permits.map (· + 1) := by
    rw [release, Option.map_map]
    rfl
  cases move with
  | exhaust | skip | abort | endTypes | endMethods | endResolution | join | tables | close | joinJobs
  | consume | consumeLast | consumeOne | report => rfl
  | accept => simp [allotment, holders, ParsePhase.holdsPermit]
  | receive => simp [allotment, holders, JobPhase.holdsPermit]
  | enter index task there phase permits acquired =>
    apply allotment_setTask there .reading permits
    rw [phase, acquire_permits acquired, Option.map_map]
    rfl
  | read index task there phase => exact allotment_keepTask there (by rw [phase]; rfl)
  | refuse index task there phase =>
    exact allotment_setTask there .finished p.release.permits (by rw [phase]; exact released)
  | register index task there state phase =>
    exact allotment_keepTask there (by rw [phase]; rfl)
  | declare index task there state phase =>
    exact allotment_setTask there (.resolving _) p.release.permits (by rw [phase]; exact released)
  | bar index task there state phase =>
    exact allotment_setTask there .finished p.release.permits (by rw [phase]; exact released)
  | inquire index task there state phase | emit index task there state phase
  | lose index task there state phase =>
    exact allotment_keepTask there (by rw [phase]; rfl)
  | diagnose index task there unit diagnostic rest phase =>
    exact allotment_keepTask there (by rw [phase]; rfl)
  | diagnosed index task there unit phase | send index task there unit phase =>
    exact allotment_keepTask there (by rw [phase]; rfl)
  | enterJob index job there phase permits acquired =>
    apply allotment_setJob there .generating permits
    rw [phase, acquire_permits acquired, Option.map_map]
    rfl
  | generate index job there phase =>
    exact allotment_setJob there (.sending _) p.release.permits (by rw [phase]; exact released)
  | reject index job there phase =>
    exact allotment_setJob there .finished p.release.permits (by rw [phase]; exact released)
  | abandon index job there compiled phase | publish index job there compiled phase =>
    exact allotment_setJob there .finished p.permits (by rw [phase]; rfl)

theorem move_settings (move : p.Move q) : q.settings = p.settings := by
  cases move <;> rfl

/-! ## What holds on the way -/

structure Closing (p : Pipeline) : Prop where
  parsed : p.compile ≠ .receiving → p.parse = .finished
  abandoned : p.wanted = some 0 → p.compiled = []

theorem Closing.move (closing : p.Closing) (move : p.Move q) : q.Closing := by
  have early (unfinished : p.parse ≠ .finished) : p.compile = .receiving := by
    by_contra later
    exact unfinished (closing.parsed later)
  cases move with
  | exhaust stage | endTypes stage | endMethods stage | endResolution stage | join stage
  | abort stage =>
    refine { closing with parsed := fun later => absurd (early ?_) later }
    rw [stage]
    simp
  | accept | skip | tables | enter | read | refuse | register | declare | bar | inquire | emit | lose
  | diagnose | diagnosed | send | receive | enterJob | generate | reject | abandon | report =>
    exact ⟨closing.parsed, closing.abandoned⟩
  | joinJobs stage => exact { closing with parsed := fun _ => closing.parsed (by simp [stage]) }
  | close stage empty parsed => exact { closing with parsed := fun _ => parsed }
  | publish index job there compiled phase wanted =>
    exact { closing with abandoned := fun gone => absurd gone wanted }
  | consume unit rest compiled wanted =>
    exact { closing with abandoned := fun gone => by simp [wanted] at gone }
  | consumeLast => exact { closing with abandoned := fun _ => rfl }
  | consumeOne unit rest compiled more =>
    exact { closing with abandoned := fun gone => by simp at gone }

def Posing (p : Pipeline) : Prop :=
  ∀ task ∈ p.tasks, ∀ r, task.phase = .resolving r → r.Poses p.tables

namespace Posing

theorem extend (posing : p.Posing) {tables : Tables} (more : p.tables.Extends tables) :
    Posing { p with tables } :=
  fun task member r phase => (posing task member r phase).extend more

theorem setTask (posing : p.Posing) {index : Nat} {task : ParseTask}
    (there : p.tasks[index]? = some task) (phase : ParsePhase)
    (own : ∀ r, phase = .resolving r → r.Poses p.tables) : Posing (p.setTask index phase) := by
  intro other member r resolving
  rcases mem_modify there member with rfl | old
  · exact own r resolving
  · exact posing other old r resolving

theorem move (posing : p.Posing) (protocol : p.Protocol) (move : p.Move q) : q.Posing := by
  cases move with
  | exhaust | skip | abort | join | close | joinJobs | report | receive | enterJob | generate | reject
  | abandon | publish | consume | consumeLast | consumeOne => exact posing
  | accept stage unit rest input =>
    intro task member r phase
    rcases List.mem_append.mp member with old | new
    · exact posing task old r phase
    · rw [List.mem_singleton.mp new] at phase
      contradiction
  | endTypes stage declared =>
    have types := Table.sought_post p.tables.types stageCaller .finish
    exact posing.extend (.of_eq types rfl)
  | endMethods stage reply types taken =>
    have methods := Table.sought_post p.tables.methods stageCaller .finish
    exact posing.extend (.of_eq (Table.sought_takeReply taken) methods)
  | endResolution stage reply methods taken =>
    exact posing.extend (.of_eq rfl (Table.sought_takeReply taken))
  | tables action tables moved => exact posing.extend (Tables.perform_extends moved)
  | enter index task there | read index task there | refuse index task there
  | diagnose index task there | diagnosed index task there | send index task there =>
    exact posing.setTask there _ (by simp)
  | register index task there state phase next tables step =>
    obtain ⟨-, -, types, methods⟩ :=
      Registering.step_continuing (protocol.registering there phase).2 step
    have types := (types.frame protocol.types.sound).2.2
    have methods := (methods.frame protocol.methods.sound).2.2
    have kept := posing.extend (.of_eq (congrArg (List.map _) types) (congrArg (List.map _) methods))
    exact kept.setTask there (.registering next) (by simp)
  | declare index task there state phase outline tables step =>
    obtain ⟨rfl, rfl, -, -⟩ := Registering.step_finished (protocol.registering there phase).2 step
    apply posing.setTask there (.resolving (.start state.outline))
    intro r same
    cases same
    exact .start _ _
  | bar index task there state phase error tables step =>
    exact absurd step (protocol.not_barred there phase)
  | inquire index task there state phase next tables step =>
    have moved := Resolving.step_move protocol.types.sound protocol.methods.sound step
    apply (posing.extend moved.extends).setTask there (.resolving next)
    intro r same
    cases same
    exact moved.poses
  | emit index task there state phase references tables step =>
    cases Resolving.step_move protocol.types.sound protocol.methods.sound step
    exact posing.setTask there _ (by simp)
  | lose index task there state phase error tables step => exact absurd step protocol.not_lost

end Posing

/-- Whoever receives the compiled units goes away. Those that wait are dropped. -/
def leave (p : Pipeline) : Pipeline := { p with compiled := [], wanted := some 0 }

inductive Occurrence where
  | step (action : Action)
  | leave

def happen (p : Pipeline) : Occurrence → Option Pipeline
  | .step action => p.perform action
  | .leave => some p.leave

/-- Goes through some occurrences, if each step is enabled when its turn comes. -/
def undergo (p : Pipeline) (occurrences : List Occurrence) : Option Pipeline :=
  runSchedule happen p occurrences

structure Going (settings : Settings) (p : Pipeline) : Prop where
  constant : p.settings = settings
  protocol : p.Protocol
  closing : p.Closing
  posing : p.Posing
  allotment : p.allotment = settings.maxParallelUnits

namespace Going

variable {settings : Settings}

theorem start (toolchain : Toolchain) (settings : Settings) (input : List Input)
    (wanted : Option Nat) : Going settings (.start toolchain settings input wanted) where
  constant := rfl
  protocol := start_protocol toolchain settings input wanted
  closing := ⟨fun later => absurd rfl later, fun _ => rfl⟩
  posing task member := by simp [Pipeline.start] at member
  allotment := start_allotment toolchain settings input wanted

theorem move (going : p.Going settings) (move : p.Move q) : q.Going settings where
  constant := (move_settings move).trans going.constant
  protocol := going.protocol.move move
  closing := going.closing.move move
  posing := going.posing.move going.protocol move
  allotment := (move_allotment move).trans going.allotment

theorem leave (going : p.Going settings) : p.leave.Going settings :=
  { going with
    protocol := { going.protocol with }
    closing := { going.closing with abandoned := fun _ => rfl } }

theorem undergo (going : p.Going settings) (occurrences : List Occurrence)
    (reached : p.undergo occurrences = some q) : q.Going settings := by
  refine runSchedule_induction (P := fun _ => Going settings) going ?_ reached
  intro past r occurrence next going happened
  cases occurrence with
  | step action => exact going.move (perform_move happened)
  | leave =>
    cases happened
    exact going.leave

end Going

/-! ## Who holds a permit -/

/-- A task that holds a permit can go on, or a table has its registration. -/
theorem Protocol.holder_waits (protocol : p.Protocol) {index : Nat} {task : ParseTask}
    (there : p.tasks[index]? = some task) (holds : task.phase.holdsPermit = true)
    (blocked : p.parseTask? index = none) :
    (∃ r, task.phase = .registering r) ∧ p.tables.Awaits (taskCaller index) := by
  unfold parseTask? at blocked
  rw [there] at blocked
  dsimp only at blocked
  cases phase : task.phase with
  | queued | resolving | reporting | sending | finished => simp [phase, ParsePhase.holdsPermit] at holds
  | reading =>
    rw [phase] at blocked
    dsimp only at blocked
    split at blocked <;> contradiction
  | registering r =>
    rw [phase] at blocked
    have stuck : r.step? (taskCaller index) p.tables = none := Option.map_eq_none_iff.mp blocked
    have asked {α : Type} [Named α] (plan : Plan α) (ending : ParseStage) :
        agenda plan ending p.parse p.tasks (taskCaller index) = r.pending plan := by
      rw [agenda, shares_task _ _ _ there, phase, ParsePhase.pending]
    refine ⟨⟨r, rfl⟩, ?_⟩
    rcases Registering.blocked (protocol.registering there phase).2 stuck with
      ⟨request, pending, none⟩ | ⟨request, pending, none⟩
    · rcases protocol.types.serves.due ((asked _ _).trans pending) with ⟨reply, t, taken⟩ | posted
      · simp [none] at taken
      · exact .inl ⟨request, posted⟩
    · rcases protocol.methods.serves.due ((asked _ _).trans pending) with ⟨reply, t, taken⟩ | posted
      · simp [none] at taken
      · exact .inr ⟨request, posted⟩

/-- A job that holds a permit can go on. -/
theorem generate_of_holds {index : Nat} {job : Job} (there : p.jobs[index]? = some job)
    (holds : job.phase.holdsPermit = true) : p.generate? index ≠ none := by
  intro blocked
  unfold generate? at blocked
  rw [there] at blocked
  dsimp only at blocked
  cases phase : job.phase with
  | queued | sending | finished => simp [phase, JobPhase.holdsPermit] at holds
  | generating =>
    rw [phase] at blocked
    dsimp only at blocked
    split at blocked <;> contradiction

/-! ## Nothing is stuck -/

/-- A pipeline that cannot go on, though there are permits and room in the channels. -/
structure Halted (settings : Settings) (p : Pipeline) : Prop where
  stuck : ∀ action, p.perform action = none
  going : p.Going settings
  limit : settings.maxParallelUnits ≠ some 0
  room : 0 < settings.channelCapacity

namespace Halted

variable {settings : Settings}

theorem quiescent (halted : p.Halted settings) :
    p.tables.types.Quiescent ∧ p.tables.methods.Quiescent :=
  Tables.quiescent fun action => Option.map_eq_none_iff.mp (halted.stuck (.tables action))

theorem records (halted : p.Halted settings) : p.records = [] := by
  have blocked : p.report? = none := halted.stuck .report
  unfold report? at blocked
  split at blocked
  · assumption
  · contradiction

theorem compiled (halted : p.Halted settings) : p.compiled = [] := by
  have blocked : p.consume? = none := halted.stuck .consume
  unfold consume? at blocked
  split at blocked
  · next gone => exact halted.going.closing.abandoned gone
  · assumption
  · contradiction
  · contradiction
  · contradiction

theorem no_holder (halted : p.Halted settings) : p.holders = 0 := by
  have tasks : p.tasks.countP (·.phase.holdsPermit) = 0 := by
    rw [List.countP_eq_zero]
    intro task member holds
    obtain ⟨index, there⟩ := List.mem_iff_getElem?.mp member
    rcases (halted.going.protocol.holder_waits there holds (halted.stuck (.parse index))).2 with
      ⟨request, posted⟩ | ⟨request, posted⟩
    · simp [halted.quiescent.1.1] at posted
    · simp [halted.quiescent.2.1] at posted
  have jobs : p.jobs.countP (·.phase.holdsPermit) = 0 := by
    rw [List.countP_eq_zero]
    intro job member holds
    obtain ⟨index, there⟩ := List.mem_iff_getElem?.mp member
    exact generate_of_holds there holds (halted.stuck (.generate index))
  rw [holders, tasks, jobs]

/-- With nobody holding a permit, one is free. -/
theorem permit (halted : p.Halted settings) : p.acquire? ≠ none := by
  intro blocked
  have allotment := halted.going.allotment
  rw [Pipeline.allotment, halted.no_holder] at allotment
  unfold acquire? at blocked
  split at blocked
  · contradiction
  · next none =>
    rw [none] at allotment
    exact halted.limit allotment.symm
  · contradiction

theorem jobs (halted : p.Halted settings) : ∀ job ∈ p.jobs, job.phase.isFinished = true := by
  intro job member
  obtain ⟨index, there⟩ := List.mem_iff_getElem?.mp member
  have blocked : p.generate? index = none := halted.stuck (.generate index)
  cases phase : job.phase with
  | finished => rfl
  | generating => exact absurd blocked (generate_of_holds there (by rw [phase]; rfl))
  | queued =>
    have acquired : p.acquire? = none := by simpa [generate?, there, phase] using blocked
    exact absurd acquired halted.permit
  | sending compiled =>
    have fits : p.compiled.length < p.settings.channelCapacity := by
      rw [halted.compiled, halted.going.constant]
      exact halted.room
    simp only [generate?, there, phase, if_pos fits] at blocked
    split at blocked <;> contradiction

/-- What is left of the tasks only waits for lookups or for room behind them. -/
theorem tasks (halted : p.Halted settings) {task : ParseTask} (member : task ∈ p.tasks) :
    (∃ r, task.phase = .resolving r ∧ r.step? p.tables = none) ∨
      (∃ unit, task.phase = .sending unit ∧ settings.channelCapacity ≤ p.declared.length) ∨
      task.phase = .finished := by
  obtain ⟨index, there⟩ := List.mem_iff_getElem?.mp member
  have blocked : p.parseTask? index = none := halted.stuck (.parse index)
  have idle := List.countP_eq_zero.mp (Nat.eq_zero_of_add_eq_zero_right halted.no_holder)
  cases phase : task.phase with
  | finished => exact .inr (.inr rfl)
  | reading | registering => exact absurd (by rw [phase]; rfl) (idle task member)
  | queued =>
    have acquired : p.acquire? = none := by simpa [parseTask?, there, phase] using blocked
    exact absurd acquired halted.permit
  | resolving r =>
    refine .inl ⟨r, rfl, ?_⟩
    simpa [parseTask?, there, phase] using blocked
  | reporting unit diagnostics => cases diagnostics <;> simp [parseTask?, there, phase] at blocked
  | sending unit =>
    refine .inr (.inl ⟨unit, rfl, ?_⟩)
    simpa [parseTask?, there, phase, halted.going.constant] using blocked

/-- With room behind them, tasks only wait for lookups. -/
theorem drained (halted : p.Halted settings) (empty : p.declared = []) {task : ParseTask}
    (member : task ∈ p.tasks) :
    (∃ r, task.phase = .resolving r ∧ r.step? p.tables = none) ∨ task.phase = .finished := by
  rcases halted.tasks member with waiting | ⟨unit, -, full⟩ | finished
  · exact .inl waiting
  · have room := halted.room
    rw [empty, List.length_nil] at full
    omega
  · exact .inr finished

/-- The parse stage has come to wait for its tasks. -/
theorem joining (halted : p.Halted settings) (empty : p.declared = []) (unfinished : p.parse ≠ .finished) :
    p.parse = .joining := by
  have concluded : p.conclude? = none := halted.stuck .conclude
  have answered {α : Type} [Named α] {plan : Plan α} {ending : ParseStage} {t : Table α}
      (desk : Desk plan ending p.toolchain.grammar p.parse p.tasks t) (here : p.parse = ending)
      (quiet : t.mailbox = []) : t.takeReply? stageCaller ≠ none := by
    intro absent
    have asked : agenda plan ending p.parse p.tasks stageCaller = some .finish := if_pos here
    rcases desk.serves.due asked with ⟨reply, t', taken⟩ | posted
    · simp [absent] at taken
    · simp [quiet] at posted
  cases stage : p.parse with
  | accepting =>
    have accepted : p.accept? = none := halted.stuck .accept
    simp only [accept?, stage, ne_eq, not_true_eq_false, if_false] at accepted
    split at accepted
    · contradiction
    · contradiction
    · split at accepted <;> contradiction
  | awaiting =>
    have declared : p.tasks.all (·.phase.isDeclared) = true := by
      rw [List.all_eq_true]
      intro task member
      rcases halted.drained empty member with ⟨r, phase, -⟩ | phase
      · rw [phase]
        rfl
      · rw [phase]
        rfl
    simp [conclude?, stage, declared] at concluded
  | endingTypes =>
    apply absurd _ (answered halted.going.protocol.types stage halted.quiescent.1.1)
    simpa [conclude?, stage] using concluded
  | endingMethods =>
    apply absurd _ (answered halted.going.protocol.methods stage halted.quiescent.2.1)
    simpa [conclude?, stage] using concluded
  | joining => rfl
  | finished => exact absurd stage unfinished

theorem parsed (halted : p.Halted settings) (empty : p.declared = []) : p.parse = .finished := by
  by_contra unfinished
  have stage := halted.joining empty unfinished
  have protocol := halted.going.protocol
  have typesEnded := protocol.types.closed (by rw [stage]; decide)
  have methodsEnded := protocol.methods.closed (by rw [stage]; decide)
  have finished : p.tasks.all (·.phase.isFinished) = true := by
    rw [List.all_eq_true]
    intro task member
    rcases halted.drained empty member with ⟨r, phase, waiting⟩ | phase
    · apply absurd waiting
      exact (halted.going.posing task member r phase).goes_on protocol.types.sound
        protocol.methods.sound halted.quiescent.1 halted.quiescent.2 typesEnded methodsEnded
    · rw [phase]
      rfl
  have concluded : p.conclude? = none := halted.stuck .conclude
  simp [conclude?, stage, finished] at concluded

/-- A pipeline that cannot go on is at its end. -/
theorem finished (halted : p.Halted settings) : p.isFinished = true := by
  have received : p.receive? = none := halted.stuck .receive
  cases stage : p.compile with
  | receiving =>
    cases waiting : p.declared with
    | cons unit rest => simp [receive?, stage, waiting] at received
    | nil =>
      have parsed := halted.parsed waiting
      simp [receive?, stage, waiting, parsed] at received
  | joining =>
    have finished := List.all_eq_true.mpr halted.jobs
    simp [receive?, stage, finished] at received
  | finished =>
    have parsed := halted.going.closing.parsed (by rw [stage]; simp)
    simp [isFinished, parsed, stage, halted.compiled, halted.records]

end Halted

/-- Whoever receives the compiled units takes them, or goes away at any time. Whatever has happened, a
pipeline with a permit and room in its channels can go on until it is finished. The permits that are
free and those that are held make up the limit. Of the tasks and jobs that cannot go on, whether they
wait for a lookup, for room or for a permit, none holds a permit but one whose registration is in the
mailbox of a table, which serves it without one. -/
theorem unfinished_never_stuck (toolchain : Toolchain) (settings : Settings) (input : List Input)
    (wanted : Option Nat) (limit : settings.maxParallelUnits ≠ some 0)
    (room : 0 < settings.channelCapacity) (occurrences : List Occurrence) (p : Pipeline)
    (reached : (start toolchain settings input wanted).undergo occurrences = some p) :
    (p.isFinished = false → ∃ action next, p.perform action = some next) ∧
    p.permits.map (· + p.holders) = settings.maxParallelUnits ∧
    (∀ index task, p.tasks[index]? = some task → p.parseTask? index = none →
      task.phase.holdsPermit = false ∨
        (∃ r, task.phase = .registering r) ∧ p.tables.Awaits (taskCaller index)) ∧
    ∀ index job, p.jobs[index]? = some job → p.generate? index = none →
      job.phase.holdsPermit = false := by
  have going := (Going.start toolchain settings input wanted).undergo occurrences reached
  refine ⟨fun unfinished => ?_, going.allotment, fun index task there blocked => ?_,
    fun index job there blocked => ?_⟩
  · by_contra none
    have stuck : ∀ action, p.perform action = Option.none := by
      intro action
      rw [Option.eq_none_iff_forall_ne_some]
      intro next performed
      exact none ⟨action, next, performed⟩
    have halted : p.Halted settings := ⟨stuck, going, limit, room⟩
    simp [halted.finished] at unfinished
  · by_cases holds : task.phase.holdsPermit = true
    · exact .inr (going.protocol.holder_waits there holds blocked)
    · exact .inl (Bool.not_eq_true _ |>.mp holds)
  · by_contra holds
    exact generate_of_holds there (Bool.not_eq_false _ |>.mp holds) blocked

def entangled : List Input :=
  [.unit { fileName := "A.firefly", relativePath := "m", content := .text "fn f(x: B) \x7b\x7d" },
    .unit { fileName := "B.firefly", relativePath := "m", content := .text "fn f(x: A) \x7b\x7d" }]

/-- With one permit, the first unit waits for the type of the second, which has the permit and waits for
its registration. Whoever wanted the units is gone. -/
def standoff : List Occurrence :=
  let confirm (serve : Tables.Action) : List Occurrence :=
    [.step (.parse 0), .step (.tables serve), .step (.parse 0)]
  let check : List Occurrence := [.step (.tables (.advanceType 0)), .step (.tables .serveTypes)]
  ([.step .accept, .step .accept, .step (.parse 0), .step (.parse 0)] : List Occurrence) ++
    confirm .serveTypes ++ confirm .serveMethods ++ confirm .serveMethods ++
    ([.step (.parse 0), .step (.parse 0)] : List Occurrence) ++ check ++ check ++ check ++
    ([.step (.parse 1), .step (.parse 1), .step (.parse 1), .leave] : List Occurrence)

theorem standoff_not_stuck : ∃ p,
    (start .standard ⟨some 1, .failFast, 1, 1⟩ entangled none).undergo standoff = some p ∧
      p.parseTask? 0 = none ∧ p.parseTask? 1 = none ∧ p.permits = some 0 ∧
      p.permits.map (· + p.holders) = some 1 ∧ ∃ action next, p.perform action = some next := by
  have runs : ((start .standard ⟨some 1, .failFast, 1, 1⟩ entangled none).undergo standoff).map
      (fun p => (p.isFinished, (p.parseTask? 0).isNone, (p.parseTask? 1).isNone, p.permits)) =
        some (false, true, true, some 0) := by
    decide +kernel
  obtain ⟨p, reached, told⟩ := Option.map_eq_some_iff.mp runs
  simp only [Prod.mk.injEq, Option.isNone_iff_eq_none] at told
  obtain ⟨unfinished, first, second, none⟩ := told
  obtain ⟨goes_on, allotment, -, -⟩ := unfinished_never_stuck .standard ⟨some 1, .failFast, 1, 1⟩
    entangled Option.none (by decide) (by decide) standoff p reached
  exact ⟨p, reached, first, second, none, allotment, goes_on unfinished⟩

/-- The only unit holds the only permit while it waits for the answer to its first registration. -/
theorem registration_awaited_with_permit : ∃ p task,
    (start .standard ⟨some 1, .failFast, 1, 1⟩ (entangled.take 1) none).undergo
      [.step .accept, .step (.parse 0), .step (.parse 0), .step (.parse 0)] = some p ∧
    p.tasks[0]? = some task ∧ p.parseTask? 0 = none ∧ p.tables.Awaits (taskCaller 0) ∧
      task.phase.holdsPermit = true ∧ p.permits = some 0 := by
  refine ⟨_, _, rfl, rfl, rfl, .inl ⟨_, List.mem_singleton_self _⟩, rfl, rfl⟩

end Pipeline

end UnitCompiler
