import UnitCompiler.Proofs.InquiryResolution
import UnitCompiler.Proofs.OutlineRegistration
import UnitCompiler.Proofs.PipelineSteps

/-! The order of things in the parse stage. The tables serve the stage and its tasks, the resolution
ends after every unit is registered, and so no registration is refused and no lookup is given up. -/

namespace UnitCompiler

variable {α : Type} [Named α]

def ParseStage.rank : ParseStage → Nat
  | .accepting => 0
  | .awaiting => 1
  | .endingTypes => 2
  | .endingMethods => 3
  | .joining => 4
  | .finished => 5

def ParsePhase.pending (plan : Plan α) : ParsePhase → Option (Request α)
  | .registering r => r.pending plan
  | _ => none

/-- A task that has declared its unit has no registration left. -/
theorem ParsePhase.pending_of_declared (plan : Plan α) {phase : ParsePhase}
    (declared : phase.isDeclared = true) : phase.pending plan = none := by
  cases phase with
  | queued | reading | registering => simp [isDeclared] at declared
  | resolving | reporting | sending | finished => rfl

def Plan.ofUnit (plan : Plan α) (grammar : Grammar) (unit : SourceUnit) : Log α :=
  match Outline.read grammar unit with
  | .ok o => plan.entries o o.size
  | .error _ => []

namespace ParseTask

def confirmed (plan : Plan α) (grammar : Grammar) (task : ParseTask) : Log α :=
  match task.phase with
  | .queued | .reading => []
  | .registering r => plan.entries r.outline r.confirmed
  | .resolving _ | .reporting _ _ | .sending _ | .finished => plan.ofUnit grammar task.unit

omit [Named α] in
/-- A task that has declared its unit knows all of it to be registered. -/
theorem confirmed_of_declared (plan : Plan α) (grammar : Grammar) {task : ParseTask}
    (declared : task.phase.isDeclared = true) :
    task.confirmed plan grammar = plan.ofUnit grammar task.unit := by
  cases phase : task.phase with
  | queued | reading | registering => simp [phase, ParsePhase.isDeclared] at declared
  | resolving | reporting | sending | finished => simp [confirmed, phase]

def Faithful (toolchain : Toolchain) (task : ParseTask) : Prop :=
  match task.phase with
  | .queued | .reading | .finished => True
  | .registering r => Outline.read toolchain.grammar task.unit = .ok r.outline ∧ r.Valid
  | .resolving r => Outline.read toolchain.grammar task.unit = .ok r.outline
  | .reporting declared _ | .sending declared =>
    ∃ outline instances references, Outline.read toolchain.grammar task.unit = .ok outline ∧
      declared = (outline.emit toolchain.inliner instances references).1

end ParseTask

namespace Pipeline

/-- What belongs to each caller, given what belongs to the stage and to a task. -/
def shares {β : Type} (stage none : β) (share : ParseTask → β) (tasks : List ParseTask) : Nat → β
  | 0 => stage
  | index + 1 => (tasks[index]?).elim none share

/-- Who has which request with a table: the stage asks for the end when it has come to that. -/
def agenda (plan : Plan α) (ending parse : ParseStage) (tasks : List ParseTask) :
    Nat → Option (Request α) :=
  shares (if parse = ending then some .finish else none) none (·.phase.pending plan) tasks

def confirmations (plan : Plan α) (grammar : Grammar) (tasks : List ParseTask) : Nat → Log α :=
  shares [] [] (·.confirmed plan grammar) tasks

/-- A table serves the stage and the tasks, and ends when the stage has asked for it. -/
structure Desk (plan : Plan α) (ending : ParseStage) (grammar : Grammar) (parse : ParseStage)
    (tasks : List ParseTask) (t : Table α) : Prop where
  sound : t.Sound
  serves : t.Serves (agenda plan ending parse tasks) (confirmations plan grammar tasks)
  opened : t.registry.ended = true → ending.rank ≤ parse.rank
  closed : ending.rank < parse.rank → t.registry.ended = true

structure Protocol (p : Pipeline) : Prop where
  types : Desk Outline.typePlan .endingTypes p.toolchain.grammar p.parse p.tasks p.tables.types
  methods :
    Desk Outline.methodPlan .endingMethods p.toolchain.grammar p.parse p.tasks p.tables.methods
  faithful : ∀ task ∈ p.tasks, task.Faithful p.toolchain
  declared : ParseStage.endingTypes.rank ≤ p.parse.rank →
    ∀ task ∈ p.tasks, task.phase.isDeclared = true
  finished : p.parse = .finished → ∀ task ∈ p.tasks, task.phase.isFinished = true

theorem shares_modify {β : Type} (stage none : β) (share : ParseTask → β) (tasks : List ParseTask)
    (index : Nat) (task : ParseTask) (there : tasks[index]? = some task) (phase : ParsePhase) :
    shares stage none share (tasks.modify index fun task => { task with phase }) =
      Function.update (shares stage none share tasks) (taskCaller index)
        (share { task with phase }) := by
  funext caller
  cases caller with
  | zero => simp [shares, taskCaller, Function.update]
  | succ other =>
    by_cases same : other = index
    · subst same
      simp [shares, taskCaller, there]
    · simp [shares, taskCaller, same, Ne.symm same]

/-- A new task has nothing yet. -/
theorem shares_push {β : Type} (stage none : β) (share : ParseTask → β) (tasks : List ParseTask)
    (task : ParseTask) (fresh : share task = none) :
    shares stage none share (tasks ++ [task]) = shares stage none share tasks := by
  funext caller
  cases caller with
  | zero => rfl
  | succ index =>
    simp only [shares, List.getElem?_append, List.getElem?_singleton]
    split
    · rfl
    · next beyond =>
      rw [List.getElem?_eq_none (Nat.le_of_not_lt beyond)]
      split
      · exact fresh
      · rfl

theorem shares_stage {β : Type} (stage stage' none : β) (share : ParseTask → β)
    (tasks : List ParseTask) :
    shares stage' none share tasks =
      Function.update (shares stage none share tasks) stageCaller stage' := by
  funext caller
  cases caller with
  | zero => rfl
  | succ index => simp [shares, stageCaller]

theorem shares_task {β : Type} (stage none : β) (share : ParseTask → β) {tasks : List ParseTask}
    {index : Nat} {task : ParseTask} (there : tasks[index]? = some task) :
    shares stage none share tasks (taskCaller index) = share task := by
  simp [shares, taskCaller, there]

theorem shares_modify_same {β : Type} (stage none : β) (share : ParseTask → β)
    {tasks : List ParseTask} {index : Nat} {task : ParseTask} (there : tasks[index]? = some task)
    {phase : ParsePhase} (same : share { task with phase } = share task) :
    shares stage none share (tasks.modify index fun task => { task with phase }) =
      shares stage none share tasks := by
  rw [shares_modify stage none share tasks index task there phase, same,
    ← shares_task stage none share there, Function.update_eq_self]

/-! ## What the moves do at a desk -/

namespace Desk

variable {plan : Plan α} {ending parse parse' : ParseStage} {grammar : Grammar}
  {tasks : List ParseTask} {t t' : Table α}

/-- A task goes on without the table. -/
theorem keep (desk : Desk plan ending grammar parse tasks t) {index : Nat} {task : ParseTask}
    (there : tasks[index]? = some task) {phase : ParsePhase}
    (pending : phase.pending plan = task.phase.pending plan)
    (confirmed : ParseTask.confirmed plan grammar { task with phase } =
      task.confirmed plan grammar) :
    Desk plan ending grammar parse (tasks.modify index fun task => { task with phase }) t := by
  refine ⟨desk.sound, ?_, desk.opened, desk.closed⟩
  rw [agenda, confirmations, shares_modify_same _ _ _ there pending,
    shares_modify_same _ _ _ there confirmed]
  exact desk.serves

/-- A task takes a turn at the table. -/
theorem turn (desk : Desk plan ending grammar parse tasks t) {index : Nat} {task : ParseTask}
    (there : tasks[index]? = some task) {r : Registering} (phase : task.phase = .registering r)
    (turn : r.Turn plan (taskCaller index) t t') :
    Desk plan ending grammar parse
      (tasks.modify index fun task => { task with phase := .registering r.next }) t' := by
  have registry := (turn.frame desk.sound).1
  refine ⟨turn.sound desk.sound, ?_, by rw [registry]; exact desk.opened,
    by rw [registry]; exact desk.closed⟩
  rw [agenda, confirmations, shares_modify _ _ _ _ _ _ there, shares_modify _ _ _ _ _ _ there]
  apply turn.serves [] desk.sound desk.serves
  · rw [agenda, shares_task _ _ _ there, phase, ParsePhase.pending]
  · rw [confirmations, shares_task _ _ _ there, ParseTask.confirmed, phase]
    rfl

theorem push (desk : Desk plan ending grammar parse tasks t) (unit : SourceUnit) :
    Desk plan ending grammar parse (tasks ++ [⟨unit, .queued⟩]) t := by
  refine ⟨desk.sound, ?_, desk.opened, desk.closed⟩
  have requests : agenda plan ending parse (tasks ++ [⟨unit, .queued⟩]) =
      agenda plan ending parse tasks := shares_push _ _ _ _ _ rfl
  have known : confirmations plan grammar (tasks ++ [⟨unit, .queued⟩]) =
      confirmations plan grammar tasks := shares_push _ _ _ _ _ rfl
  rw [requests, known]
  exact desk.serves

/-- The stage goes on before it asks for the end, or after it has been answered. -/
theorem stage (desk : Desk plan ending grammar parse tasks t)
    (apart : parse.rank < ending.rank ∧ parse'.rank < ending.rank ∨
      ending.rank < parse.rank ∧ ending.rank < parse'.rank) :
    Desk plan ending grammar parse' tasks t := by
  have different : parse ≠ ending ∧ parse' ≠ ending := by
    constructor <;> rintro rfl <;> omega
  refine ⟨desk.sound, ?_, fun ended => ?_, fun past => desk.closed ?_⟩
  · have serves := desk.serves
    rw [agenda, if_neg different.1] at serves
    rw [agenda, if_neg different.2]
    exact serves
  · have reached := desk.opened ended
    omega
  · omega

/-- The stage asks for the end. -/
theorem ask (desk : Desk plan ending grammar parse tasks t) (before : parse.rank < ending.rank) :
    Desk plan ending grammar ending tasks (t.post stageCaller .finish) := by
  have different : parse ≠ ending := by
    rintro rfl
    omega
  refine ⟨desk.sound.post stageCaller .finish, ?_, fun _ => Nat.le_refl _, fun past => ?_⟩
  · rw [agenda, shares_stage (if parse = ending then some .finish else none), if_pos rfl]
    exact desk.serves.post desk.sound.running stageCaller .finish (if_neg different)
  · omega

/-- The stage hears that the end has come. -/
theorem hear (desk : Desk plan ending grammar parse tasks t) (here : parse = ending)
    (after : ending.rank < parse'.rank) {reply : Reply α}
    (taken : t.takeReply? stageCaller = some (reply, t')) :
    Desk plan ending grammar parse' tasks t' := by
  have different : parse' ≠ ending := by
    rintro rfl
    omega
  have asked : agenda plan ending parse tasks stageCaller = some .finish := if_pos here
  obtain ⟨serves, registry, -, finished⟩ := desk.serves.take asked taken
  refine ⟨desk.sound.takeReply stageCaller reply taken, ?_, fun _ => Nat.le_of_lt after, fun _ => ?_⟩
  · rw [agenda, shares_stage (if parse = ending then some .finish else none), if_neg different]
    simpa [agenda, Request.entries] using serves
  · rw [registry]
    exact finished rfl

theorem seek (desk : Desk plan ending grammar parse tasks t) (owner : String)
    (signature : Signature α) :
    Desk plan ending grammar parse tasks (t.seek owner signature) :=
  ⟨desk.sound.seek owner signature, desk.serves.seek owner signature, desk.opened, desk.closed⟩

theorem advance (desk : Desk plan ending grammar parse tasks t) {index : Nat}
    (advanced : t.advance? index = some t') : Desk plan ending grammar parse tasks t' := by
  obtain ⟨serves, registry⟩ := desk.serves.advance advanced
  exact ⟨(desk.sound.advance index advanced).1, serves, by rw [registry]; exact desk.opened,
    by rw [registry]; exact desk.closed⟩

/-- A registration is no request for the end. -/
theorem pending_ne_finish (phase : ParsePhase) : phase.pending plan ≠ some .finish := by
  cases phase with
  | registering r => simp [ParsePhase.pending, Registering.pending]
  | queued | reading | resolving | reporting | sending | finished => simp [ParsePhase.pending]

/-- A table with a registration on its agenda has not ended. -/
theorem live (quiet : t.registry.ended = true → ∀ task ∈ tasks, task.phase.pending plan = none)
    {caller : Nat} {owner : String} {declaration : α}
    (asked : agenda plan ending parse tasks caller = some (.register owner declaration)) :
    t.registry.ended = false := by
  rw [← Bool.not_eq_true]
  intro ended
  cases caller with
  | zero => simp [agenda, shares] at asked
  | succ index =>
    cases there : tasks[index]? with
    | none => simp [agenda, shares, there] at asked
    | some task =>
      have silent := quiet ended task (List.mem_of_getElem? there)
      simp [agenda, shares, there, silent] at asked

/-- Nothing is refused if nobody registers after the end. -/
theorem serve (desk : Desk plan ending grammar parse tasks t)
    (quiet : t.registry.ended = true → ∀ task ∈ tasks, task.phase.pending plan = none)
    (served : t.serve? = some t') : Desk plan ending grammar parse tasks t' := by
  obtain ⟨serves, kept, origin⟩ := desk.serves.serve (fun _ _ _ => live quiet) served
  refine ⟨(desk.sound.serve served).1, serves, fun ended => ?_, fun past => kept (desk.closed past)⟩
  rcases origin ended with before | ⟨caller, asked⟩
  · exact desk.opened before
  · cases caller with
    | zero =>
      have here : parse = ending := by
        by_contra other
        simp [agenda, shares, other] at asked
      exact Nat.le_of_eq (by rw [here])
    | succ index =>
      cases there : tasks[index]? with
      | none => simp [agenda, shares, there] at asked
      | some task =>
        simp only [agenda, shares, there, Option.elim_some] at asked
        exact absurd asked (pending_ne_finish task.phase)

theorem step (desk : Desk plan ending grammar parse tasks t)
    (quiet : t.registry.ended = true → ∀ task ∈ tasks, task.phase.pending plan = none)
    (step : t.Step t') : Desk plan ending grammar parse tasks t' := by
  cases step with
  | serve t' served => exact desk.serve quiet served
  | advance index t' advanced => exact desk.advance advanced

end Desk

/-! ## The protocol is kept -/

theorem start_protocol (toolchain : Toolchain) (settings : Settings) (input : List Input)
    (wanted : Option Nat) : (start toolchain settings input wanted).Protocol := by
  have desk {α : Type} [Named α] (plan : Plan α) (ending : ParseStage)
      (later : ParseStage.accepting.rank < ending.rank) :
      Desk plan ending toolchain.grammar .accepting [] (.withCapacity settings.resolutionBuffer) := by
    refine ⟨Table.withCapacity_sound _, ?_, fun ended => by contradiction, fun past => by omega⟩
    have requests : agenda plan ending .accepting [] = fun _ => none := by
      funext caller
      cases caller with
      | zero => exact if_neg (by rintro rfl; omega)
      | succ index => rfl
    have known : confirmations plan toolchain.grammar [] = fun _ => [] := by
      funext caller
      cases caller <;> rfl
    rw [requests, known]
    exact Table.withCapacity_serves _
  exact ⟨desk _ _ (by decide), desk _ _ (by decide), by simp [start], by simp [start],
    by simp [start]⟩

namespace Protocol

variable {p : Pipeline}

/-- A task that goes on to something of its own unit, and has not finished before. -/
theorem task (protocol : p.Protocol) {index : Nat} {task : ParseTask}
    (there : p.tasks[index]? = some task) (phase : ParsePhase)
    (faithful : ParseTask.Faithful p.toolchain { task with phase })
    (declared : task.phase.isDeclared = true → phase.isDeclared = true)
    (unfinished : task.phase.isFinished = false) {tables : Tables}
    (types : Desk Outline.typePlan .endingTypes p.toolchain.grammar p.parse
      (p.tasks.modify index fun task => { task with phase }) tables.types)
    (methods : Desk Outline.methodPlan .endingMethods p.toolchain.grammar p.parse
      (p.tasks.modify index fun task => { task with phase }) tables.methods) :
    Protocol ({ p with tables }.setTask index phase) := by
  have member := List.mem_of_getElem? there
  refine ⟨types, methods, fun other changed => ?_, fun past other changed => ?_,
    fun last other changed => ?_⟩
  · rcases mem_modify there changed with rfl | old
    · exact faithful
    · exact protocol.faithful other old
  · rcases mem_modify there changed with rfl | old
    · exact declared (protocol.declared past task member)
    · exact protocol.declared past other old
  · have impossible := protocol.finished last task member
    simp [unfinished] at impossible

/-- A task that goes on without the tables. -/
theorem alone (protocol : p.Protocol) {index : Nat} {task : ParseTask}
    (there : p.tasks[index]? = some task) (phase : ParsePhase)
    (faithful : ParseTask.Faithful p.toolchain { task with phase })
    (declared : task.phase.isDeclared = true → phase.isDeclared = true)
    (unfinished : task.phase.isFinished = false)
    (pending : ∀ (α : Type) [Named α] (plan : Plan α),
      phase.pending plan = task.phase.pending plan)
    (confirmed : ∀ (α : Type) (plan : Plan α),
      ParseTask.confirmed plan p.toolchain.grammar { task with phase } =
        task.confirmed plan p.toolchain.grammar) :
    Protocol (p.setTask index phase) := by
  have types := protocol.types.keep there (pending _ _) (confirmed _ _)
  have methods := protocol.methods.keep there (pending _ _) (confirmed _ _)
  exact protocol.task there phase faithful declared unfinished types methods

/-- A task that has declared its unit goes on. -/
theorem onward (protocol : p.Protocol) {index : Nat} {task : ParseTask}
    (there : p.tasks[index]? = some task) (phase : ParsePhase)
    (faithful : ParseTask.Faithful p.toolchain { task with phase })
    (before : task.phase.isDeclared = true) (after : phase.isDeclared = true)
    (unfinished : task.phase.isFinished = false) : Protocol (p.setTask index phase) := by
  refine protocol.alone there phase faithful (fun _ => after) unfinished ?_ ?_
  · intro α _ plan
    rw [ParsePhase.pending_of_declared plan after, ParsePhase.pending_of_declared plan before]
  · intro α plan
    rw [ParseTask.confirmed_of_declared plan _ before]
    exact ParseTask.confirmed_of_declared plan _ after

/-- Nobody registers with a table that has ended. -/
theorem quiet (protocol : p.Protocol) {plan : Plan α} {ending : ParseStage} {t : Table α}
    (late : ParseStage.endingTypes.rank ≤ ending.rank)
    (desk : Desk plan ending p.toolchain.grammar p.parse p.tasks t)
    (ended : t.registry.ended = true) : ∀ task ∈ p.tasks, task.phase.pending plan = none := by
  intro task member
  have declared := protocol.declared (Nat.le_trans late (desk.opened ended)) task member
  exact ParsePhase.pending_of_declared plan declared

theorem tables (protocol : p.Protocol) {action : Tables.Action} {tables : Tables}
    (moved : p.tables.perform action = some tables) : Protocol { p with tables } := by
  rcases Tables.perform_step moved with ⟨types, step, rfl⟩ | ⟨methods, step, rfl⟩
  · have quiet := protocol.quiet (by decide) protocol.types
    exact { protocol with types := protocol.types.step quiet step }
  · have quiet := protocol.quiet (by decide) protocol.methods
    exact { protocol with methods := protocol.methods.step quiet step }

theorem registering (protocol : p.Protocol) {index : Nat} {task : ParseTask}
    (there : p.tasks[index]? = some task) {r : Registering} (phase : task.phase = .registering r) :
    Outline.read p.toolchain.grammar task.unit = .ok r.outline ∧ r.Valid := by
  have faithful := protocol.faithful task (List.mem_of_getElem? there)
  rwa [ParseTask.Faithful, phase] at faithful

/-- No task is barred from registering. -/
theorem not_barred (protocol : p.Protocol) {index : Nat} {task : ParseTask}
    (there : p.tasks[index]? = some task) {r : Registering} (phase : task.phase = .registering r)
    {error : DeclareError} {tables : Tables} :
    r.step? (taskCaller index) p.tables ≠ some (.failed error, tables) := by
  intro step
  have asked {α : Type} [Named α] (plan : Plan α) (ending : ParseStage) :
      agenda plan ending p.parse p.tasks (taskCaller index) = r.pending plan := by
    rw [agenda, shares_task _ _ _ there, phase, ParsePhase.pending]
  rcases Registering.step_failed (protocol.registering there phase).2 step with refused | refused
  · exact Registering.not_refused protocol.types.serves (asked _ _) refused
  · exact Registering.not_refused protocol.methods.serves (asked _ _) refused

/-- No task loses the tables while it looks up names. -/
theorem not_lost (protocol : p.Protocol) {r : Resolving} {error : DeclareError} {tables : Tables} :
    r.step? p.tables ≠ some (.failed error, tables) := by
  intro step
  cases Resolving.step_move protocol.types.sound protocol.methods.sound step

theorem resolving (protocol : p.Protocol) {index : Nat} {task : ParseTask}
    (there : p.tasks[index]? = some task) {r : Resolving} (phase : task.phase = .resolving r) :
    Outline.read p.toolchain.grammar task.unit = .ok r.outline := by
  have faithful := protocol.faithful task (List.mem_of_getElem? there)
  rwa [ParseTask.Faithful, phase] at faithful

theorem sending (protocol : p.Protocol) {index : Nat} {task : ParseTask}
    (there : p.tasks[index]? = some task) {declared : DeclaredUnit}
    (phase : task.phase = .sending declared) :
    ∃ outline instances references, Outline.read p.toolchain.grammar task.unit = .ok outline ∧
      declared = (outline.emit p.toolchain.inliner instances references).1 := by
  have faithful := protocol.faithful task (List.mem_of_getElem? there)
  rwa [ParseTask.Faithful, phase] at faithful

/-- Looking up a name starts a lookup at most. -/
theorem inquired (protocol : p.Protocol) {r next : Resolving} {tables : Tables}
    (step : r.step? p.tables = some (.continuing next, tables)) :
    next.outline = r.outline ∧
      Desk Outline.typePlan .endingTypes p.toolchain.grammar p.parse p.tasks tables.types ∧
      Desk Outline.methodPlan .endingMethods p.toolchain.grammar p.parse p.tasks tables.methods := by
  cases Resolving.step_move protocol.types.sound protocol.methods.sound step with
  | askType candidate => exact ⟨rfl, protocol.types.seek candidate _, protocol.methods⟩
  | askMethod call => exact ⟨rfl, protocol.types, protocol.methods.seek _ _⟩
  | hearType => exact ⟨rfl, protocol.types, protocol.methods⟩
  | hearMethod => exact ⟨rfl, protocol.types, protocol.methods⟩

theorem move {q : Pipeline} (protocol : p.Protocol) (move : p.Move q) : q.Protocol := by
  cases move with
  | exhaust stage input =>
    refine ⟨protocol.types.stage ?_, protocol.methods.stage ?_, protocol.faithful, ?_, ?_⟩
    · simp [stage, ParseStage.rank]
    · simp [stage, ParseStage.rank]
    · simp [ParseStage.rank]
    · simp
  | accept stage unit rest input =>
    refine ⟨protocol.types.push unit, protocol.methods.push unit, ?_, ?_, ?_⟩
    · intro task member
      rcases List.mem_append.mp member with old | new
      · exact protocol.faithful task old
      · cases List.mem_singleton.mp new
        trivial
    · simp [stage, ParseStage.rank]
    · simp [stage]
  | skip stage cause rest input policy => exact { protocol with }
  | abort stage cause rest input policy =>
    refine ⟨protocol.types.stage ?_, protocol.methods.stage ?_, protocol.faithful, ?_, ?_⟩
    · simp [stage, record, ParseStage.rank]
    · simp [stage, record, ParseStage.rank]
    · simp [record, ParseStage.rank]
    · simp [record]
  | endTypes stage declared =>
    refine ⟨protocol.types.ask ?_, protocol.methods.stage ?_, protocol.faithful, fun _ => ?_, ?_⟩
    · simp [stage, ParseStage.rank]
    · simp [stage, ParseStage.rank]
    · exact List.all_eq_true.mp declared
    · simp
  | endMethods stage reply types taken =>
    refine ⟨protocol.types.hear stage ?_ taken, protocol.methods.ask ?_, protocol.faithful,
      fun _ => protocol.declared ?_, ?_⟩
    · simp [ParseStage.rank]
    · simp [stage, ParseStage.rank]
    · simp [stage]
    · simp
  | endResolution stage reply methods taken =>
    refine ⟨protocol.types.stage ?_, protocol.methods.hear stage ?_ taken, protocol.faithful,
      fun _ => protocol.declared ?_, ?_⟩
    · simp [stage, ParseStage.rank]
    · simp [ParseStage.rank]
    · simp [stage, ParseStage.rank]
    · simp
  | join stage finished =>
    refine ⟨protocol.types.stage ?_, protocol.methods.stage ?_, protocol.faithful,
      fun _ => protocol.declared ?_, fun _ => ?_⟩
    · simp [stage, ParseStage.rank]
    · simp [stage, ParseStage.rank]
    · simp [stage, ParseStage.rank]
    · exact List.all_eq_true.mp finished
  | tables action tables moved => exact protocol.tables moved
  | enter index task there phase permits acquired =>
    refine { protocol.alone there .reading ?_ ?_ ?_ ?_ ?_ with }
    · trivial
    · simp [phase, ParsePhase.isDeclared]
    · simp [phase, ParsePhase.isFinished]
    · simp [phase, ParsePhase.pending]
    · simp [phase, ParseTask.confirmed]
  | read index task there phase outline read =>
    refine protocol.alone there (.registering { outline }) ?_ ?_ ?_ ?_ ?_
    · exact ⟨read, Nat.zero_le _, by simp⟩
    · simp [phase, ParsePhase.isDeclared]
    · simp [phase, ParsePhase.isFinished]
    · simp [phase, ParsePhase.pending, Registering.pending]
    · simp [phase, ParseTask.confirmed, Plan.entries]
  | refuse index task there phase failure read =>
    refine { protocol.alone there .finished ?_ ?_ ?_ ?_ ?_ with }
    · trivial
    · simp [phase, ParsePhase.isDeclared]
    · simp [phase, ParsePhase.isFinished]
    · simp [phase, ParsePhase.pending]
    · simp [phase, ParseTask.confirmed, Plan.ofUnit, read]
  | register index task there state phase next tables step =>
    obtain ⟨read, valid⟩ := protocol.registering there phase
    obtain ⟨rfl, unfinished, types, methods⟩ := Registering.step_continuing valid step
    refine protocol.task there (.registering state.next) ?_ ?_ ?_
      (protocol.types.turn there phase types) (protocol.methods.turn there phase methods)
    · exact ⟨by simpa using read, Registering.next_valid valid unfinished⟩
    · simp [phase, ParsePhase.isDeclared]
    · simp [phase, ParsePhase.isFinished]
  | declare index task there state phase outline tables step =>
    obtain ⟨read, valid⟩ := protocol.registering there phase
    obtain ⟨rfl, rfl, free, whole⟩ := Registering.step_finished valid step
    refine { protocol.alone there (.resolving (.start state.outline)) ?_ ?_ ?_ ?_ ?_ with }
    · exact read
    · simp [ParsePhase.isDeclared]
    · simp [phase, ParsePhase.isFinished]
    · simp [phase, ParsePhase.pending, Registering.pending, free]
    · simp [phase, ParseTask.confirmed, Plan.ofUnit, read, whole]
  | bar index task there state phase error tables step =>
    exact absurd step (protocol.not_barred there phase)
  | inquire index task there state phase next tables step =>
    obtain ⟨outline, types, methods⟩ := protocol.inquired step
    have read := protocol.resolving there phase
    rw [← outline] at read
    refine protocol.task there (.resolving next) ?_ ?_ ?_ (types.keep there ?_ ?_)
      (methods.keep there ?_ ?_)
    · exact read
    · simp [ParsePhase.isDeclared]
    · simp [phase, ParsePhase.isFinished]
    · simp [phase, ParsePhase.pending]
    · simp [phase, ParseTask.confirmed]
    · simp [phase, ParsePhase.pending]
    · simp [phase, ParseTask.confirmed]
  | emit index task there state phase references tables step unit diagnostics instances emitted =>
    cases Resolving.step_move protocol.types.sound protocol.methods.sound step
    refine { protocol.onward there (.reporting unit diagnostics) ?_ ?_ ?_ ?_ with }
    · exact ⟨state.outline, p.instances, _, protocol.resolving there phase, by rw [emitted]⟩
    · simp [phase, ParsePhase.isDeclared]
    · simp [ParsePhase.isDeclared]
    · simp [phase, ParsePhase.isFinished]
  | lose index task there state phase error tables step => exact absurd step protocol.not_lost
  | diagnose index task there unit diagnostic rest phase =>
    have faithful := protocol.faithful task (List.mem_of_getElem? there)
    rw [ParseTask.Faithful, phase] at faithful
    refine { protocol.onward there (.reporting unit rest) faithful ?_ ?_ ?_ with }
    · simp [phase, ParsePhase.isDeclared]
    · simp [ParsePhase.isDeclared]
    · simp [phase, ParsePhase.isFinished]
  | diagnosed index task there unit phase =>
    have faithful := protocol.faithful task (List.mem_of_getElem? there)
    rw [ParseTask.Faithful, phase] at faithful
    refine protocol.onward there (.sending unit) faithful ?_ ?_ ?_
    · simp [phase, ParsePhase.isDeclared]
    · simp [ParsePhase.isDeclared]
    · simp [phase, ParsePhase.isFinished]
  | send index task there unit phase room =>
    refine { protocol.onward there .finished ?_ ?_ ?_ ?_ with }
    · trivial
    · simp [phase, ParsePhase.isDeclared]
    · simp [ParsePhase.isDeclared]
    · simp [phase, ParsePhase.isFinished]
  -- The stages behind touch neither tasks nor tables.
  | receive | close | joinJobs | enterJob | generate | reject | abandon | publish | consume
  | consumeLast | consumeOne | report => exact { protocol with }

end Protocol

/-- Every run keeps the protocol. -/
theorem execute_protocol {toolchain : Toolchain} {settings : Settings} {input : List Input}
    {wanted : Option Nat} {schedule : List Action} {p : Pipeline}
    (ran : (start toolchain settings input wanted).execute schedule = some p) : p.Protocol :=
  execute_induction (fun _ _ => Protocol.move) schedule _ _ (start_protocol _ _ _ _) ran

end Pipeline

end UnitCompiler
