import UnitCompiler.Proofs.PipelineAnswers
import UnitCompiler.Proofs.PipelineConservation
import UnitCompiler.Proofs.TableQuiescence

/-! The end of the resolution is a barrier: all that is registered lies before it, and only behind it
is a name given up. Any toolchain, any input and any order of steps is allowed; units may share a
name. -/

namespace UnitCompiler

variable {α : Type} [Named α]

/-- The registrations in a table are an interleaving of what the units register, each in its own
order. -/
def Plan.Interleaved (plan : Plan α) (grammar : Grammar) (units : List SourceUnit) (t : Table α)
    (history : History α) : Prop :=
  history.map Prod.snd = t.accepted ∧
    (∀ entry ∈ history, ∃ index < units.length, entry.1 = Pipeline.taskCaller index) ∧
    ∀ index unit, units[index]? = some unit →
      history.made (Pipeline.taskCaller index) = plan.ofUnit grammar unit

/-- Whatever a unit registers is there. -/
theorem Plan.Interleaved.mem {plan : Plan α} {grammar : Grammar} {units : List SourceUnit}
    {t : Table α} {history : History α} (whole : plan.Interleaved grammar units t history)
    {unit : SourceUnit} (member : unit ∈ units) {entry : String × α}
    (registers : entry ∈ plan.ofUnit grammar unit) : entry ∈ t.accepted := by
  obtain ⟨accepted, -, made⟩ := whole
  obtain ⟨index, there⟩ := List.mem_iff_getElem?.mp member
  rw [← made index unit there] at registers
  obtain ⟨_, inside, rfl⟩ := List.mem_map.mp registers
  rw [← accepted]
  exact List.mem_map_of_mem (List.mem_filter.mp inside).1

namespace Outline

variable {grammar : Grammar} {unit : SourceUnit} {o : Outline}

theorem typePlan_ofUnit (read : Outline.read grammar unit = .ok o) :
    typePlan.ofUnit grammar unit = [(o.owner, o.type)] := by
  rw [Plan.ofUnit, read]
  exact o.typePlan_entries

theorem methodPlan_ofUnit (read : Outline.read grammar unit = .ok o) :
    methodPlan.ofUnit grammar unit = o.methods.map fun m => (o.owner, m) := by
  rw [Plan.ofUnit, read]
  exact o.methodPlan_entries

end Outline

omit [Named α] in
theorem Plan.ofUnit_error (plan : Plan α) {grammar : Grammar} {unit : SourceUnit}
    {failure : Failure DeclareError} (read : Outline.read grammar unit = .error failure) :
    plan.ofUnit grammar unit = [] := by
  rw [Plan.ofUnit, read]

namespace Pipeline

section Desk

variable {plan : Plan α} {ending parse : ParseStage} {toolchain : Toolchain}
  {tasks : List ParseTask} {t : Table α}

/-- A registration in the mailbox is going to be accepted. -/
theorem Desk.welcomes (desk : Desk plan ending toolchain.grammar parse tasks t)
    (quiet : t.registry.ended = true → ∀ task ∈ tasks, task.phase.pending plan = none)
    {caller : Nat} {owner : String} {declaration : α}
    (posted : (caller, .register owner declaration) ∈ t.outstanding) :
    (t.registry.serve (.register owner declaration)).1 = .registered := by
  refine t.registry.serve_registered owner declaration ?_
  obtain ⟨history, -, standings⟩ := desk.serves
  have waiting : .register owner declaration ∈ t.calls caller :=
    List.mem_map.mpr ⟨_, List.mem_filter.mpr ⟨posted, by simp⟩, rfl⟩
  have standing := standings caller
  generalize asked : agenda plan ending parse tasks caller = request at standing
  cases standing with
  | idle calls | answered _ _ calls =>
    rw [calls] at waiting
    contradiction
  | asked request calls =>
    rw [calls, List.mem_singleton] at waiting
    subst waiting
    exact Desk.live quiet asked

theorem Desk.interleaved (desk : Desk plan ending toolchain.grammar parse tasks t)
    (declared : ∀ task ∈ tasks, task.phase.isDeclared = true) :
    ∃ history, plan.Interleaved toolchain.grammar (tasks.map ParseTask.unit) t history := by
  obtain ⟨history, accepted, standings, origin⟩ := desk.origin
  refine ⟨history, accepted, fun entry member => ?_, fun index unit there => ?_⟩
  · obtain ⟨index, task, there, caller⟩ := origin entry member
    obtain ⟨inside, -⟩ := List.getElem?_eq_some_iff.mp there
    exact ⟨index, by simpa using inside, caller⟩
  · rw [List.getElem?_map] at there
    obtain ⟨task, place, rfl⟩ := Option.map_eq_some_iff.mp there
    exact ParseTask.made_eq (declared task (List.mem_of_getElem? place)) (standings index task place)

/-- A lookup that settles on nothing has not overlooked what a unit registers. -/
theorem Desk.overlooks_nothing (desk : Desk plan ending toolchain.grammar parse tasks t)
    {units : List SourceUnit}
    (whole : t.registry.ended = true →
      ∃ history, plan.Interleaved toolchain.grammar units t history)
    {l : Lookup α} (member : l ∈ t.lookups) (settled : l.phase = .settled none)
    {unit : SourceUnit} (accepted : unit ∈ units) {declaration : α}
    (registers : (l.owner, declaration) ∈ plan.ofUnit toolchain.grammar unit) :
    l.signature.accepts declaration = false := by
  obtain ⟨index, there⟩ := List.mem_iff_getElem?.mp member
  have informed := desk.sound.informed index l there
  rw [settled] at informed
  obtain ⟨announced, missing⟩ := informed
  obtain ⟨history, interleaved⟩ := whole (desk.sound.ended.mpr announced)
  have registered := interleaved.mem accepted registers
  exact (Log.first?_eq_none_iff _ _ _).mp missing _ registered rfl

end Desk

structure Admitted (toolchain : Toolchain) (settings : Settings) (input : List Input) (p : Pipeline) :
    Prop where
  toolchain : p.toolchain = toolchain
  settings : p.settings = settings
  intake : Intake input p

theorem execute_admitted {toolchain : Toolchain} {settings : Settings} {input : List Input}
    {wanted : Option Nat} {schedule : List Action} {p : Pipeline}
    (ran : (start toolchain settings input wanted).execute schedule = some p) :
    Admitted toolchain settings input p := by
  refine execute_induction (fun p q admitted move => ?_) schedule _ _ ⟨rfl, rfl, ?_⟩ ran
  · refine ⟨?_, ?_, admitted.intake.move move⟩
    · cases move <;> exact admitted.toolchain
    · cases move <;> exact admitted.settings
  · exact ⟨by simp [start], by simp [start, log], by simp [start]⟩

variable {p q : Pipeline}

/-- Behind the barrier every accepted unit has a task, and all tasks are declared. -/
theorem Protocol.declared_of_ended (protocol : p.Protocol) {toolchain : Toolchain}
    {settings : Settings} {input : List Input} (admitted : Admitted toolchain settings input p)
    (ended : p.tables.types.registry.ended = true ∨ p.tables.methods.registry.ended = true) :
    p.tasks.map ParseTask.unit = Input.accepted settings.inputErrors input ∧
      ∀ task ∈ p.tasks, task.phase.isDeclared = true := by
  have late : ParseStage.endingTypes.rank ≤ p.parse.rank := by
    rcases ended with types | methods
    · exact protocol.types.opened types
    · exact Nat.le_trans (by decide) (protocol.methods.opened methods)
  have past : p.parse ≠ .accepting := by
    intro here
    rw [here] at late
    contradiction
  refine ⟨?_, protocol.declared late⟩
  have accepted := admitted.intake.accepted
  rw [admitted.intake.ended past, admitted.settings] at accepted
  simpa [Input.accepted] using accepted.symm

/-- A unit that cannot be read never touches the tables. -/
theorem Protocol.untouched (protocol : p.Protocol) {index : Nat} {task : ParseTask}
    (there : p.tasks[index]? = some task) {failure : Failure DeclareError}
    (unread : Outline.read p.toolchain.grammar task.unit = .error failure)
    (performed : p.perform (.parse index) = some q) : q.tables = p.tables := by
  have faithful := protocol.faithful task (List.mem_of_getElem? there)
  unfold ParseTask.Faithful at faithful
  simp only [perform, parseTask?, there] at performed
  cases phase : task.phase with
  | queued =>
    rw [phase] at performed
    obtain ⟨next, acquired, rfl⟩ := Option.map_eq_some_iff.mp performed
    obtain ⟨permits, rfl⟩ := acquire_frame acquired
    rfl
  | reading =>
    simp only [phase, unread] at performed
    cases failure with
    | error e | crash message =>
      cases performed
      rfl
  | registering r =>
    rw [phase, unread] at faithful
    exact absurd faithful.1 (by simp)
  | resolving r =>
    rw [phase, unread] at faithful
    contradiction
  | reporting unit diagnostics | sending unit =>
    rw [phase] at faithful
    obtain ⟨o, -, -, read, -⟩ := faithful
    rw [unread] at read
    contradiction
  | finished =>
    rw [phase] at performed
    contradiction

/-- In every reachable state: no registration is refused, a unit that fails leaves the tables alone,
the resolution has only ended if every accepted unit is in the tables as a whole or has failed, and so
no lookup has given up on what an accepted unit declares. -/
theorem resolution_ends_behind_declarations (toolchain : Toolchain) (settings : Settings)
    (input : List Input) (wanted : Option Nat) (schedule : List Action) (p : Pipeline)
    (ran : (start toolchain settings input wanted).execute schedule = some p) :
    let units := Input.accepted settings.inputErrors input
    (∀ caller owner declaration,
      (caller, .register owner declaration) ∈ p.tables.types.outstanding →
      (p.tables.types.registry.serve (.register owner declaration)).1 = .registered) ∧
    (∀ caller owner declaration,
      (caller, .register owner declaration) ∈ p.tables.methods.outstanding →
      (p.tables.methods.registry.serve (.register owner declaration)).1 = .registered) ∧
    (∀ index (task : ParseTask) r error tables, p.tasks[index]? = some task → task.phase = .registering r →
      r.step? (taskCaller index) p.tables ≠ some (.failed error, tables)) ∧
    (∀ index (task : ParseTask) failure q, p.tasks[index]? = some task →
      Outline.read toolchain.grammar task.unit = .error failure →
      p.perform (.parse index) = some q → q.tables = p.tables) ∧
    (p.tables.types.registry.ended = true ∨ p.tables.methods.registry.ended = true →
      ∃ types methods, types.map Prod.snd = p.tables.types.accepted ∧
        methods.map Prod.snd = p.tables.methods.accepted ∧
        (∀ entry ∈ types, ∃ index < units.length, entry.1 = taskCaller index) ∧
        (∀ entry ∈ methods, ∃ index < units.length, entry.1 = taskCaller index) ∧
        ∀ index unit, units[index]? = some unit →
          match Outline.read toolchain.grammar unit with
          | .ok o => History.made types (taskCaller index) = [(o.owner, o.type)] ∧
              History.made methods (taskCaller index) = o.methods.map fun m => (o.owner, m)
          | .error _ => History.made types (taskCaller index) = [] ∧
              History.made methods (taskCaller index) = []) ∧
    (∀ unit ∈ units, ∀ o, Outline.read toolchain.grammar unit = .ok o →
      (∀ l ∈ p.tables.types.lookups, l.phase = .settled none → l.owner = o.owner →
        l.signature.accepts o.type = false) ∧
      ∀ l ∈ p.tables.methods.lookups, l.phase = .settled none → l.owner = o.owner →
        ∀ m ∈ o.methods, l.signature.accepts m = false) := by
  intro units
  have protocol := execute_protocol ran
  have admitted := execute_admitted ran
  obtain rfl : p.toolchain = toolchain := admitted.toolchain
  have whole (ended : p.tables.types.registry.ended = true ∨
      p.tables.methods.registry.ended = true) :
      (∃ types, Outline.typePlan.Interleaved p.toolchain.grammar units p.tables.types types) ∧
      ∃ methods, Outline.methodPlan.Interleaved p.toolchain.grammar units p.tables.methods methods := by
    obtain ⟨accepted, declared⟩ := protocol.declared_of_ended admitted ended
    have types := protocol.types.interleaved declared
    have methods := protocol.methods.interleaved declared
    rw [accepted] at types methods
    exact ⟨types, methods⟩
  refine ⟨?_, ?_, ?_, ?_, ?_, ?_⟩
  · intro caller owner declaration posted
    exact protocol.types.welcomes (protocol.quiet (by decide) protocol.types) posted
  · intro caller owner declaration posted
    exact protocol.methods.welcomes (protocol.quiet (by decide) protocol.methods) posted
  · intro index task r error tables there phase
    exact protocol.not_barred there phase
  · intro index task failure q there unread performed
    exact protocol.untouched there unread performed
  · intro ended
    obtain ⟨⟨types, typesWhole, typesOwned, typesMade⟩, methods, methodsWhole, methodsOwned,
      methodsMade⟩ := whole ended
    refine ⟨types, methods, typesWhole, methodsWhole, typesOwned, methodsOwned, ?_⟩
    intro index unit there
    rw [typesMade index unit there, methodsMade index unit there]
    split
    · next o read => exact ⟨Outline.typePlan_ofUnit read, Outline.methodPlan_ofUnit read⟩
    · next failure read => exact ⟨Plan.ofUnit_error _ read, Plan.ofUnit_error _ read⟩
  · intro unit accepted o read
    refine ⟨fun l member settled owner => ?_, fun l member settled owner m declares => ?_⟩
    · refine protocol.types.overlooks_nothing (fun ended => (whole (.inl ended)).1) member settled
        accepted ?_
      rw [Outline.typePlan_ofUnit read, owner]
      exact List.mem_singleton_self _
    · refine protocol.methods.overlooks_nothing (fun ended => (whole (.inr ended)).2) member settled
        accepted ?_
      rw [Outline.methodPlan_ofUnit read, owner]
      exact List.mem_map_of_mem declares

/-- A unit that calls a function it does not have, behind one that cannot be read. -/
def stray : SourceUnit :=
  { fileName := "B.firefly", relativePath := "m", content := .text "fn f(x: A) {}\ng(1)" }

def strayed : List Input :=
  [.unit { fileName := "A.firefly", relativePath := "m", content := .crash "no disk" }, .unit stray]

theorem strayed_resolution_ends_behind_declarations :
    ∃ schedule p o l, (start .standard {} strayed none).execute schedule = some p ∧
      p.tables.types.registry.ended = true ∧
      (∃ types : History TypeDeclaration, types.map Prod.snd = p.tables.types.accepted ∧
        types.made (taskCaller 1) = [(o.owner, o.type)]) ∧
      Outline.read Toolchain.standard.grammar stray = .ok o ∧
      l ∈ p.tables.methods.lookups ∧ l.phase.answer? = some none ∧ l.owner = o.owner ∧
      ∀ m ∈ o.methods, l.signature.accepts m = false := by
  obtain ⟨schedule, ran⟩ := run_execute (start .standard {} strayed none)
  have ended : (start .standard {} strayed none).run.tables.types.registry.ended = true := by
    decide +kernel
  have missed : (start .standard {} strayed none).run.tables.methods.lookups.any (fun l =>
      l.owner == stray.qualifiedName && l.phase.answer?.any Option.isNone) = true := by
    decide +kernel
  have parses : (Outline.read Toolchain.standard.grammar stray).isOk = true := by
    decide +kernel
  generalize (start .standard {} strayed none).run = p at ran ended missed
  generalize read : Outline.read Toolchain.standard.grammar stray = outline at parses
  obtain ⟨l, member, lost⟩ := List.any_eq_true.mp missed
  rw [Bool.and_eq_true, beq_iff_eq] at lost
  obtain ⟨owner, gone⟩ := lost
  cases outline with
  | error failure => simp [Except.isOk, Except.toBool] at parses
  | ok o =>
    rw [← Outline.read_unit read] at owner
    obtain ⟨-, -, -, -, whole, missing⟩ :=
      resolution_ends_behind_declarations .standard {} strayed none schedule p ran
    obtain ⟨types, methods, accepted, -, -, -, made⟩ := whole (.inl ended)
    have own := made 1 stray rfl
    rw [read] at own
    have settled : l.phase = .settled none := by
      cases phase : l.phase <;> simp_all [Phase.answer?]
    refine ⟨schedule, p, o, l, ran, ended, ⟨types, accepted, own.1⟩, rfl, member, ?_, owner, ?_⟩
    · rw [settled]
      rfl
    · exact (missing stray (by simp [strayed, Input.accepted]) o read).2 l member settled owner

end Pipeline

end UnitCompiler
