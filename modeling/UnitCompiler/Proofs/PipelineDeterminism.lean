import UnitCompiler.Proofs.PipelineAnswers
import UnitCompiler.Proofs.PipelineDelivery

/-! Nothing of the schedule is left in the outcome. Every task gets the references that a sequential
compilation gives its unit, so what it hands on and what it reports is the same, and so is what the job
behind it makes of it. -/

namespace UnitCompiler

namespace Pipeline

variable {settings : Settings} {units : List SourceUnit} {p q : Pipeline}

theorem Books.whole (books : Books settings (units.map .unit) p) :
    units = p.tasks.map ParseTask.unit ++ Input.accepted p.settings.inputErrors p.input := by
  have whole := books.intake.accepted
  rwa [(Input.accepted_units _ units).1] at whole

/-- What lookups find is what the registrations of all units give. -/
theorem Books.settles (books : Books settings (units.map .unit) p)
    (distinct : (units.map SourceUnit.qualifiedName).Nodup) :
    p.tables.types.Settles (units.flatMap (Outline.typePlan.ofUnit p.toolchain.grammar)) ∧
      p.tables.methods.Settles (units.flatMap (Outline.methodPlan.ofUnit p.toolchain.grammar)) := by
  have whole := books.whole
  have last (ending : ParseStage) (late : ParseStage.endingTypes.rank ≤ ending.rank)
      (reached : ending.rank ≤ p.parse.rank) :
      Input.accepted p.settings.inputErrors p.input = [] ∧
        ∀ task ∈ p.tasks, task.phase.isDeclared = true := by
    refine ⟨?_, books.protocol.declared (Nat.le_trans late reached)⟩
    rw [books.intake.ended]
    · rfl
    · intro stage
      rw [stage] at reached
      exact absurd (Nat.le_trans late reached) (by decide)
  constructor
  · intro index l found there settled
    exact books.protocol.types.settled Outline.typePlan_owned books.protocol.faithful whole distinct
      (fun ended => last _ (by decide) (books.protocol.types.opened ended)) there settled
  · intro index l found there settled
    exact books.protocol.methods.settled Outline.methodPlan_owned books.protocol.faithful whole
      distinct (fun ended => last _ (by decide) (books.protocol.methods.opened ended)) there settled

/-! ## The outcome -/

structure Conforming (settings : Settings) (units : List SourceUnit) (p : Pipeline) : Prop where
  books : Books settings (units.map .unit) p
  course : p.Course (Toolchain.standard.catalogue units)
  telling : p.Telling (Toolchain.standard.catalogue units)

theorem execute_conforming (distinct : (units.map SourceUnit.qualifiedName).Nodup)
    {schedule : List Action}
    (ran : (start .standard settings (units.map .unit) none).execute schedule = some p) :
    Conforming settings units p := by
  refine execute_induction (fun p q conforming move => ?_) schedule _ _ ?_ ran
  · obtain ⟨books, course, telling⟩ := conforming
    have settles := books.settles distinct
    rw [books.standard] at settles
    have plain := Toolchain.standard.catalogue_plain units
    refine ⟨books.move move, course.move books plain settles.1 settles.2 move,
      telling.move course books plain ?_ move⟩
    rwa [(Input.accepted_units _ units).1]
  · exact ⟨start_books settings _, ⟨by simp [start], by simp [start], by simp [start],
      by simp [start]⟩, ⟨by simp [start, diagnostics, log], by simp [start]⟩⟩

namespace Conforming

theorem received (conforming : Conforming settings units p) (collected : p.isFinished = true) :
    p.received.Perm
      (units.filterMap (Toolchain.standard.compiledBy? (Toolchain.standard.catalogue units))) := by
  set catalogue := Toolchain.standard.catalogue units
  have own : (p.received.map fun c => c.declared.unit).filterMap
      (Toolchain.standard.compiledBy? catalogue) = p.received := by
    rw [List.filterMap_map]
    refine (List.filterMap_congr fun c member => ?_).trans List.filterMap_some
    exact conforming.course.compiled c (List.mem_append_left _ member)
  have accepted := conforming.books.received collected
  rw [(Input.accepted_units _ units).1] at accepted
  have kept : (units.filter SourceUnit.compiles).filterMap (Toolchain.standard.compiledBy? catalogue) =
      units.filterMap (Toolchain.standard.compiledBy? catalogue) := by
    rw [List.filterMap_filter]
    refine List.filterMap_congr fun unit _ => ?_
    split
    · rfl
    · next fails => exact (Toolchain.compiledBy?_eq_none catalogue (by simpa using fails)).symm
  rw [← own, ← kept]
  exact accepted.filterMap _

theorem counts (conforming : Conforming settings units p) (collected : p.isFinished = true) :
    p.summary.parsingExceptions = (units.filter (!·.parses)).length ∧
      p.summary.compilationExceptions =
        (units.filter fun unit => unit.parses && !unit.compiles).length := by
  have books := conforming.books
  have failures := (books.accepted collected).2
  have unparsed := books.unparsed collected
  have rejected := books.rejected collected
  rw [(Input.accepted_units _ units).2] at failures
  rw [(Input.accepted_units _ units).1] at unparsed rejected
  rw [summary, Summary.ofRecords_eq, ← failures, unparsed.length_eq, rejected.length_eq,
    List.length_map, List.length_map]
  exact ⟨rfl, rfl⟩

theorem reported (conforming : Conforming settings units p) (collected : p.isFinished = true)
    (unit : SourceUnit) :
    p.summary.diagnostics.filter (·.unit = unit) =
      if unit ∈ units then
        Toolchain.standard.diagnosticsBy (Toolchain.standard.catalogue units) unit
      else [] := by
  have reported := conforming.telling.ended conforming.books collected unit
  rwa [(Input.accepted_units _ units).1] at reported

end Conforming

/-- Whatever the interleaving: once everything is collected, the compiled units with their
declarations and artifacts, the number of failures and what each unit is told, in order, are those of
the compilation that does one thing after another. -/
theorem outcome_schedule_independent (settings : Settings) (units : List SourceUnit)
    (distinct : (units.map SourceUnit.qualifiedName).Nodup) (schedule : List Action) (p : Pipeline)
    (ran : (start .standard settings (units.map .unit) none).execute schedule = some p)
    (collected : p.isFinished = true) (number : Nat) :
    let outcome := Sequential.compile .standard number units
    p.received.Perm outcome.units ∧
    p.summary.parsingExceptions = outcome.summary.parsingExceptions ∧
    p.summary.compilationExceptions = outcome.summary.compilationExceptions ∧
    ∀ unit, p.summary.diagnostics.filter (·.unit = unit) =
      outcome.summary.diagnostics.filter (·.unit = unit) := by
  intro outcome
  have conforming := execute_conforming distinct ran
  obtain ⟨parsing, compilation⟩ := conforming.counts collected
  have received : p.received.Perm outcome.units := by
    simp only [outcome, Sequential.compile_standard]
    exact conforming.received collected
  have summary : outcome.summary = _ := Sequential.summary_standard number units
  rw [summary]
  refine ⟨received, parsing, compilation, fun unit => ?_⟩
  rw [conforming.reported collected, Sequential.filter_diagnosticsBy _ _ distinct.of_map]

/-- Two units that name each other's types, with a fault each, and one that cannot be read. -/
def crossing : List SourceUnit :=
  [{ fileName := "A.firefly", relativePath := "m",
     content := .text "fn f(x: m.B, y: C) { print(x) }\nf(1, 2)" },
    { fileName := "D.firefly", relativePath := "m", content := .crash "no disk" },
    { fileName := "B.firefly", relativePath := "m", content := .text "fn f(x: A) {}\ng(1)" }]

def tight : Settings := { maxParallelUnits := some 1, channelCapacity := 1, resolutionBuffer := 1 }

theorem crossing_outcome :
    ∃ schedule p, (crossing.map SourceUnit.qualifiedName).Nodup ∧
      (start .standard tight (crossing.map .unit) none).execute schedule = some p ∧
      p.isFinished = true ∧
      (p.received.map fun c => c.declared.declaration.qualifiedName).Perm ["m.A", "m.B"] ∧
      p.summary.parsingExceptions = 1 ∧ p.summary.compilationExceptions = 0 ∧
      (crossing.map fun unit =>
          (p.summary.diagnostics.filter (·.unit = unit)).map Diagnostic.message) =
        [["Could not resolve the type 'C'"], [], ["Could not resolve the function 'g'"]] := by
  have distinct : (crossing.map SourceUnit.qualifiedName).Nodup := by decide +kernel
  obtain ⟨schedule, ran⟩ := run_execute (start .standard tight (crossing.map .unit) none)
  have collected : (start .standard tight (crossing.map .unit) none).run.isFinished = true := by
    decide +kernel
  obtain ⟨received, parsing, compilation, told⟩ :=
    outcome_schedule_independent tight crossing distinct schedule _ ran collected 7
  have expected : (Sequential.compile .standard 7 crossing).units.map
        (fun c => c.declared.declaration.qualifiedName) = ["m.A", "m.B"] ∧
      (Sequential.compile .standard 7 crossing).summary.parsingExceptions = 1 ∧
      (Sequential.compile .standard 7 crossing).summary.compilationExceptions = 0 ∧
      (crossing.map fun unit => ((Sequential.compile .standard 7 crossing).summary.diagnostics.filter
          (·.unit = unit)).map Diagnostic.message) =
        [["Could not resolve the type 'C'"], [], ["Could not resolve the function 'g'"]] := by
    decide +kernel
  refine ⟨schedule, _, distinct, ran, collected, ?_, ?_, ?_, ?_⟩
  · exact (received.map _).trans (.of_eq expected.1)
  · exact parsing.trans expected.2.1
  · exact compilation.trans expected.2.2.1
  · simp only [told]
    exact expected.2.2.2

end Pipeline

end UnitCompiler
