import UnitCompiler.Proofs.PipelineBarrier
import UnitCompiler.Proofs.PipelineDelivery
import UnitCompiler.Proofs.SessionWaiting

/-! A pipeline makes of its units what its tables come to. Every catalogue that the tables may still come
to gives each unit the declaration that its task is on its way to; so in the end all units have been
declared, and diagnosed, by what is registered then. The units may share their names. -/

namespace UnitCompiler

/-- One item changes that gives less than before; what it gave up is all that is missing. -/
theorem flatMap_modify_perm {α β : Type} (f : α → List β) (change : α → α) {list : List α}
    {index : Nat} {item : α} (there : list[index]? = some item) {left : List β}
    (gone : f item = left ++ f (change item)) :
    (list.flatMap f).Perm (left ++ (list.modify index change).flatMap f) := by
  induction list generalizing index with
  | nil => simp at there
  | cons first rest ih =>
    cases index with
    | zero =>
      cases there
      simp [gone]
    | succ place =>
      rw [List.modify_succ_cons, List.flatMap_cons, List.flatMap_cons]
      calc f first ++ rest.flatMap f
          |>.Perm (f first ++ (left ++ (rest.modify place change).flatMap f)) := (ih there).append_left _
        _ |>.Perm (left ++ (f first ++ (rest.modify place change).flatMap f)) := by
          rw [← List.append_assoc, ← List.append_assoc]
          exact List.perm_append_comm.append_right _

/-- Whatever is accepted comes from a unit. -/
theorem Plan.Interleaved.source {α : Type} [Named α] {plan : Plan α} {grammar : Grammar}
    {units : List SourceUnit} {t : Table α} {history : History α}
    (whole : plan.Interleaved grammar units t history) {entry : String × α}
    (member : entry ∈ t.accepted) : ∃ unit ∈ units, entry ∈ plan.ofUnit grammar unit := by
  obtain ⟨accepted, callers, made⟩ := whole
  rw [← accepted] at member
  obtain ⟨⟨caller, _⟩, recorded, rfl⟩ := List.mem_map.mp member
  obtain ⟨index, inside, called⟩ := callers _ recorded
  refine ⟨units[index], List.getElem_mem inside, ?_⟩
  rw [← made index _ (List.getElem?_eq_getElem inside)]
  exact List.mem_map.mpr ⟨_, List.mem_filter.mpr ⟨recorded, by simpa using called⟩, rfl⟩

namespace Pipeline

variable {settings : Settings} {input : List Input} {catalogue : Catalogue} {p q : Pipeline}

/-! ## What the tables may come to -/

theorem Move.grows (protocol : p.Protocol) (move : p.Move q) :
    p.tables.types.Grows q.tables.types ∧ p.tables.methods.Grows q.tables.methods := by
  have types := protocol.types.sound
  have methods := protocol.methods.sound
  cases move with
  | endTypes => exact ⟨(types.perform (.post stageCaller .finish) rfl).2, .of_eq rfl⟩
  | endMethods stage reply types taken =>
    obtain ⟨-, -, replies, rfl⟩ := Table.takeReply_frame taken
    exact ⟨.of_eq rfl, (methods.perform (.post stageCaller .finish) rfl).2⟩
  | endResolution stage reply methods taken =>
    obtain ⟨-, -, replies, rfl⟩ := Table.takeReply_frame taken
    exact ⟨.of_eq rfl, .of_eq rfl⟩
  | tables action tables moved =>
    rcases Tables.perform_step moved with ⟨later, step, rfl⟩ | ⟨later, step, rfl⟩
    · have change : p.tables.types.Change (fun _ => True) later := step.change
      exact ⟨(change.sound types).2, .of_eq rfl⟩
    · have change : p.tables.methods.Change (fun _ => True) later := step.change
      exact ⟨.of_eq rfl, (change.sound methods).2⟩
  | register index task there state phase next tables step =>
    obtain ⟨-, -, first, second⟩ :=
      Registering.step_continuing (protocol.registering there phase).2 step
    exact ⟨.of_eq (first.frame types).2.1, .of_eq (second.frame methods).2.1⟩
  | declare index task there state phase outline tables step =>
    obtain ⟨-, rfl, -⟩ := Registering.step_finished (protocol.registering there phase).2 step
    exact ⟨.of_eq rfl, .of_eq rfl⟩
  | bar index task there state phase error tables step =>
    exact absurd step (protocol.not_barred there phase)
  | inquire index task there state phase next tables step =>
    cases Resolving.step_move types methods step <;> exact ⟨.of_eq rfl, .of_eq rfl⟩
  | emit index task there state phase references tables step =>
    cases Resolving.step_move types methods step
    exact ⟨.of_eq rfl, .of_eq rfl⟩
  | lose index task there state phase error tables step => exact absurd step protocol.not_lost
  | exhaust | accept | skip | abort | join | enter | read | refuse | diagnose | diagnosed | send
  | receive | close | joinJobs | enterJob | generate | reject | abandon | publish | consume
  | consumeLast | consumeOne | report => exact ⟨.of_eq rfl, .of_eq rfl⟩

/-- What the tables may come to after a move was possible before. -/
theorem Protocol.back (protocol : p.Protocol) (move : p.Move q) (admits : q.tables.Admits catalogue) :
    p.tables.Admits catalogue := by
  obtain ⟨types, methods⟩ := move.grows protocol
  have later := protocol.move move
  exact ⟨admits.1.back protocol.types.sound types later.types.sound,
    admits.2.back protocol.methods.sound methods later.methods.sound⟩

/-! ## What is reported -/

/-- What has been reported, with what the tasks have not reported yet, is all that the catalogue has
against the units. -/
def Accounted (catalogue : Catalogue) (p : Pipeline) : Prop :=
  (p.diagnostics ++ p.tasks.flatMap (ParseTask.untold catalogue)).Perm
    ((p.tasks.map ParseTask.unit).flatMap (Toolchain.standard.diagnosticsBy catalogue))

theorem Accounted.tells (accounted : p.Accounted catalogue) (tells : p.Tells catalogue q) :
    q.Accounted catalogue := by
  cases tells with
  | idle tasks diagnostics =>
    rw [Accounted, tasks, diagnostics]
    exact accounted
  | accept unit tasks diagnostics =>
    rw [Accounted, tasks, diagnostics, List.map_append, List.flatMap_append, List.flatMap_append,
      ← List.append_assoc]
    exact List.Perm.append_right _ accounted
  | proceed there phase told gone tasks diagnostics =>
    have moved := flatMap_modify_perm _ (fun task => { task with phase }) there gone
    rw [Accounted, tasks, units_setTask, diagnostics, List.append_assoc]
    exact (moved.symm.append_left _).trans accounted

/-! ## In the end -/

/-- Everything in a pipeline is what each catalogue gives that its tables may come to. -/
structure Foreseen (settings : Settings) (input : List Input) (p : Pipeline) : Prop where
  books : Books settings input p
  course : ∀ catalogue : Catalogue, catalogue.Plain → p.tables.Admits catalogue → p.Course catalogue
  accounted : ∀ catalogue : Catalogue, catalogue.Plain → p.tables.Admits catalogue →
    p.Accounted catalogue
  telling : ((Input.accepted settings.inputErrors input).map SourceUnit.qualifiedName).Nodup →
    ∀ catalogue : Catalogue, catalogue.Plain → p.tables.Admits catalogue → p.Telling catalogue

theorem Foreseen.move (foreseen : Foreseen settings input p) (move : p.Move q) :
    Foreseen settings input q := by
  obtain ⟨books, course, accounted, telling⟩ := foreseen
  have protocol := books.protocol
  refine ⟨books.move move, fun catalogue plain admits => ?_, fun catalogue plain admits => ?_,
    fun distinct catalogue plain admits => ?_⟩
  · have before := protocol.back move admits
    exact (course catalogue plain before).move books plain (protocol.types.sound.settles before.1)
      (protocol.methods.sound.settles before.2) move
  · have before := protocol.back move admits
    exact (accounted catalogue plain before).tells (move.tells (course catalogue plain before) books plain)
  · have before := protocol.back move admits
    exact (telling distinct catalogue plain before).move (course catalogue plain before) books plain
      distinct move

theorem execute_foreseen {schedule : List Action}
    (ran : (start .standard settings input none).execute schedule = some p) :
    Foreseen settings input p := by
  refine execute_induction (fun _ _ => Foreseen.move) schedule _ _ ?_ ran
  exact ⟨start_books settings input,
    fun _ _ _ => ⟨by simp [start], by simp [start], by simp [start], by simp [start]⟩, fun _ _ _ => .nil,
    fun _ _ _ _ => ⟨by simp [start, diagnostics, log], by simp [start]⟩⟩

namespace Foreseen

/-- In the end the tables hold what the accepted units register. -/
theorem interleaved (foreseen : Foreseen settings input p) (collected : p.isFinished = true) :
    let units := Input.accepted settings.inputErrors input
    (∃ history, Outline.typePlan.Interleaved Toolchain.standard.grammar units p.tables.types history) ∧
      ∃ history, Outline.methodPlan.Interleaved Toolchain.standard.grammar units p.tables.methods
        history := by
  intro units
  have books := foreseen.books
  obtain ⟨parsed, -⟩ := Books.ended collected
  have declared := books.protocol.declared (by rw [parsed]; decide)
  have types := books.protocol.types.interleaved declared
  have methods := books.protocol.methods.interleaved declared
  rw [books.standard, ← (books.accepted collected).1] at types methods
  exact ⟨types, methods⟩

/-- A method that is registered in the end is one of an accepted unit. -/
theorem origin (foreseen : Foreseen settings input p) (collected : p.isFinished = true)
    {entry : String × MethodDeclaration} (member : entry ∈ p.tables.accepted.methods) :
    ∃ unit ∈ Input.accepted settings.inputErrors input, ∃ o : Outline,
      Outline.read Toolchain.standard.grammar unit = .ok o ∧ o.owner = entry.1 ∧ entry.2 ∈ o.methods := by
  obtain ⟨-, history, whole⟩ := foreseen.interleaved collected
  obtain ⟨unit, among, registers⟩ := whole.source member
  unfold Plan.ofUnit at registers
  split at registers
  · next o read =>
    rw [Outline.methodPlan_entries] at registers
    obtain ⟨method, inside, rfl⟩ := List.mem_map.mp registers
    exact ⟨unit, among, o, read, by dsimp only, inside⟩
  · contradiction

theorem accepted_plain (foreseen : Foreseen settings input p) (collected : p.isFinished = true) :
    p.tables.accepted.Plain := by
  intro entry member
  obtain ⟨unit, -, o, read, -, inside⟩ := foreseen.origin collected member
  exact Outline.methods_plain read entry.2 inside

/-- What is declared in the end are the names of the units that can be read. -/
theorem declares_iff (foreseen : Foreseen settings input p) (collected : p.isFinished = true)
    (name : String) :
    p.tables.Declares [name] ↔ ∃ unit ∈ Input.accepted settings.inputErrors input,
      unit.parses = true ∧ unit.qualifiedName = name := by
  obtain ⟨⟨history, whole⟩, -⟩ := foreseen.interleaved collected
  constructor
  · rintro ⟨candidate, others, type, same, member, -⟩
    obtain ⟨rfl, -⟩ := List.cons.inj same
    obtain ⟨unit, among, registers⟩ := whole.source member
    unfold Plan.ofUnit at registers
    split at registers
    · next o read =>
      rw [Outline.typePlan_entries, List.mem_singleton, Prod.mk.injEq] at registers
      refine ⟨unit, among, ?_, ?_⟩
      · rw [SourceUnit.parses_eq unit rfl, read]
        rfl
      · rw [registers.1, Outline.owner, Outline.read_unit read]
    · contradiction
  · rintro ⟨unit, among, parses, rfl⟩
    rw [SourceUnit.parses_eq unit rfl] at parses
    cases read : Outline.read Toolchain.standard.grammar unit with
    | error failure => simp [read, Except.isOk, Except.toBool] at parses
    | ok o =>
      have own : o.owner = unit.qualifiedName := by rw [Outline.owner, Outline.read_unit read]
      refine ⟨unit.qualifiedName, [], o.type, rfl, ?_, by rw [Outline.type, own]⟩
      apply whole.mem among
      rw [Outline.typePlan_ofUnit read, own]
      exact List.mem_singleton_self _

/-- What comes out of a pipeline are the declarations by what is registered in the end. -/
theorem received (foreseen : Foreseen settings input p) (collected : p.isFinished = true) :
    (p.received.map CompiledUnit.declared).Perm
      (((Input.accepted settings.inputErrors input).filter SourceUnit.compiles).filterMap
        (Toolchain.standard.declaredBy? p.tables.accepted)) := by
  have course := foreseen.course _ (foreseen.accepted_plain collected) (.refl _)
  have own : (p.received.map fun c => c.declared.unit).filterMap
      (Toolchain.standard.declaredBy? p.tables.accepted) = p.received.map CompiledUnit.declared := by
    rw [List.filterMap_map, ← List.filterMap_eq_map]
    refine List.filterMap_congr fun c member => ?_
    obtain ⟨d, declared, generated⟩ :=
      Option.bind_eq_some_iff.mp (course.compiled c (List.mem_append_left _ member))
    obtain ⟨artifacts, -, rfl⟩ := Option.map_eq_some_iff.mp generated
    exact declared
  rw [← own]
  exact (foreseen.books.received collected).filterMap _

theorem declared (foreseen : Foreseen settings input p) (collected : p.isFinished = true)
    {c : CompiledUnit} (received : c ∈ p.received) :
    c.declared.unit ∈ Input.accepted settings.inputErrors input ∧
      ∃ o, Outline.read Toolchain.standard.grammar c.declared.unit = .ok o ∧
        c.declared = (Toolchain.standard.declaration p.tables.accepted o).1 := by
  have member := (foreseen.received collected).subset (List.mem_map_of_mem received)
  obtain ⟨unit, inside, found⟩ := List.mem_filterMap.mp member
  obtain rfl := Toolchain.standard.declaredBy?_unit _ found
  obtain ⟨o, outline, made⟩ := Option.map_eq_some_iff.mp found
  exact ⟨(List.mem_filter.mp inside).1, o, Toolchain.standard.outline?_eq_some_iff.mp outline, made.symm⟩

/-- What is reported is all that what is registered in the end has against the units. -/
theorem reported (foreseen : Foreseen settings input p) (collected : p.isFinished = true) :
    p.summary.diagnostics.Perm ((Input.accepted settings.inputErrors input).flatMap
      (Toolchain.standard.diagnosticsBy p.tables.accepted)) := by
  have done := foreseen.books.protocol.finished (Books.ended collected).1
  have accounted := foreseen.accounted _ (foreseen.accepted_plain collected) (.refl _)
  have silent : p.tasks.flatMap (ParseTask.untold p.tables.accepted) = [] :=
    List.flatMap_eq_nil_iff.mpr fun task member => task.untold_finished _ (done task member)
  rw [Accounted, silent, List.append_nil, ← (foreseen.books.accepted collected).1] at accounted
  rw [summary_diagnostics collected]
  exact accounted

/-- Among units with different names, each is told in order what what is registered in the end has
against it. -/
theorem told (foreseen : Foreseen settings input p) (collected : p.isFinished = true)
    (distinct : ((Input.accepted settings.inputErrors input).map SourceUnit.qualifiedName).Nodup)
    {unit : SourceUnit} (among : unit ∈ Input.accepted settings.inputErrors input) :
    p.summary.diagnostics.filter (·.unit = unit) =
      Toolchain.standard.diagnosticsBy p.tables.accepted unit := by
  have telling := foreseen.telling distinct _ (foreseen.accepted_plain collected) (.refl _)
  rw [telling.ended foreseen.books collected unit, if_pos among]

end Foreseen

end Pipeline

end UnitCompiler
