import Mathlib.Data.List.Basic
import UnitCompiler.Proofs.CatalogueReferences
import UnitCompiler.Proofs.Lists
import UnitCompiler.Proofs.PipelineProtocol

/-! The compilation of units one after another: all are declared in order, the resolution ends, all
are resolved, and then code is generated for all. It amounts to doing each unit on its own, given what
the others declare. -/

namespace UnitCompiler

structure Sequential where
  types : Registry TypeDeclaration := {}
  methods : Registry MethodDeclaration := {}
  outlines : List Outline := []
  /-- The number of the next instance of an intrinsic. -/
  instances : Nat
  declared : List DeclaredUnit := []
  compiled : List CompiledUnit := []
  records : List Record := []

namespace Sequential

variable (toolchain : Toolchain)

def registerAll {α : Type} [Named α] (owner : String) (r : Registry α) (declarations : List α) :
    Registry α :=
  declarations.foldl (fun r d => (r.serve (.register owner d)).2) r

/-- Reads a unit and registers its type and its methods. -/
def declare (s : Sequential) (unit : SourceUnit) : Sequential :=
  match Outline.read toolchain.grammar unit with
  | .ok o =>
    { s with
      types := registerAll o.owner s.types [o.type]
      methods := registerAll o.owner s.methods o.methods
      outlines := s.outlines ++ [o] }
  | .error failure => { s with records := s.records ++ [unit.parsingRecord failure] }

def endResolution (s : Sequential) : Sequential :=
  { s with types := (s.types.serve .finish).2, methods := (s.methods.serve .finish).2 }

def meaning (s : Sequential) (owner : String) : Meaning where
  type candidate := s.types.find candidate (.ofType candidate)
  method call := s.methods.find owner (.ofMethod call.name (.accepting call.arity))

/-- Looks up the names in a unit, reports its faults and completes its declaration. -/
def resolve (s : Sequential) (o : Outline) : Sequential :=
  let references := (Inquiry.ofOutline o).complete (s.meaning o.owner)
  let (unit, diagnostics, instances) := o.emit toolchain.inliner s.instances references
  { s with
    instances
    declared := s.declared ++ [unit]
    records := s.records ++ diagnostics.map .diagnostic }

def generate (s : Sequential) (d : DeclaredUnit) : Sequential :=
  match toolchain.backend d.unit.fileName d.declaration with
  | .ok artifacts => { s with compiled := s.compiled ++ [⟨d, artifacts⟩] }
  | .error failure => { s with records := s.records ++ [d.unit.compilationRecord failure] }

/-- The whole compilation; its first instance of an intrinsic has the given number. -/
def compile (instances : Nat) (units : List SourceUnit) : Outcome :=
  let declared := (units.foldl (declare toolchain) { instances }).endResolution
  let resolved := declared.outlines.foldl (resolve toolchain) declared
  let generated := resolved.declared.foldl (generate toolchain) resolved
  ⟨generated.compiled, generated.records⟩

end Sequential

/-! ## Unit by unit -/

namespace Toolchain

variable (toolchain : Toolchain)

def outline? (unit : SourceUnit) : Option Outline :=
  (Outline.read toolchain.grammar unit).toOption

theorem outline?_eq_some_iff {unit : SourceUnit} {o : Outline} :
    toolchain.outline? unit = some o ↔ Outline.read toolchain.grammar unit = .ok o := by
  unfold outline?
  cases Outline.read toolchain.grammar unit <;> simp [Except.toOption]

section Catalogue

variable (catalogue : Catalogue)

def declaredBy? (unit : SourceUnit) : Option DeclaredUnit :=
  (toolchain.outline? unit).map fun o => (toolchain.declaration catalogue o).1

def diagnosticsBy (unit : SourceUnit) : List Diagnostic :=
  (toolchain.outline? unit).elim [] fun o => (toolchain.declaration catalogue o).2

def generated? (d : DeclaredUnit) : Option CompiledUnit :=
  (toolchain.backend d.unit.fileName d.declaration).toOption.map fun artifacts => ⟨d, artifacts⟩

def compiledBy? (unit : SourceUnit) : Option CompiledUnit :=
  (toolchain.declaredBy? catalogue unit).bind toolchain.generated?

theorem declaration_unit {unit : SourceUnit} {o : Outline}
    (read : Outline.read toolchain.grammar unit = .ok o) :
    (toolchain.declaration catalogue o).1.unit = unit ∧
      (toolchain.declaration catalogue o).1.declaration.qualifiedName = unit.qualifiedName := by
  obtain ⟨own, name⟩ := o.emit_unit toolchain.inliner 1 (catalogue.references o)
  rw [Outline.owner, Outline.read_unit read] at name
  exact ⟨own.trans (Outline.read_unit read), name⟩

theorem declaredBy?_of_read {unit : SourceUnit} {o : Outline}
    (read : Outline.read toolchain.grammar unit = .ok o) :
    toolchain.declaredBy? catalogue unit = some (toolchain.declaration catalogue o).1 := by
  rw [declaredBy?, toolchain.outline?_eq_some_iff.mpr read, Option.map_some]

theorem diagnosticsBy_of_read {unit : SourceUnit} {o : Outline}
    (read : Outline.read toolchain.grammar unit = .ok o) :
    toolchain.diagnosticsBy catalogue unit = (toolchain.declaration catalogue o).2 := by
  rw [diagnosticsBy, toolchain.outline?_eq_some_iff.mpr read, Option.elim_some]

theorem diagnosticsBy_of_error {unit : SourceUnit} {failure : Failure DeclareError}
    (read : Outline.read toolchain.grammar unit = .error failure) :
    toolchain.diagnosticsBy catalogue unit = [] := by
  simp [diagnosticsBy, outline?, read, Except.toOption]

theorem declaredBy?_unit {unit : SourceUnit} {d : DeclaredUnit}
    (declared : toolchain.declaredBy? catalogue unit = some d) : d.unit = unit := by
  obtain ⟨o, found, rfl⟩ := Option.map_eq_some_iff.mp declared
  exact (toolchain.declaration_unit catalogue (toolchain.outline?_eq_some_iff.mp found)).1

theorem diagnosticsBy_unit (unit : SourceUnit) :
    ∀ d ∈ toolchain.diagnosticsBy catalogue unit, d.unit = unit := by
  intro d member
  unfold diagnosticsBy at member
  cases found : toolchain.outline? unit with
  | none => simp [found] at member
  | some o =>
    rw [found] at member
    have read := toolchain.outline?_eq_some_iff.mp found
    rw [o.emit_diagnostics _ _ _ d member, Outline.read_unit read]

theorem diagnosticsBy_of_unread {unit : SourceUnit} (unread : unit.parses = false) :
    standard.diagnosticsBy catalogue unit = [] := by
  rw [SourceUnit.parses_eq unit rfl] at unread
  cases read : Outline.read standard.grammar unit with
  | ok o => simp [read, Except.isOk, Except.toBool] at unread
  | error failure => exact standard.diagnosticsBy_of_error catalogue read

/-- Code can be generated just for the declarations with a valid name. -/
theorem backend_isOk (d : DeclaredUnit) :
    (standard.backend d.unit.fileName d.declaration).isOk =
      Image.isValidName d.declaration.qualifiedName :=
  imageBackend_isOk d.unit.fileName d.declaration

theorem compiledBy?_eq_none {unit : SourceUnit} (compiles : unit.compiles = false) :
    standard.compiledBy? catalogue unit = none := by
  rw [SourceUnit.compiles, SourceUnit.parses_eq unit rfl] at compiles
  cases read : Outline.read standard.grammar unit with
  | error failure => simp [compiledBy?, declaredBy?, outline?, read, Except.toOption]
  | ok o =>
    obtain ⟨-, name⟩ := standard.declaration_unit catalogue read
    have backend := backend_isOk (standard.declaration catalogue o).1
    rw [compiledBy?, standard.declaredBy?_of_read catalogue read, Option.bind_some, generated?]
    rw [read, ← name, ← backend] at compiles
    generalize standard.backend _ _ = made at compiles ⊢
    cases made with
    | ok artifacts => simp [Except.isOk, Except.toBool] at compiles
    | error failure => rfl

end Catalogue

variable (units : List SourceUnit)

/-- What some units declare, one after another. -/
def catalogue : Catalogue where
  types := units.flatMap (Outline.typePlan.ofUnit toolchain.grammar)
  methods := units.flatMap (Outline.methodPlan.ofUnit toolchain.grammar)

def unread? (unit : SourceUnit) : Option Record :=
  match Outline.read toolchain.grammar unit with
  | .ok _ => none
  | .error failure => some (unit.parsingRecord failure)

def rejection? (d : DeclaredUnit) : Option Record :=
  match toolchain.backend d.unit.fileName d.declaration with
  | .ok _ => none
  | .error failure => some (d.unit.compilationRecord failure)

theorem catalogue_plain : (toolchain.catalogue units).Plain := by
  intro entry member
  obtain ⟨unit, -, registered⟩ := List.mem_flatMap.mp member
  unfold Plan.ofUnit at registered
  split at registered
  · next other read =>
    rw [Outline.methodPlan_entries] at registered
    obtain ⟨method, inside, rfl⟩ := List.mem_map.mp registered
    exact Outline.methods_plain read method inside
  · contradiction

end Toolchain

namespace Sequential

variable {β : Type} {toolchain : Toolchain} {units : List SourceUnit} {catalogue : Catalogue}

def Knows (s : Sequential) (catalogue : Catalogue) : Prop :=
  s.types.Holds catalogue.types ∧ s.methods.Holds catalogue.methods

theorem Knows.meaning {s : Sequential} (knows : s.Knows catalogue) (owner : String) :
    s.meaning owner = catalogue.meaning owner := by
  simp only [Sequential.meaning, Catalogue.meaning, Meaning.mk.injEq]
  exact ⟨funext fun candidate => knows.1.find _ _, funext fun call => knows.2.find _ _⟩

theorem registerAll_holds {α : Type} [Named α] (owner : String) (declarations : List α)
    {r : Registry α} {log : Log α} (holds : r.Holds log) (live : r.ended = false) :
    (registerAll owner r declarations).Holds (log ++ declarations.map fun d => (owner, d)) ∧
      (registerAll owner r declarations).ended = false := by
  induction declarations generalizing r log with
  | nil => simpa using ⟨holds, live⟩
  | cons first rest ih =>
    have served : (r.serve (.register owner first)).2 = r.add owner first := by
      simp [Registry.serve, live]
    have next := ih (holds.add owner first) live
    rw [List.append_assoc] at next
    rw [registerAll, List.foldl_cons, served]
    exact next

structure Gathered (toolchain : Toolchain) (units : List SourceUnit) (s : Sequential) : Prop where
  knows : s.Knows (toolchain.catalogue units)
  live : s.types.ended = false ∧ s.methods.ended = false
  outlines : s.outlines = units.filterMap toolchain.outline?
  records : s.records = units.filterMap toolchain.unread?
  fresh : s.declared = [] ∧ s.compiled = []

theorem Gathered.declare {s : Sequential} (gathered : Gathered toolchain units s)
    (unit : SourceUnit) : Gathered toolchain (units ++ [unit]) (s.declare toolchain unit) := by
  cases read : Outline.read toolchain.grammar unit with
  | ok o =>
    have types := registerAll_holds o.owner [o.type] gathered.knows.1 gathered.live.1
    have methods := registerAll_holds o.owner o.methods gathered.knows.2 gathered.live.2
    have state : s.declare toolchain unit = { s with
        types := registerAll o.owner s.types [o.type]
        methods := registerAll o.owner s.methods o.methods
        outlines := s.outlines ++ [o] } := by
      simp [Sequential.declare, read]
    rw [state]
    refine ⟨⟨?_, ?_⟩, ⟨types.2, methods.2⟩, ?_, ?_, gathered.fresh⟩
    · simpa [Toolchain.catalogue, Plan.ofUnit, read, Outline.typePlan_entries] using types.1
    · simpa [Toolchain.catalogue, Plan.ofUnit, read, Outline.methodPlan_entries] using methods.1
    · simp [gathered.outlines, Toolchain.outline?, read, Except.toOption]
    · simp [gathered.records, Toolchain.unread?, read]
  | error failure =>
    have state : s.declare toolchain unit =
        { s with records := s.records ++ [unit.parsingRecord failure] } := by
      simp [Sequential.declare, read]
    rw [state]
    refine ⟨⟨?_, ?_⟩, gathered.live, ?_, ?_, gathered.fresh⟩
    · simpa [Toolchain.catalogue, Plan.ofUnit, read] using gathered.knows.1
    · simpa [Toolchain.catalogue, Plan.ofUnit, read] using gathered.knows.2
    · simp [gathered.outlines, Toolchain.outline?, read, Except.toOption]
    · simp [gathered.records, Toolchain.unread?, read]

theorem Gathered.declareAll {s : Sequential} {done : List SourceUnit}
    (gathered : Gathered toolchain done s) (units : List SourceUnit) :
    Gathered toolchain (done ++ units) (units.foldl (Sequential.declare toolchain) s) := by
  induction units generalizing done s with
  | nil => simpa using gathered
  | cons unit rest ih => simpa using ih (gathered.declare unit)

theorem generateAll (s : Sequential) (declared : List DeclaredUnit) :
    declared.foldl (generate toolchain) s = { s with
      compiled := s.compiled ++ declared.filterMap toolchain.generated?
      records := s.records ++ declared.filterMap toolchain.rejection? } := by
  induction declared generalizing s with
  | nil => simp
  | cons d rest ih =>
    rw [List.foldl_cons, ih, generate]
    split <;> rename_i made <;>
      simp [Toolchain.generated?, Toolchain.rejection?, made, Except.toOption]

theorem resolve_standard {s : Sequential} (plain : catalogue.Plain) (knows : s.Knows catalogue)
    {unit : SourceUnit} {o : Outline} (read : Outline.read Toolchain.standard.grammar unit = .ok o) :
    ∃ instances, s.resolve .standard o = { s with
      instances
      declared := s.declared ++ [(Toolchain.standard.declaration catalogue o).1]
      records := s.records ++ (Toolchain.standard.declaration catalogue o).2.map .diagnostic } := by
  obtain ⟨instances, emitted⟩ := Toolchain.emit_standard plain read s.instances
  refine ⟨instances, ?_⟩
  rw [Catalogue.references, ← knows.meaning] at emitted
  simp only [resolve, emitted]

theorem resolveAll_standard {s : Sequential} (plain : catalogue.Plain) (knows : s.Knows catalogue)
    {outlines : List Outline}
    (read : ∀ o ∈ outlines, ∃ unit, Outline.read Toolchain.standard.grammar unit = .ok o) :
    ∃ instances, outlines.foldl (resolve .standard) s = { s with
      instances
      declared := s.declared ++ outlines.map fun o => (Toolchain.standard.declaration catalogue o).1
      records := s.records ++ outlines.flatMap fun o =>
        (Toolchain.standard.declaration catalogue o).2.map .diagnostic } := by
  induction outlines generalizing s with
  | nil => exact ⟨s.instances, by simp⟩
  | cons o rest ih =>
    obtain ⟨unit, own⟩ := read o List.mem_cons_self
    obtain ⟨between, state⟩ := resolve_standard plain knows own
    have others : ∀ other ∈ rest, ∃ unit, Outline.read Toolchain.standard.grammar unit = .ok other :=
      fun other member => read other (List.mem_cons_of_mem o member)
    obtain ⟨instances, last⟩ := ih (s := s.resolve .standard o) (by rw [state]; exact knows) others
    refine ⟨instances, ?_⟩
    rw [List.foldl_cons, last, state]
    simp

/-- The compilation of all units is the compilation of each, given what the others declare. -/
theorem compile_standard (number : Nat) (units : List SourceUnit) :
    let catalogue := Toolchain.standard.catalogue units
    compile .standard number units =
      ⟨units.filterMap (Toolchain.standard.compiledBy? catalogue),
        units.filterMap Toolchain.standard.unread? ++
          (units.flatMap (Toolchain.standard.diagnosticsBy catalogue)).map .diagnostic ++
          (units.filterMap (Toolchain.standard.declaredBy? catalogue)).filterMap
            Toolchain.standard.rejection?⟩ := by
  intro catalogue
  have empty : Gathered .standard [] { instances := number } :=
    ⟨⟨Registry.holds_empty, Registry.holds_empty⟩, ⟨rfl, rfl⟩, rfl, rfl, ⟨rfl, rfl⟩⟩
  have gathered := empty.declareAll units
  rw [List.nil_append] at gathered
  rw [compile]
  generalize units.foldl (declare .standard) { instances := number } = s at gathered
  have outlines : s.endResolution.outlines = units.filterMap Toolchain.standard.outline? :=
    gathered.outlines
  have read : ∀ o ∈ s.endResolution.outlines,
      ∃ unit, Outline.read Toolchain.standard.grammar unit = .ok o := by
    intro o member
    rw [outlines] at member
    obtain ⟨unit, -, found⟩ := List.mem_filterMap.mp member
    exact ⟨unit, (Toolchain.outline?_eq_some_iff _).mp found⟩
  have knows : s.endResolution.Knows catalogue := ⟨gathered.knows.1.finish, gathered.knows.2.finish⟩
  have plain : catalogue.Plain := Toolchain.standard.catalogue_plain units
  obtain ⟨instances, resolved⟩ := resolveAll_standard plain knows read
  have declared : (s.endResolution.outlines.map fun o => (Toolchain.standard.declaration catalogue o).1) =
      units.filterMap (Toolchain.standard.declaredBy? catalogue) := by
    rw [outlines, List.map_filterMap]
    rfl
  have diagnosed : (s.endResolution.outlines.flatMap fun o =>
      (Toolchain.standard.declaration catalogue o).2.map Record.diagnostic) =
      (units.flatMap (Toolchain.standard.diagnosticsBy catalogue)).map .diagnostic := by
    rw [outlines, List.map_flatMap, List.filterMap_eq_flatMap_toList, List.flatMap_assoc]
    refine List.flatMap_congr fun unit _ => ?_
    cases found : Toolchain.standard.outline? unit <;> simp [Toolchain.diagnosticsBy, found]
  have compiled : (units.filterMap (Toolchain.standard.declaredBy? catalogue)).filterMap
      Toolchain.standard.generated? = units.filterMap (Toolchain.standard.compiledBy? catalogue) :=
    List.filterMap_filterMap
  have before : s.endResolution.declared = [] ∧ s.endResolution.compiled = [] ∧
      s.endResolution.records = units.filterMap Toolchain.standard.unread? :=
    ⟨gathered.fresh.1, gathered.fresh.2, gathered.records⟩
  rw [resolved, generateAll]
  simp only [before, declared, diagnosed, compiled, List.nil_append]

/-! ## What is counted -/

theorem filterMap_unread (f : Record → Option β)
    (other : ∀ unit failure, f (SourceUnit.parsingRecord unit failure) = none) :
    (units.filterMap toolchain.unread?).filterMap f = [] := by
  rw [List.filterMap_filterMap, List.filterMap_eq_nil_iff]
  intro unit _
  unfold Toolchain.unread?
  split
  · rfl
  · exact other _ _

theorem filterMap_rejection (f : Record → Option β)
    (other : ∀ unit failure, f (SourceUnit.compilationRecord unit failure) = none)
    (declared : List DeclaredUnit) :
    (declared.filterMap toolchain.rejection?).filterMap f = [] := by
  rw [List.filterMap_filterMap, List.filterMap_eq_nil_iff]
  intro d _
  unfold Toolchain.rejection?
  split
  · rfl
  · exact other _ _

theorem filterMap_diagnostic (f : Record → Option β) (other : ∀ d, f (.diagnostic d) = none)
    (diagnostics : List Diagnostic) : (diagnostics.map Record.diagnostic).filterMap f = [] := by
  rw [List.filterMap_map, List.filterMap_eq_nil_iff]
  exact fun d _ => other d

theorem unparsed_standard (units : List SourceUnit) :
    (units.filterMap Toolchain.standard.unread?).filterMap Record.unparsed? =
      (units.filter (!·.parses)).map SourceUnit.displayPath := by
  rw [List.filterMap_filterMap]
  refine filterMap_keep _ _ fun unit _ => ?_
  rw [SourceUnit.parses_eq unit rfl, Toolchain.unread?]
  cases Outline.read Toolchain.standard.grammar unit with
  | ok o => rfl
  | error failure => exact (unit.parsingRecord_kind failure).1

theorem rejected_standard (catalogue : Catalogue) (units : List SourceUnit) :
    ((units.filterMap (Toolchain.standard.declaredBy? catalogue)).filterMap
        Toolchain.standard.rejection?).filterMap Record.rejected? =
      (units.filter fun unit => unit.parses && !unit.compiles).map fun unit =>
        some unit.displayPath := by
  have backend (d : DeclaredUnit) : (Toolchain.standard.rejection? d).bind Record.rejected? =
      if !Image.isValidName d.declaration.qualifiedName then some (some d.unit.displayPath)
      else none := by
    rw [← Toolchain.backend_isOk d, Toolchain.rejection?]
    cases Toolchain.standard.backend d.unit.fileName d.declaration with
    | ok artifacts => rfl
    | error failure => exact (d.unit.compilationRecord_kind failure).1
  rw [List.filterMap_filterMap, List.filterMap_filterMap]
  refine filterMap_keep _ _ fun unit _ => ?_
  rw [SourceUnit.compiles, SourceUnit.parses_eq unit rfl, Toolchain.declaredBy?, Toolchain.outline?]
  cases read : Outline.read Toolchain.standard.grammar unit with
  | error failure => rfl
  | ok o =>
    obtain ⟨own, name⟩ := Toolchain.standard.declaration_unit catalogue read
    have result := backend (Toolchain.standard.declaration catalogue o).1
    rw [name, own] at result
    simpa [Except.toOption, Except.isOk, Except.toBool] using result

theorem summary_standard (number : Nat) (units : List SourceUnit) :
    (compile .standard number units).summary =
      ⟨(units.filter (!·.parses)).length,
        (units.filter fun unit => unit.parses && !unit.compiles).length,
        units.flatMap (Toolchain.standard.diagnosticsBy (Toolchain.standard.catalogue units))⟩ := by
  have parsing := SourceUnit.parsingRecord_kind
  have compilation := SourceUnit.compilationRecord_kind
  rw [Outcome.summary, compile_standard, Summary.ofRecords_eq]
  simp only [List.filterMap_append, unparsed_standard, rejected_standard]
  rw [filterMap_unread _ fun unit failure => (parsing unit failure).2.1,
    filterMap_unread _ fun unit failure => (parsing unit failure).2.2.1,
    filterMap_unread _ fun unit failure => (parsing unit failure).2.2.2,
    filterMap_rejection _ fun unit failure => (compilation unit failure).2.1,
    filterMap_rejection _ fun unit failure => (compilation unit failure).2.2.1,
    filterMap_rejection _ fun unit failure => (compilation unit failure).2.2.2,
    filterMap_diagnostic Record.unparsed? fun _ => rfl,
    filterMap_diagnostic Record.inputFailure? fun _ => rfl,
    filterMap_diagnostic Record.rejected? fun _ => rfl]
  simp [List.filterMap_map, Function.comp_def, Record.diagnostic?]

/-- Of units that differ, each is told about its own faults. -/
theorem filter_diagnosticsBy (toolchain : Toolchain) (catalogue : Catalogue) {list : List SourceUnit}
    (distinct : list.Nodup) (unit : SourceUnit) :
    (list.flatMap (toolchain.diagnosticsBy catalogue)).filter (·.unit = unit) =
      if unit ∈ list then toolchain.diagnosticsBy catalogue unit else [] := by
  induction list with
  | nil => rfl
  | cons first rest ih =>
    rw [List.nodup_cons] at distinct
    rw [List.flatMap_cons, List.filter_append, ih distinct.2]
    by_cases own : unit = first
    · subst own
      have all : (toolchain.diagnosticsBy catalogue unit).filter (·.unit = unit) =
          toolchain.diagnosticsBy catalogue unit := by
        refine List.filter_eq_self.mpr fun d member => ?_
        rw [decide_eq_true_eq]
        exact toolchain.diagnosticsBy_unit catalogue unit d member
      rw [all, if_neg distinct.1, List.append_nil, if_pos List.mem_cons_self]
    · have none : (toolchain.diagnosticsBy catalogue first).filter (·.unit = unit) = [] := by
        refine List.filter_eq_nil_iff.mpr fun d member => ?_
        rw [decide_eq_true_eq, toolchain.diagnosticsBy_unit catalogue first d member]
        exact Ne.symm own
      rw [none, List.nil_append]
      simp [own]

end Sequential

end UnitCompiler
