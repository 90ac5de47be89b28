import Mathlib.Logic.Basic
import UnitCompiler.Proofs.PipelineSteps

/-! What becomes of the units of an input, and how it is recorded: which of them are accepted, which
can be parsed and which can be compiled. -/

namespace UnitCompiler

namespace Input

/-- The units that are accepted: all of them, or those in front of the first failure. -/
def accepted (policy : InputPolicy) : List Input → List SourceUnit
  | [] => []
  | .unit first :: rest => first :: accepted policy rest
  | .failure _ :: rest =>
    match policy with
    | .keepGoing => accepted policy rest
    | .failFast => []

/-- The causes of the failures that are noticed: all of them, or the first. -/
def failures (policy : InputPolicy) : List Input → List (List String)
  | [] => []
  | .unit _ :: rest => failures policy rest
  | .failure cause :: rest =>
    cause ::
      match policy with
      | .keepGoing => failures policy rest
      | .failFast => []

def unit? : Input → Option SourceUnit
  | .unit source => some source
  | .failure _ => none

theorem failures_failFast (input : List Input) : (failures .failFast input).length ≤ 1 := by
  induction input with
  | nil => simp [failures]
  | cons first rest ih =>
    cases first with
    | unit source => exact ih
    | failure cause => simp [failures]

/-- Without failures every unit of the input is accepted. -/
theorem accepted_eq (policy : InputPolicy) (input : List Input)
    (whole : failures policy input = []) :
    accepted policy input = input.filterMap unit? := by
  induction input with
  | nil => rfl
  | cons first rest ih =>
    cases first with
    | unit source => simp [accepted, unit?, ih whole]
    | failure cause => simp [failures] at whole

/-- An input that does not fail hands over its units. -/
theorem accepted_units (policy : InputPolicy) (units : List SourceUnit) :
    accepted policy (units.map Input.unit) = units ∧ failures policy (units.map Input.unit) = [] := by
  induction units with
  | nil => exact ⟨rfl, rfl⟩
  | cons first rest ih => exact ⟨by simp [accepted, ih.1], ih.2⟩

end Input

namespace SourceUnit

def parses (unit : SourceUnit) : Bool :=
  unit.kind == .unit &&
    match unit.content with
    | .text source => (UnitTree.parse source).isOk
    | .unreadable _ => false
    | .crash _ => false

def compiles (unit : SourceUnit) : Bool :=
  unit.parses && Image.isValidName unit.qualifiedName

theorem rejected_eq (unit : SourceUnit) :
    (!Image.isValidName unit.qualifiedName && unit.parses) = (unit.parses && !unit.compiles) := by
  rw [compiles]
  cases unit.parses <;> cases Image.isValidName unit.qualifiedName <;> rfl

theorem parses_eq (unit : SourceUnit) {toolchain : Toolchain}
    (standard : toolchain = .standard) :
    unit.parses = (Outline.read toolchain.grammar unit).isOk := by
  subst standard
  unfold parses Outline.read
  by_cases kind : unit.kind = .unit
  · rw [if_neg (not_not.mpr kind)]
    cases unit.content with
    | text source =>
      simp only [Toolchain.standard, Toolchain.standardGrammar, kind, beq_self_eq_true,
        Bool.true_and]
      cases UnitTree.parse source <;> rfl
    | unreadable reason | crash message => simp [Except.isOk, Except.toBool]
  · simp [kind, Except.isOk, Except.toBool]

end SourceUnit

namespace Toolchain

/-- The images of a declaration exist if its name is valid. -/
theorem imageBackend_isOk (file : String) (declaration : TypeDeclaration) :
    (imageBackend file declaration).isOk = Image.isValidName declaration.qualifiedName := by
  unfold imageBackend Image.generate
  cases Image.isValidName declaration.qualifiedName with
  | true => rfl
  | false => rfl

end Toolchain

namespace Outline

/-- The declaration of a unit consists of its methods. -/
theorem emit_eq (o : Outline) (inliner : Inliner) (instances : Nat) (references : References) :
    o.emit inliner instances references =
      let (methods, ledger) :=
        (Emission.allMethods ⟨o.owner, references, inliner⟩ o).run { instances }
      (⟨o.unit, { qualifiedName := o.owner, kind := .unit,
                  constructors := [Emission.hiddenConstructor], methods }⟩,
        ledger.findings.map fun f => .ofFault o.unit f.span f.fault, ledger.instances) := rfl

theorem emit_unit (o : Outline) (inliner : Inliner) (instances : Nat) (references : References) :
    (o.emit inliner instances references).1.unit = o.unit ∧
      (o.emit inliner instances references).1.declaration.qualifiedName = o.owner := by
  rw [emit_eq]
  generalize (Emission.allMethods ⟨o.owner, references, inliner⟩ o).run { instances } = result
  obtain ⟨methods, ledger⟩ := result
  dsimp only
  exact ⟨rfl, rfl⟩

/-- Every diagnostic is about the unit itself. -/
theorem emit_diagnostics (o : Outline) (inliner : Inliner) (instances : Nat)
    (references : References) :
    ∀ d ∈ (o.emit inliner instances references).2.1, d.unit = o.unit := by
  rw [emit_eq]
  generalize (Emission.allMethods ⟨o.owner, references, inliner⟩ o).run { instances } = result
  obtain ⟨methods, ledger⟩ := result
  intro d member
  obtain ⟨finding, -, rfl⟩ := List.mem_map.mp member
  rfl

/-- An outline is that of a text the grammar accepts. -/
theorem read_ok {grammar : Grammar} {unit : SourceUnit} {o : Outline}
    (read : Outline.read grammar unit = .ok o) :
    ∃ source tree, unit.content = .text source ∧ grammar source = .ok tree ∧ o = ofTree unit tree := by
  unfold Outline.read at read
  split at read
  · contradiction
  · split at read
    · contradiction
    · contradiction
    · next source content =>
      split at read
      · next tree parsed =>
        cases read
        exact ⟨source, tree, content, parsed, rfl⟩
      · contradiction
      · contradiction

theorem read_unit {grammar : Grammar} {unit : SourceUnit} {o : Outline}
    (read : Outline.read grammar unit = .ok o) : o.unit = unit := by
  obtain ⟨source, tree, -, -, rfl⟩ := read_ok read
  rfl

end Outline

namespace Record

def unparsed? : Record → Option String
  | .parsing (some path) _ => some path
  | _ => none

def inputFailure? : Record → Option (List String)
  | .parsing none cause => some cause.tail
  | _ => none

def rejected? : Record → Option (Option String)
  | .compilation path _ => some path
  | _ => none

def diagnostic? : Record → Option Diagnostic
  | .diagnostic d => some d
  | _ => none

end Record

namespace SourceUnit

/-- A unit that cannot be read is on record with its path, and nothing else is. -/
theorem parsingRecord_kind (unit : SourceUnit) (failure : Failure DeclareError) :
    (unit.parsingRecord failure).unparsed? = some unit.displayPath ∧
      (unit.parsingRecord failure).inputFailure? = none ∧
      (unit.parsingRecord failure).rejected? = none ∧
      (unit.parsingRecord failure).diagnostic? = none := by
  cases failure <;> exact ⟨rfl, rfl, rfl, rfl⟩

theorem compilationRecord_kind (unit : SourceUnit) (failure : Failure ImageError) :
    (unit.compilationRecord failure).rejected? = some (some unit.displayPath) ∧
      (unit.compilationRecord failure).unparsed? = none ∧
      (unit.compilationRecord failure).inputFailure? = none ∧
      (unit.compilationRecord failure).diagnostic? = none := by
  cases failure <;> exact ⟨rfl, rfl, rfl, rfl⟩

end SourceUnit

namespace Summary

theorem foldl_add (records : List Record) (s : Summary) :
    records.foldl add s =
      ⟨s.parsingExceptions + (records.filterMap Record.unparsed?).length +
          (records.filterMap Record.inputFailure?).length,
        s.compilationExceptions + (records.filterMap Record.rejected?).length,
        s.diagnostics ++ records.filterMap Record.diagnostic?⟩ := by
  induction records generalizing s with
  | nil => simp
  | cons record rest ih =>
    rw [List.foldl_cons, ih]
    simp only [List.filterMap_cons]
    cases record with
    | parsing unit cause =>
      cases unit <;>
        simp [add, Record.unparsed?, Record.inputFailure?, Record.rejected?, Record.diagnostic?] <;>
        omega
    | compilation unit cause =>
      simp [add, Record.unparsed?, Record.inputFailure?, Record.rejected?, Record.diagnostic?]
      omega
    | diagnostic d =>
      simp [add, Record.unparsed?, Record.inputFailure?, Record.rejected?, Record.diagnostic?]

theorem ofRecords_eq (records : List Record) :
    ofRecords records =
      ⟨(records.filterMap Record.unparsed?).length +
          (records.filterMap Record.inputFailure?).length,
        (records.filterMap Record.rejected?).length, records.filterMap Record.diagnostic?⟩ := by
  simp [ofRecords, foldl_add]

end Summary

end UnitCompiler
