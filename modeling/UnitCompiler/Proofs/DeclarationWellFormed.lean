import Mathlib.Data.List.Induction
import UnitCompiler.Proofs.DeclarationRendering
import UnitCompiler.Proofs.PipelineCatalogue
import UnitCompiler.Proofs.SessionOperation

/-! What can be relied on in the declaration of a unit, whatever was reported about it. Variables are
parameters, calls of the unit's own functions have all their arguments, and nothing is left of the
instances of printing functions. -/

namespace UnitCompiler

/-- The expressions of a tree: the defaults of parameters, the bodies of functions and the statements
outside functions, with all that is inside them. -/
def UnitTree.parts (tree : UnitTree) : List Expr :=
  let functions := tree.functions.flatMap fun f => f.parameters.filterMap Param.default ++ f.body
  (functions ++ tree.statements).flatMap Expr.parts

structure TypeDeclaration.WellFormed (o : Outline) (d : TypeDeclaration) : Prop where
  /-- No variable is declared. -/
  undeclared : ∀ name type value, .declare name type value ∉ d.parts
  /-- No variable and no parameter is named like a parameter of an instance. -/
  unmarked : ∀ number index, (∀ type, .access (Intrinsic.parameterName number index) type ∉ d.parts) ∧
    ∀ p ∈ d.constructors.flatMap Constructor.parameters ++
      d.methods.flatMap MethodDeclaration.parameters, p.name ≠ Intrinsic.parameterName number index
  /-- A variable in the body of a method is the last of its parameters with that name. -/
  accesses : ∀ m ∈ d.methods, ∀ i ∈ m.body, ∀ name type, .access name type ∈ i.parts →
    ∃ earlier p later, m.parameters = earlier ++ p :: later ∧ p.name = name ∧ p.type = type ∧
      ∀ q ∈ later, q.name ≠ name
  /-- Defaults use no variables. -/
  defaults : ∀ m ∈ d.methods, ∀ p ∈ m.parameters, ∀ name type, .access name type ∉ p.parts
  /-- There is an argument for each parameter type. -/
  arguments : ∀ kind receiver owner name shape arguments,
    .invoke kind receiver owner name shape arguments ∈ d.parts →
      arguments.length = shape.parameterTypes.length
  /-- A static invocation is a call in the tree of a method of the unit. Its arguments are those that
  are written, and the literals that are the defaults of the other parameters. -/
  calls : ∀ receiver owner name shape arguments,
    .invoke .static receiver owner name shape arguments ∈ d.parts →
      receiver = none ∧ owner = .named d.qualifiedName ∧
      ∃ scope written span given added, .call name written span ∈ o.tree.parts ∧
        List.Forall₂ (Expr.Renders o scope) written given ∧ arguments = given ++ added ∧
        (∀ i ∈ added, ∃ value, i = .literal value) ∧
        ∃ m ∈ d.methods, m.name = name ∧
          added.map some = (m.parameters.drop written.length).map Parameter.default
  /-- A virtual invocation prints to a standard stream what its arguments are, by their types. -/
  prints : ∀ receiver owner name shape arguments,
    .invoke .virtual receiver owner name shape arguments ∈ d.parts →
      (name = "print" ∨ name = "println") ∧ (∃ stream, receiver = some (.stream stream)) ∧
      shape.parameterTypes = arguments.map Instruction.typeRef

namespace Outline

variable {o : Outline} {references : References} {d : TypeDeclaration}

structure Holds (o : Outline) (m : MethodDeclaration) : Prop where
  unmarked : ∀ p ∈ m.parameters, Unmarked p.name
  body : ∀ i ∈ m.body, ∀ part ∈ i.parts, part.IsConstant ∨
    ∃ expr ∈ o.tree.parts, expr.Renders o (Emission.scopeOf m.parameters) part
  defaults : ∀ p ∈ m.parameters, ∀ part ∈ p.parts, part.IsConstant ∨
    ∃ expr ∈ o.tree.parts, expr.Renders o [] part

theorem mem_parts_statement {expr inner : Expr} (statement : expr ∈ o.tree.statements)
    (inside : inner ∈ expr.parts) : inner ∈ o.tree.parts :=
  List.mem_flatMap.mpr ⟨expr, List.mem_append_right _ statement, inside⟩

theorem mem_parts_function {f : Function} (function : f ∈ o.tree.functions) {expr inner : Expr}
    (own : expr ∈ f.parameters.filterMap Param.default ++ f.body) (inside : inner ∈ expr.parts) :
    inner ∈ o.tree.parts :=
  List.mem_flatMap.mpr
    ⟨expr, List.mem_append_left _ (List.mem_flatMap.mpr ⟨f, function, own⟩), inside⟩

theorem Whole.holds_function (whole : o.Whole) {f : Function} (function : f ∈ o.tree.functions)
    {m : MethodDeclaration} (rendered : f.Renders o references m) : o.Holds m where
  unmarked := renders_unmarked (whole.written f function) rendered.parameters
  body i member part inside := by
    obtain ⟨expr, there, own⟩ := rendered.body i member
    refine (Expr.origin_of_renders whole expr i own part inside).imp_right ?_
    rintro ⟨inner, within, renders⟩
    exact ⟨inner, mem_parts_function function (List.mem_append_right _ there) within, renders⟩
  defaults p member part inside := by
    obtain ⟨source, there, own⟩ := exists_of_forall₂ rendered.parameters member
    cases given : p.default with
    | none => simp [Parameter.parts, given, Instruction.partsReceiver] at inside
    | some i =>
      rw [Parameter.parts, given, Instruction.partsReceiver] at inside
      obtain ⟨expr, written, renders⟩ := own.default i given
      refine (Expr.origin_of_renders whole expr i renders part inside).imp_right ?_
      rintro ⟨inner, within, renders⟩
      have default : expr ∈ f.parameters.filterMap Param.default :=
        List.mem_filterMap.mpr ⟨source, there, written⟩
      exact ⟨inner, mem_parts_function function (List.mem_append_left _ default) within, renders⟩

theorem Whole.holds_entrypoint (whole : o.Whole) {body : List Instruction}
    (rendered : ∀ i ∈ body, ∃ expr ∈ o.tree.statements,
      expr.Renders o (Emission.scopeOf entrypoint.parameters) i) :
    o.Holds { entrypoint with body } where
  unmarked := by simp [entrypoint, Unmarked]
  body i member part inside := by
    obtain ⟨expr, there, own⟩ := rendered i member
    refine (Expr.origin_of_renders whole expr i own part inside).imp_right ?_
    rintro ⟨inner, within, renders⟩
    exact ⟨inner, mem_parts_statement there within, renders⟩
  defaults := by simp [entrypoint, Parameter.parts, Instruction.partsReceiver]

theorem Renders.holds (rendered : o.Renders references d) (whole : o.Whole) {m : MethodDeclaration}
    (method : m ∈ d.methods) : o.Holds m := by
  obtain ⟨body, made, all, statements, functions⟩ := rendered.methods
  rw [all, List.mem_cons] at method
  rcases method with rfl | later
  · exact whole.holds_entrypoint statements
  · obtain ⟨f, function, own⟩ := exists_of_forall₂ functions later
    exact whole.holds_function function own

/-- Every part of the declaration is in the body of a method or in one of its defaults. -/
theorem Renders.place (rendered : o.Renders references d) {part : Instruction} (inside : part ∈ d.parts) :
    ∃ m ∈ d.methods, (∃ i ∈ m.body, part ∈ i.parts) ∨ ∃ p ∈ m.parameters, part ∈ p.parts := by
  rw [TypeDeclaration.parts, rendered.constructors, List.mem_append] at inside
  rcases inside with constructor | inside
  · contradiction
  · obtain ⟨m, method, inside⟩ := List.mem_flatMap.mp inside
    refine ⟨m, method, ?_⟩
    rw [MethodDeclaration.parts, List.mem_append, List.mem_flatMap, List.mem_flatMap] at inside
    exact inside.symm

/-- Every part but a constant renders an expression of the tree. -/
theorem Renders.source (rendered : o.Renders references d) (whole : o.Whole) {part : Instruction}
    (inside : part ∈ d.parts) (proper : ¬part.IsConstant) :
    ∃ scope, ∃ expr ∈ o.tree.parts, expr.Renders o scope part := by
  obtain ⟨m, method, ⟨i, member, inside⟩ | ⟨p, member, inside⟩⟩ := rendered.place inside
  · exact ⟨_, ((rendered.holds whole method).body i member part inside).resolve_left proper⟩
  · exact ⟨_, ((rendered.holds whole method).defaults p member part inside).resolve_left proper⟩

/-- Every method of the outline is there with its parameters as they were looked up. -/
theorem Renders.counterpart (rendered : o.Renders references d) (whole : o.Whole)
    {target : MethodDeclaration} (own : target ∈ o.methods) :
    (∃ body, target = entrypoint ∧ { entrypoint with body } ∈ d.methods) ∨
    ∃ f ∈ o.tree.functions, target = skeleton o.tree.importTable o.unit.packageName f ∧
      ∃ m ∈ d.methods, f.Renders o references m := by
  obtain ⟨body, made, all, -, functions⟩ := rendered.methods
  rw [whole.methods, List.mem_cons, List.mem_map] at own
  rcases own with rfl | ⟨f, function, rfl⟩
  · exact .inl ⟨body, rfl, by simp [all]⟩
  · obtain ⟨m, member, renders⟩ := exists_of_forall₂ functions.flip function
    exact .inr ⟨f, function, rfl, m, by simp [all, member], renders⟩

end Outline

/-! ## Arguments -/

theorem CallForm.fits_accepting {arity : Nat} {parameters : List Parameter} :
    (CallForm.accepting arity).fits parameters = true ↔
      arity ≤ parameters.length ∧ ∀ p ∈ parameters.drop arity, p.default.isSome = true := by
  simp [fits]

/-- Where all have a default, none is lost. -/
theorem map_some_defaults {parameters : List Parameter}
    (given : ∀ p ∈ parameters, p.default.isSome = true) :
    (parameters.filterMap Parameter.default).map some = parameters.map Parameter.default := by
  induction parameters with
  | nil => rfl
  | cons p rest ih =>
    rw [List.forall_mem_cons] at given
    obtain ⟨i, known⟩ := Option.isSome_iff_exists.mp given.1
    rw [List.filterMap_cons_some known, List.map_cons, List.map_cons, known, ih given.2]

/-- Literals that are known as defaults stay so. -/
theorem map_default_renders {o : Outline} {references : References} {imports : List Import}
    {package : String} {written : List Param} {made : List Parameter}
    (rendered : List.Forall₂ (Param.Renders o references) written made)
    (given : ∀ p ∈ written.map (Outline.guessParameter imports package), p.default.isSome = true) :
    (written.map (Outline.guessParameter imports package)).map Parameter.default =
      made.map Parameter.default := by
  induction rendered with
  | nil => rfl
  | cons first rest ih =>
    rw [List.map_cons, List.forall_mem_cons] at given
    obtain ⟨i, known⟩ := Option.isSome_iff_exists.mp given.1
    rw [List.map_cons, List.map_cons, List.map_cons, known, first.literal i known, ih given.2]

/-- The defaults that a call adds are those in the declaration. -/
theorem Outline.Renders.added {o : Outline} {references : References} {d : TypeDeclaration}
    (rendered : o.Renders references d) (whole : o.Whole) {target : MethodDeclaration}
    (own : target ∈ o.methods) {arity : Nat}
    (fits : (CallForm.accepting arity).fits target.parameters = true) :
    ∃ m ∈ d.methods, m.name = target.name ∧
      ((target.parameters.drop arity).filterMap Parameter.default).map some =
        (m.parameters.drop arity).map Parameter.default := by
  have given := (CallForm.fits_accepting.mp fits).2
  rw [map_some_defaults given]
  rcases rendered.counterpart whole own with ⟨body, rfl, member⟩ | ⟨f, -, rfl, m, member, renders⟩
  · exact ⟨_, member, rfl, rfl⟩
  · refine ⟨m, member, renders.name, ?_⟩
    rw [skeleton, ← List.map_drop] at given ⊢
    exact map_default_renders (List.forall₂_drop arity renders.parameters) given

namespace Expr

variable {o : Outline} {scope : Scope} {expr : Expr}

theorem Renders.arity {kind : InvokeKind} {receiver : Option Instruction} {owner : TypeRef}
    {name : String} {shape : Shape} {arguments : List Instruction}
    (renders : expr.Renders o scope (.invoke kind receiver owner name shape arguments)) :
    arguments.length = shape.parameterTypes.length := by
  cases renders with
  | print => exact (List.length_map _).symm
  | call target written span values own fits all =>
    obtain ⟨bound, given⟩ := CallForm.fits_accepting.mp fits
    have added := congrArg List.length (map_some_defaults given)
    rw [List.length_map, List.length_map, List.length_drop] at added
    rw [List.length_append, added, ← all.length_eq, MethodDeclaration.shape, List.length_map]
    omega

end Expr

/-- A variable in scope is the last parameter of its name. -/
theorem Emission.last_of_scope {ps : List Parameter} {name : String} {type : TypeRef}
    (known : (scopeOf ps).type? name = some type) :
    ∃ (earlier : List Parameter) (p : Parameter) (later : List Parameter), ps = earlier ++ p :: later ∧
      p.name = name ∧ p.type = type ∧ ∀ q ∈ later, q.name ≠ name := by
  induction ps using List.reverseRecOn with
  | nil => contradiction
  | append_singleton rest p ih =>
    have first : (scopeOf (rest ++ [p])).type? name =
        if name == p.name then some p.type else (scopeOf rest).type? name := by
      simp only [scopeOf, Scope.type?, List.map_append, List.reverse_append, List.map_cons,
        List.map_nil, List.reverse_singleton, List.singleton_append, List.lookup_cons]
      cases name == p.name <;> rfl
    rw [first] at known
    by_cases same : p.name = name
    · subst same
      rw [beq_self_eq_true, if_pos rfl] at known
      exact ⟨rest, p, [], rfl, rfl, Option.some.inj known, by simp⟩
    · rw [if_neg (by simpa using Ne.symm same)] at known
      obtain ⟨earlier, found, later, rfl, named, typed, apart⟩ := ih known
      refine ⟨earlier, found, later ++ [p], by simp, named, typed, ?_⟩
      rw [List.forall_mem_append, List.forall_mem_singleton]
      exact ⟨apart, same⟩

namespace Outline

variable {o : Outline} {references : References} {d : TypeDeclaration} {m : MethodDeclaration}
  {name : String} {type : TypeRef}

theorem Renders.in_scope (rendered : o.Renders references d) (whole : o.Whole) (method : m ∈ d.methods)
    {i : Instruction} (member : i ∈ m.body) (inside : .access name type ∈ i.parts) :
    (Emission.scopeOf m.parameters).type? name = some type := by
  rcases (rendered.holds whole method).body i member _ inside with constant | ⟨expr, -, renders⟩
  · contradiction
  · cases renders with
    | name name span type known => exact known

theorem Renders.default_closed (rendered : o.Renders references d) (whole : o.Whole)
    (method : m ∈ d.methods) {p : Parameter} (member : p ∈ m.parameters) :
    .access name type ∉ p.parts := by
  intro inside
  rcases (rendered.holds whole method).defaults p member _ inside with constant | ⟨expr, -, renders⟩
  · contradiction
  · cases renders with
    | name name span type known => contradiction

/-- Variables have the names of parameters, which are written in the tree. -/
theorem Renders.access_unmarked (rendered : o.Renders references d) (whole : o.Whole)
    (inside : .access name type ∈ d.parts) : Unmarked name := by
  obtain ⟨m, method, ⟨i, member, inside⟩ | ⟨p, member, inside⟩⟩ := rendered.place inside
  · obtain ⟨earlier, p, later, all, named, -⟩ :=
      Emission.last_of_scope (rendered.in_scope whole method member inside)
    rw [← named]
    exact (rendered.holds whole method).unmarked p (by simp [all])
  · exact absurd inside (rendered.default_closed whole method member)

theorem Renders.parameter_unmarked (rendered : o.Renders references d) (whole : o.Whole) {p : Parameter}
    (member : p ∈ d.constructors.flatMap Constructor.parameters ++
      d.methods.flatMap MethodDeclaration.parameters) : Unmarked p.name := by
  rw [rendered.constructors, List.mem_append] at member
  rcases member with constructor | later
  · contradiction
  · obtain ⟨m, method, parameter⟩ := List.mem_flatMap.mp later
    exact (rendered.holds whole method).unmarked p parameter

theorem Renders.wellFormed (rendered : o.Renders references d) (whole : o.Whole) : d.WellFormed o := by
  constructor
  case undeclared =>
    intro name type value inside
    obtain ⟨scope, expr, -, renders⟩ := rendered.source whole inside id
    cases renders
  case unmarked =>
    intro number index
    have marked := Intrinsic.parameterName_marked number index
    refine ⟨fun type inside => marked (rendered.access_unmarked whole inside), fun p member same => ?_⟩
    exact marked (same ▸ rendered.parameter_unmarked whole member)
  case accesses =>
    intro m method i member name type inside
    exact Emission.last_of_scope (rendered.in_scope whole method member inside)
  case defaults => exact fun m method p member name type => rendered.default_closed whole method member
  case arguments =>
    intro kind receiver owner name shape arguments inside
    obtain ⟨scope, expr, -, renders⟩ := rendered.source whole inside id
    exact renders.arity
  case calls =>
    intro receiver owner name shape arguments inside
    obtain ⟨scope, expr, there, renders⟩ := rendered.source whole inside id
    cases renders with
    | call target written span values own fits all =>
      obtain ⟨m, method, named, added⟩ := rendered.added whole own fits
      refine ⟨rfl, by rw [rendered.owner], scope, written, span, values, _, there, all, rfl, ?_,
        m, method, named, added⟩
      intro i member
      obtain ⟨p, left, given⟩ := List.mem_filterMap.mp member
      exact whole.literal target own p (List.mem_of_mem_drop left) i given
  case prints =>
    intro receiver owner name shape arguments inside
    obtain ⟨scope, expr, -, renders⟩ := rendered.source whole inside id
    cases renders with
    | print i =>
      refine ⟨?_, ⟨_, rfl⟩, rfl⟩
      cases i <;> simp [Intrinsic.streamMethod]

end Outline

/-! ## Resolved units -/

/-- Among units with different names, each that is resolved is declared as its tree says. -/
theorem Translation.conclusion_renders {t : Translation} {units : List SourceUnit} {schedule : List Turn}
    {capacity number : Nat} (distinct : (units.map SourceUnit.qualifiedName).Nodup)
    (within : ∀ turn ∈ schedule, turn.Within units)
    (reached : execute { session := .standard capacity number } schedule = some t) {c : Conclusion}
    (concluded : c ∈ t.conclusions) :
    ∃ unit ∈ units, Outline.read Toolchain.standard.grammar unit = .ok c.outline ∧
      ∃ declaration, c.result = .ok ⟨unit, declaration⟩ ∧
        c.outline.Renders (t.session.tables.accepted.references c.outline) declaration := by
  obtain ⟨orderly, kept⟩ := execute_kept capacity number reached
  have sourced : t.Sourced units :=
    execute_sourced (Session.standard_orderly capacity number)
      ⟨Session.standard_sourced capacity number, by simp⟩ within reached
  have origin : c.outline.From units :=
    sourced.started _ (List.mem_of_getElem? (kept.foreseen.recorded.concluded c concluded))
  have ⟨unit, inside, read⟩ := origin
  have rendered := Toolchain.declaration_renders orderly.accepted_plain (Toolchain.read_whole read)
    fun m registered => sourced.session.own distinct origin registered
  obtain ⟨result, -⟩ := kept.foreseen.declared _ orderly.accepted_plain (.refl _) c concluded
  refine ⟨unit, inside, read, _, result.trans ?_, rendered⟩
  rw [← Outline.read_unit read]
  rfl

/-- Among units with different names, whatever comes out of a pipeline is declared as its tree says. -/
theorem Pipeline.Foreseen.renders {settings : Settings} {input : List Input} {p : Pipeline}
    (foreseen : Foreseen settings input p) (collected : p.isFinished = true)
    (distinct : ((Input.accepted settings.inputErrors input).map SourceUnit.qualifiedName).Nodup)
    {c : CompiledUnit} (received : c ∈ p.received) :
    ∃ o, Outline.read Toolchain.standard.grammar c.declared.unit = .ok o ∧
      o.Renders (p.tables.accepted.references o) c.declared.declaration := by
  obtain ⟨among, o, read, declared⟩ := foreseen.declared collected received
  refine ⟨o, read, ?_⟩
  rw [declared]
  apply Toolchain.declaration_renders (foreseen.accepted_plain collected) (Toolchain.read_whole read)
  intro m registered
  obtain ⟨unit, inside, other, own, owner, method⟩ := foreseen.origin collected registered
  dsimp only at owner method
  obtain rfl := Outline.From.eq_of_owner distinct ⟨unit, inside, own⟩ ⟨_, among, read⟩ owner
  exact method

/-- Units with different names: declared and resolved in a session, in any order and with anything in
between, and compiled, whatever the schedule. What each resolve has come to, and what comes out for each
unit that can be compiled, is a declaration that can be relied on, whatever was reported. -/
theorem conclusions_well_formed (units : List SourceUnit)
    (distinct : (units.map SourceUnit.qualifiedName).Nodup) :
    (∀ capacity number schedule t,
      Translation.execute { session := .standard capacity number } schedule = some t →
      (∀ turn ∈ schedule, turn.Within units) →
      ∀ c ∈ t.conclusions, ∃ unit ∈ units,
        Outline.read Toolchain.standard.grammar unit = .ok c.outline ∧
        ∃ declaration, c.result = .ok ⟨unit, declaration⟩ ∧ declaration.WellFormed c.outline) ∧
    ∀ settings input schedule p,
      (Pipeline.start .standard settings input none).execute schedule = some p → p.isFinished = true →
      Input.accepted settings.inputErrors input = units →
      (p.received.map fun c => c.declared.unit).Perm (units.filter SourceUnit.compiles) ∧
      ∀ c ∈ p.received, ∃ o, Outline.read Toolchain.standard.grammar c.declared.unit = .ok o ∧
        c.declared.declaration.WellFormed o := by
  constructor
  · intro capacity number schedule t reached within c concluded
    obtain ⟨unit, inside, read, declaration, result, rendered⟩ :=
      Translation.conclusion_renders distinct within reached concluded
    exact ⟨unit, inside, read, declaration, result, rendered.wellFormed (Toolchain.read_whole read)⟩
  · rintro settings input schedule p ran collected rfl
    have foreseen := Pipeline.execute_foreseen ran
    refine ⟨foreseen.books.received collected, fun c received => ?_⟩
    obtain ⟨o, read, rendered⟩ := foreseen.renders collected distinct received
    exact ⟨o, read, rendered.wellFormed (Toolchain.read_whole read)⟩

/-- Two parameters of the first unit have one name, a default is left out inside a call that is printed,
and an argument has a fault. -/
def faulty : List SourceUnit :=
  [{ fileName := "A.firefly", relativePath := "m",
     content := .text
      "fn f(x: B, x: Int = 2) \x7b println(x, f(\"a\")) \x7d\nf(\"b\")\nprint(args, missing)" },
    { fileName := "B.firefly", relativePath := "m", content := .text "fn f(a: A) \x7b\x7d\nf(args)" }]

theorem faulty_well_formed :
    (∃ declared o, ((Session.standard 1 1).operateAll (Session.Operation.last faulty faulty[0])).resolves =
        [.done (.ok declared)] ∧
      ((Session.standard 1 1).operateAll (Session.Operation.last faulty faulty[0])).diagnostics.map Diagnostic.message =
        ["Could not resolve the variable 'missing'"] ∧
      declared.declaration.WellFormed o ∧
      declared.declaration.methods.map MethodDeclaration.body =
        [[.invoke .static none (.named "m.A") "f" ⟨.void, [.named "m.B", .int]⟩
            [.literal (.string "b"), .literal (.int 2)],
          .invoke .virtual (some (.stream .out)) printStream "print" ⟨.void, [.array .string]⟩
            [.access "args" (.array .string)]],
          [.invoke .virtual (some (.stream .out)) printStream "println" ⟨.void, [.int, .void]⟩
            [.access "x" .int, .invoke .static none (.named "m.A") "f" ⟨.void, [.named "m.B", .int]⟩
              [.literal (.string "a"), .literal (.int 2)]]]]) ∧
    ∃ schedule p, (Pipeline.start .standard {} (faulty.map .unit) none).execute schedule = some p ∧
      p.isFinished = true ∧ (p.received.map fun c => c.declared.unit).Perm faulty ∧
      ∀ c ∈ p.received, ∃ o, c.declared.declaration.WellFormed o := by
  have distinct : (faulty.map SourceUnit.qualifiedName).Nodup := by decide +kernel
  have ⟨told, done⟩ : ((Session.standard 1 1).operateAll
        (Session.Operation.last faulty faulty[0])).diagnostics.map Diagnostic.message =
      ["Could not resolve the variable 'missing'"] ∧
      ((Session.standard 1 1).operateAll (Session.Operation.last faulty faulty[0])).resolves.map
        (fun resolve => resolve.declared?.map fun declared =>
          declared.declaration.methods.map MethodDeclaration.body) =
      [some [[.invoke .static none (.named "m.A") "f" ⟨.void, [.named "m.B", .int]⟩
            [.literal (.string "b"), .literal (.int 2)],
          .invoke .virtual (some (.stream .out)) printStream "print" ⟨.void, [.array .string]⟩
            [.access "args" (.array .string)]],
          [.invoke .virtual (some (.stream .out)) printStream "println" ⟨.void, [.int, .void]⟩
            [.access "x" .int, .invoke .static none (.named "m.A") "f" ⟨.void, [.named "m.B", .int]⟩
              [.literal (.string "a"), .literal (.int 2)]]]]] := by
    decide +kernel
  have collected : (Pipeline.start .standard {} (faulty.map .unit) none).run.isFinished = true := by
    decide +kernel
  have compiles : faulty.filter SourceUnit.compiles = faulty := by decide +kernel
  obtain ⟨sessions, pipelines⟩ := conclusions_well_formed faulty distinct
  constructor
  · obtain ⟨declared, single, bodies⟩ := Session.exists_declared done
    obtain ⟨schedule, t, c, reached, within, -, -, concluded, result, -⟩ :=
      Translation.operateAll_single 1 1 single
    have units := Session.Operation.units_last (List.mem_cons_self : faulty[0] ∈ faulty)
    obtain ⟨unit, -, -, declaration, result', wellFormed⟩ :=
      sessions 1 1 schedule t reached (fun turn member => (within turn member).mono units) c concluded
    obtain rfl : declared = _ := Except.ok.inj (result.symm.trans result')
    exact ⟨_, c.outline, single, told, wellFormed, bodies⟩
  · obtain ⟨schedule, ran⟩ := Pipeline.run_execute (.start .standard {} (faulty.map .unit) none)
    obtain ⟨received, each⟩ := pipelines {} _ schedule _ ran collected (Input.accepted_units _ faulty).1
    rw [compiles] at received
    refine ⟨schedule, _, ran, collected, received, fun c member => ?_⟩
    obtain ⟨o, -, wellFormed⟩ := each c member
    exact ⟨o, wellFormed⟩

end UnitCompiler
