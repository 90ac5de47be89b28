import UnitCompiler.Proofs.CatalogueReferences
import UnitCompiler.Proofs.InstructionParts

/-! What the code of a unit is made of. Every instruction stands for an expression of the tree: a
variable for one in scope, an invocation for a call of a printing function or of a method of the unit
itself. -/

namespace UnitCompiler

theorem exists_of_forall₂ {α β : Type} {related : α → β → Prop} {left : List α} {right : List β}
    (all : List.Forall₂ related left right) {item : β} (member : item ∈ right) :
    ∃ other ∈ left, related other item := by
  induction all with
  | nil => contradiction
  | cons first rest ih =>
    rcases List.mem_cons.mp member with rfl | later
    · exact ⟨_, List.mem_cons_self, first⟩
    · obtain ⟨other, inside, holds⟩ := ih later
      exact ⟨other, List.mem_cons_of_mem _ inside, holds⟩

namespace Expr

mutual

def parts : Expr → List Expr
  | .literal value span => [.literal value span]
  | .null span => [.null span]
  | .name identifier span => [.name identifier span]
  | .call function arguments span => .call function arguments span :: partsAll arguments

def partsAll : List Expr → List Expr
  | [] => []
  | expr :: rest => expr.parts ++ partsAll rest

end

theorem partsAll_eq (exprs : List Expr) : partsAll exprs = exprs.flatMap parts := by
  induction exprs with
  | nil => rfl
  | cons first rest ih => rw [partsAll, ih, List.flatMap_cons]

inductive Renders (o : Outline) (scope : Scope) : Expr → Instruction → Prop where
  | literal (value : Literal) (span : Span) : Renders o scope (.literal value span) (.literal value)
  | name (name : String) (span : Span) (type : TypeRef) (known : scope.type? name = some type) :
      Renders o scope (.name name span) (.access name type)
  /-- A printing function prints those of its arguments that have a value. -/
  | print (i : Intrinsic) (name : String) (arguments kept : List Expr) (span : Span)
      (values : List Instruction) (intrinsic : Intrinsic.ofName? name = some i)
      (among : kept.Sublist arguments) (rendered : List.Forall₂ (Renders o scope) kept values) :
      Renders o scope (.call name arguments span)
        (.invoke .virtual (some (.stream i.stream)) printStream i.streamMethod
          ⟨.void, values.map Instruction.typeRef⟩ values)
  /-- A method of the unit gets a value for each argument, and the defaults of other parameters. -/
  | call (target : MethodDeclaration) (arguments : List Expr) (span : Span)
      (values : List Instruction) (own : target ∈ o.methods)
      (fits : (CallForm.accepting arguments.length).fits target.parameters = true)
      (rendered : List.Forall₂ (Renders o scope) arguments values) :
      Renders o scope (.call target.name arguments span)
        (.invoke .static none (.named o.owner) target.name target.shape
          (values ++ (target.parameters.drop arguments.length).filterMap Parameter.default))

end Expr

def Instruction.IsConstant : Instruction → Prop
  | .literal _ | .stream _ => True
  | .declare _ _ _ | .access _ _ | .invoke _ _ _ _ _ _ => False

theorem Outline.Whole.static {o : Outline} (whole : o.Whole) {target : MethodDeclaration}
    (own : target ∈ o.methods) : target.isStatic = true := by
  rw [whole.methods, List.mem_cons, List.mem_map] at own
  rcases own with rfl | ⟨f, -, rfl⟩
  · rfl
  · rfl

namespace Expr

variable {o : Outline} {scope : Scope}

mutual

/-- Whatever stands inside the instruction of an expression is constant, or is itself the instruction of
a part of the expression. -/
theorem origin_of_renders (whole : o.Whole) : (expr : Expr) → ∀ i, expr.Renders o scope i →
    ∀ part ∈ i.parts, part.IsConstant ∨ ∃ e ∈ expr.parts, e.Renders o scope part
  | .literal value span, _, .literal _ _, part, inside => by
    rw [List.mem_singleton.mp inside]
    exact .inl trivial
  | .name identifier span, _, .name _ _ type known, part, inside => by
    rw [List.mem_singleton.mp inside]
    exact .inr ⟨_, List.mem_singleton_self _, .name identifier span type known⟩
  | .call function arguments span, i, rendered, part, inside => by
    have deeper (exprs : List Expr) (subset : exprs ⊆ arguments) (values : List Instruction)
        (all : List.Forall₂ (Renders o scope) exprs values)
        (inner : part ∈ Instruction.partsAll values) :
        part.IsConstant ∨ ∃ e ∈ parts (.call function arguments span), e.Renders o scope part := by
      rw [Instruction.partsAll_eq, List.mem_flatMap] at inner
      obtain ⟨value, member, inner⟩ := inner
      obtain ⟨e, there, own⟩ := exists_of_forall₂ all member
      refine (originAll_of_renders whole arguments e (subset there) value own part inner).imp_right ?_
      rintro ⟨inner, inside, own⟩
      refine ⟨inner, List.mem_cons_of_mem _ ?_, own⟩
      rw [partsAll_eq]
      exact List.mem_flatMap_of_mem (subset there) inside
    cases rendered with
    | print intrinsic _ _ kept _ values known among all =>
      rw [Instruction.parts, List.mem_cons, List.mem_append] at inside
      rcases inside with rfl | receiver | inner
      · exact .inr ⟨_, List.mem_cons_self, .print intrinsic function arguments kept span values known among all⟩
      · rw [List.mem_singleton.mp receiver]
        exact .inl trivial
      · exact deeper kept among.subset values all inner
    | call target _ _ values own fits all =>
      rw [Instruction.parts, List.mem_cons, List.mem_append] at inside
      rcases inside with rfl | receiver | inner
      · exact .inr ⟨_, List.mem_cons_self, .call target arguments span values own fits all⟩
      · contradiction
      · rw [Instruction.partsAll_eq, List.flatMap_append, List.mem_append,
          ← Instruction.partsAll_eq] at inner
        rcases inner with given | added
        · exact deeper arguments (List.Subset.refl _) values all given
        · obtain ⟨default, member, inner⟩ := List.mem_flatMap.mp added
          obtain ⟨p, left, given⟩ := List.mem_filterMap.mp member
          obtain ⟨value, rfl⟩ := whole.literal target own p (List.mem_of_mem_drop left) default given
          rw [List.mem_singleton.mp inner]
          exact .inl trivial

theorem originAll_of_renders (whole : o.Whole) : (exprs : List Expr) → ∀ expr ∈ exprs,
    ∀ i, expr.Renders o scope i →
      ∀ part ∈ i.parts, part.IsConstant ∨ ∃ e ∈ expr.parts, e.Renders o scope part
  | [] => nofun
  | first :: rest =>
    List.forall_mem_cons.mpr ⟨origin_of_renders whole first, originAll_of_renders whole rest⟩

end

end Expr

/-! ## What emission makes -/

/-- A parameter of the tree becomes a parameter of the same name. No variable is in scope in its
default, and a literal stays what it is. -/
structure Param.Renders (o : Outline) (references : References) (p : Param) (made : Parameter) :
    Prop where
  name : made.name = p.name
  type : made.type = references.annotated p.type
  default : ∀ i, made.default = some i → ∃ expr, p.default = some expr ∧ expr.Renders o [] i
  literal : ∀ i, p.default.bind Outline.literal? = some i → made.default = some i

structure Function.Renders (o : Outline) (references : References) (f : Function)
    (m : MethodDeclaration) : Prop where
  name : m.name = f.name
  returnType : m.returnType = .void
  parameters : List.Forall₂ (Param.Renders o references) f.parameters m.parameters
  body : ∀ i ∈ m.body, ∃ expr ∈ f.body, expr.Renders o (Emission.scopeOf m.parameters) i

structure Outline.Renders (o : Outline) (references : References) (d : TypeDeclaration) : Prop where
  owner : d.qualifiedName = o.owner
  constructors : d.constructors = [Emission.hiddenConstructor]
  methods : ∃ body made, d.methods = { entrypoint with body } :: made ∧
    (∀ i ∈ body, ∃ expr ∈ o.tree.statements,
      expr.Renders o (Emission.scopeOf entrypoint.parameters) i) ∧
    List.Forall₂ (Function.Renders o references) o.tree.functions made

structure Surroundings.Serves (s : Surroundings) (o : Outline) : Prop where
  ordinary : s.Ordinary
  owner : s.owner = o.owner
  found : ∀ call target, s.references.method? call = some target →
    target ∈ o.methods ∧ target.name = call.name ∧
      (CallForm.accepting call.arity).fits target.parameters = true
  static : ∀ {target}, target ∈ o.methods → target.isStatic = true

variable {s : Surroundings} {o : Outline} {scope : Scope}

/-- What emission makes renders the tree. -/
theorem Expr.renders_closed (serves : s.Serves o) (scope : Scope) :
    Emission.Closed s scope (Expr.Renders o scope) where
  literal := .literal
  name {name} span {type} known := .name name span type known
  print {i name arguments kept} span {values} intrinsic among all :=
    .print i name arguments kept span values intrinsic among all
  call {target name arguments} span {values} known all := by
    obtain ⟨own, rfl, fits⟩ := serves.found _ target known
    rw [Emission.invocation, serves.static own, serves.owner, ← all.length_eq]
    exact .call target arguments span values own fits all

theorem Emission.Makes.renders (serves : s.Serves o) (unmarked : scope.Unmarked) {exprs : List Expr}
    {body : List Instruction} (makes : Makes s scope exprs body) :
    ∀ i ∈ body, ∃ expr ∈ exprs, expr.Renders o scope i := by
  obtain ⟨codes, rfl, all⟩ := makes
  intro i member
  obtain ⟨code, there, inside⟩ := List.mem_flatten.mp member
  obtain ⟨e, among, always⟩ := exists_of_forall₂ all there
  have closed := Expr.renders_closed serves scope
  obtain ⟨⟨one, same, valued⟩, -⟩ := (statement_emits serves.ordinary unmarked closed e).run {}
  rw [always] at same
  exact ⟨e, among, valued.related i (Option.mem_toList.mp (same ▸ inside))⟩

/-- A literal has no finding, so it is there. -/
theorem Param.Yields.renders {p : Param} {made : Parameter}
    (yields : p.Yields s (Expr.Renders o []) made) : p.Renders o s.references made where
  name := yields.name
  type := yields.type
  default i given := by
    cases written : p.default with
    | none => simp [yields.unwritten written] at given
    | some e => exact ⟨e, rfl, (yields.written e written).related i given⟩
  literal i known := by
    obtain ⟨e, written, literal⟩ := Option.bind_eq_some_iff.mp known
    have valued := yields.written e written
    cases e with
    | literal value span =>
      cases literal
      cases given : made.default with
      | none => exact absurd rfl (valued.missing given)
      | some j =>
        cases valued.related j given
        rfl
    | null | name | call => contradiction

theorem Function.MadeBy.renders (serves : s.Serves o) {f : Function} (written : Tree.Written f)
    {m : MethodDeclaration} (made : f.MadeBy s m) : f.Renders o s.references m where
  name := made.name
  returnType := made.returnType
  parameters := made.parameters.imp fun _ _ always =>
    (Emission.yields_of_made serves.ordinary (Expr.renders_closed serves []) always).renders
  body :=
    have names := Emission.scopeOf_names serves.ordinary made.parameters
    made.body.renders serves (Emission.scope_unmarked written names)

theorem renders_unmarked {references : References} {f : Function} (written : Tree.Written f)
    {made : List Parameter}
    (rendered : List.Forall₂ (Param.Renders o references) f.parameters made) :
    ∀ p ∈ made, Unmarked p.name := by
  intro p member
  obtain ⟨source, inside, own⟩ := exists_of_forall₂ rendered member
  rw [own.name]
  exact written source inside

def Catalogue.surroundings (catalogue : Catalogue) (o : Outline) : Surroundings :=
  ⟨o.owner, catalogue.references o, Inlining.inline⟩

namespace Toolchain

variable {catalogue : Catalogue} {unit : SourceUnit}

theorem surroundings_ordinary (plain : catalogue.Plain) (o : Outline) :
    (catalogue.surroundings o).Ordinary :=
  ⟨rfl, Catalogue.references_plain plain o⟩

/-- The diagnostics about a unit are the findings of its tree, and its declaration is what emission
makes of the tree. -/
theorem declaration_emitted (plain : catalogue.Plain) (whole : o.Whole) :
    (standard.declaration catalogue o).2 =
        ((catalogue.surroundings o).lexicon.findings o.tree.sites).map
          (fun f => .ofFault o.unit f.span f.fault) ∧
      (standard.declaration catalogue o).1.declaration.qualifiedName = o.owner ∧
      (standard.declaration catalogue o).1.declaration.constructors = [Emission.hiddenConstructor] ∧
      o.MadeBy (catalogue.surroundings o) (standard.declaration catalogue o).1.declaration := by
  have emits := Emission.typeDeclaration_emits whole (Catalogue.references_plain plain o)
  obtain ⟨made, found⟩ := emits.run { instances := 1 }
  rw [List.nil_append] at found
  exact ⟨congrArg (List.map _) found, made⟩

theorem declaration_made (plain : catalogue.Plain) (read : Outline.read standard.grammar unit = .ok o) :
    o.MadeBy (catalogue.surroundings o) (standard.declaration catalogue o).1.declaration :=
  (declaration_emitted plain (read_whole read)).2.2.2

/-- A unit that finds no methods but its own is declared as its tree says. -/
theorem declaration_renders (plain : catalogue.Plain) (whole : o.Whole)
    (own : ∀ m, (o.owner, m) ∈ catalogue.methods → m ∈ o.methods) :
    o.Renders (catalogue.references o) (standard.declaration catalogue o).1.declaration := by
  have serves : (catalogue.surroundings o).Serves o := by
    refine ⟨surroundings_ordinary plain o, by rw [Catalogue.surroundings], fun call target known => ?_,
      whole.static⟩
    obtain ⟨registered, accepts⟩ := Log.exists_of_first? (Catalogue.references_method known)
    rw [Signature.ofMethod, Bool.and_eq_true, beq_iff_eq] at accepts
    exact ⟨own target registered, accepts⟩
  obtain ⟨-, owner, constructors, body, made, all, statements, functions⟩ :=
    declaration_emitted plain whole
  refine ⟨owner, constructors, body, made, all,
    statements.renders serves Emission.entrypoint_unmarked, ?_⟩
  have each := (List.forall₂_and_left o.tree.functions made).mpr ⟨whole.written, functions⟩
  exact each.imp fun f m ⟨written, made⟩ => made.renders serves written

end Toolchain

end UnitCompiler
