import UnitCompiler.Proofs.Emission

/-! How a declaration is put together. Every method is what emission makes of one function, parameter by
parameter and statement by statement, and no part depends on what was made before it. -/

namespace UnitCompiler

def References.annotated (r : References) : Option TypeName → TypeRef
  | none => .dynamic
  | some annotation => (r.type? annotation.name).getD .dynamic

namespace Emission

/-- Whatever was made before, a body is what emission makes of some statements, one after the other. -/
def Makes (s : Surroundings) (scope : Scope) (exprs : List Expr) (body : List Instruction) : Prop :=
  ∃ codes : List (List Instruction), body = codes.flatten ∧
    List.Forall₂ (fun e code => ∀ ledger, ((statement s scope e).run ledger).1 = code) exprs codes

end Emission

structure Function.MadeBy (s : Surroundings) (f : Function) (m : MethodDeclaration) : Prop where
  name : m.name = f.name
  returnType : m.returnType = .void
  parameters : List.Forall₂ (fun p made =>
    ∀ ledger, ((Emission.parameter s p).run ledger).1 = made) f.parameters m.parameters
  body : Emission.Makes s (Emission.scopeOf m.parameters) f.body m.body

/-- The entry point is made of the statements outside functions, the other methods of the functions. -/
def Outline.MadeBy (s : Surroundings) (o : Outline) (d : TypeDeclaration) : Prop :=
  ∃ body made, d.methods = { entrypoint with body } :: made ∧
    Emission.Makes s (Emission.scopeOf entrypoint.parameters) o.tree.statements body ∧
    List.Forall₂ (Function.MadeBy s) o.tree.functions made

/-- The methods of an outline are the entry point and one for each function of the tree, with no
defaults but literals. -/
structure Outline.Whole (o : Outline) : Prop where
  written : ∀ f ∈ o.tree.functions, Tree.Written f
  methods : o.methods =
    entrypoint :: o.tree.functions.map (skeleton o.tree.importTable o.unit.packageName)
  literal : ∀ target ∈ o.methods, ∀ p ∈ target.parameters, ∀ default, p.default = some default →
    ∃ value, default = .literal value

theorem Outline.ofTree_literal (unit : SourceUnit) (tree : UnitTree) :
    ∀ target ∈ (ofTree unit tree).methods, ∀ p ∈ target.parameters, ∀ default,
      p.default = some default → ∃ value, default = .literal value := by
  intro target member p inside default given
  rcases List.mem_cons.mp member with rfl | skeleton
  · cases List.mem_singleton.mp inside
    contradiction
  · obtain ⟨f, -, rfl⟩ := List.mem_map.mp skeleton
    obtain ⟨q, -, rfl⟩ := List.mem_map.mp inside
    obtain ⟨expr, -, literal⟩ := Option.bind_eq_some_iff.mp given
    cases expr with
    | literal value span => exact ⟨value, (Option.some.inj literal).symm⟩
    | null | name | call => contradiction

theorem Outline.ofTree_whole (unit : SourceUnit) {source : String} {tree : UnitTree}
    (parsed : UnitTree.parse source = .ok tree) : (ofTree unit tree).Whole :=
  ⟨UnitTree.parse_written parsed, rfl, ofTree_literal unit tree⟩

structure Param.Yields (s : Surroundings) (relation : Expr → Instruction → Prop) (p : Param)
    (made : Parameter) : Prop where
  name : made.name = p.name
  type : made.type = s.references.annotated p.type
  unwritten : p.default = none → made.default = none
  written : ∀ e, p.default = some e →
    Emission.Valued relation (s.lexicon.findings (e.sites [])) e made.default

namespace Emission

variable {s : Surroundings} {scope : Scope} {relation : Expr → Instruction → Prop}

theorem statements_emits (ordinary : s.Ordinary) (unmarked : scope.Unmarked) (exprs : List Expr) :
    Emits (s.lexicon.findings (exprs.flatMap (Expr.sites scope.names))) (Makes s scope exprs)
      (statements s scope exprs) := by
  induction exprs with
  | nil => exact .pure ⟨[], rfl, .nil⟩
  | cons e rest ih =>
    rw [List.flatMap_cons, Lexicon.findings_append]
    refine (statement_emits ordinary unmarked closed_true e).always.bind fun first ⟨always, _⟩ => ?_
    refine ih.map fun others ⟨codes, same, all⟩ => ⟨first :: codes, ?_, .cons always all⟩
    rw [List.flatten_cons, same]

theorem parameterType_emits (written : Option TypeName) :
    Emits (s.lexicon.findings (written.toList.map .type)) (· = s.references.annotated written)
      (parameterType s written) := by
  cases written with
  | none => exact .pure rfl
  | some name =>
    unfold parameterType References.annotated
    dsimp only
    cases looked : s.references.type? name.name with
    | some type =>
      have fine : s.lexicon.findings ((some name).toList.map .type) = [] := by
        simp [Lexicon.findings, Lexicon.finding?, Surroundings.lexicon, looked]
      rw [fine]
      exact .pure rfl
    | none =>
      have wrong : s.lexicon.findings ((some name).toList.map .type) =
          [⟨name.span, .unknownType name.name⟩] := by
        simp [Lexicon.findings, Lexicon.finding?, Surroundings.lexicon, looked]
      rw [wrong]
      exact .instead _ _ rfl

theorem parameter_emits (ordinary : s.Ordinary) (closed : Closed s [] relation) (p : Param) :
    Emits (s.lexicon.findings p.sites) (p.Yields s relation) (parameter s p) := by
  rw [Param.sites, Lexicon.findings_append]
  refine (parameterType_emits p.type).bind fun type looked => ?_
  cases written : p.default with
  | none => exact Emits.pure ⟨rfl, looked, fun _ => rfl, fun e same => by simp [written] at same⟩
  | some e =>
    rw [Option.toList, List.flatMap_singleton]
    apply (value_emits ordinary (by simp [Scope.Unmarked]) closed e).map
    intro result own
    refine ⟨rfl, looked, fun same => by simp [written] at same, fun other same => ?_⟩
    obtain rfl : e = other := Option.some.inj (written.symm.trans same)
    exact own

/-- A parameter that does not depend on what was made before is what comes of it. -/
theorem yields_of_made (ordinary : s.Ordinary) (closed : Closed s [] relation) {p : Param}
    {made : Parameter} (always : ∀ ledger, ((parameter s p).run ledger).1 = made) :
    p.Yields s relation made :=
  always {} ▸ ((parameter_emits ordinary closed p).run {}).1

theorem parameters_emits (ordinary : s.Ordinary) (ps : List Param) :
    Emits (s.lexicon.findings (ps.flatMap Param.sites))
      (List.Forall₂ (fun p made => ∀ ledger, ((parameter s p).run ledger).1 = made) ps)
      (parameters s ps) := by
  induction ps with
  | nil => exact .pure .nil
  | cons p rest ih =>
    rw [List.flatMap_cons, Lexicon.findings_append]
    refine (parameter_emits ordinary closed_true p).always.bind fun made ⟨always, _⟩ => ?_
    exact ih.map fun others more => .cons always more

theorem scopeOf_names (ordinary : s.Ordinary) {ps : List Param} {made : List Parameter}
    (all : List.Forall₂ (fun p made => ∀ ledger, ((parameter s p).run ledger).1 = made) ps made) :
    (scopeOf made).names = ps.map Param.name := by
  induction all with
  | nil => rfl
  | cons first rest ih =>
    exact congr (congrArg List.cons (yields_of_made ordinary closed_true first).name) ih

theorem scope_unmarked {f : Function} (written : Tree.Written f)
    (names : scope.names = f.parameters.map Param.name) : scope.Unmarked := by
  intro entry member
  have named : entry.1 ∈ f.parameters.map Param.name := names ▸ List.mem_map_of_mem member
  obtain ⟨p, given, same⟩ := List.mem_map.mp named
  exact same ▸ written p given

theorem entrypoint_unmarked : (scopeOf Outline.entrypoint.parameters).Unmarked := by
  simp [Scope.Unmarked, scopeOf, Outline.entrypoint, Unmarked]

theorem method_emits (ordinary : s.Ordinary) {f : Function} (written : Tree.Written f)
    (imports : List Import) (package : String) :
    Emits (s.lexicon.findings f.sites) (f.MadeBy s)
      (method s f (Outline.skeleton imports package f)) := by
  rw [Function.sites, Lexicon.findings_append]
  apply (parameters_emits ordinary f.parameters).bind
  intro made parameters
  have names := scopeOf_names ordinary parameters
  rw [← names]
  apply (statements_emits ordinary (scope_unmarked written names) f.body).map
  intro body own
  exact ⟨rfl, rfl, parameters, own⟩

theorem methods_emits (ordinary : s.Ordinary) {functions : List Function}
    (written : ∀ f ∈ functions, Tree.Written f) (imports : List Import) (package : String) :
    Emits (s.lexicon.findings (functions.flatMap Function.sites))
      (List.Forall₂ (Function.MadeBy s) functions)
      (methods s (functions.zip (functions.map (Outline.skeleton imports package)))) := by
  induction functions with
  | nil => exact .pure .nil
  | cons f rest ih =>
    rw [List.forall_mem_cons] at written
    rw [List.flatMap_cons, Lexicon.findings_append]
    refine (method_emits ordinary written.1 imports package).bind fun first own => ?_
    exact (ih written.2).map fun others more => .cons own more

/-- The findings about a unit are those of its tree. -/
theorem typeDeclaration_emits {o : Outline} (whole : o.Whole) {references : References}
    (known : references.Plain) :
    let s : Surroundings := ⟨o.owner, references, Inlining.inline⟩
    Emits (s.lexicon.findings o.tree.sites)
      (fun d => d.qualifiedName = o.owner ∧ d.constructors = [hiddenConstructor] ∧ o.MadeBy s d)
      (typeDeclaration Inlining.inline references o) := by
  intro s
  have ordinary : s.Ordinary := ⟨rfl, known⟩
  have all : Emits (s.lexicon.findings o.tree.sites) (fun methods => ∃ body made,
      methods = { Outline.entrypoint with body } :: made ∧
      Makes s (scopeOf Outline.entrypoint.parameters) o.tree.statements body ∧
      List.Forall₂ (Function.MadeBy s) o.tree.functions made) (allMethods s o) := by
    rw [UnitTree.sites, Lexicon.findings_append, allMethods, whole.methods]
    refine (statements_emits ordinary entrypoint_unmarked o.tree.statements).bind fun body own => ?_
    exact (methods_emits ordinary whole.written _ _).map fun made more => ⟨body, made, rfl, own, more⟩
  -- The name is not to be unfolded.
  exact all.map fun methods made => ⟨by dsimp only, rfl, made⟩

end Emission

/-- The declaration of a unit and its diagnostics do not depend on the number of the first instance. -/
theorem Outline.emit_number {o : Outline} (whole : o.Whole) {references : References}
    (known : references.Plain) (first second : Nat) :
    (o.emit Inlining.inline first references).1 = (o.emit Inlining.inline second references).1 ∧
      (o.emit Inlining.inline first references).2.1 =
        (o.emit Inlining.inline second references).2.1 := by
  obtain ⟨declaration, -, runs⟩ := Emission.typeDeclaration_emits whole known
  obtain ⟨_, one⟩ := runs { instances := first }
  obtain ⟨_, other⟩ := runs { instances := second }
  unfold emit
  rw [one, other]
  exact ⟨rfl, rfl⟩

end UnitCompiler
