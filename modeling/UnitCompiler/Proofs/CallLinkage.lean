import UnitCompiler.Proofs.DeclarationWellFormed

/-! Whether the shape in a call is that of a declared method. A call takes the shape from the outline,
where the first candidate stands for the type of a parameter; the method gets the first candidate that
is declared. The two are the same just if the types in the shape are declared. -/

namespace UnitCompiler

theorem lookup_map_self {α β : Type} [DecidableEq α] {f : α → β} {keys : List α} {key : α}
    (member : key ∈ keys) : (keys.map fun other => (other, f other)).lookup key = some (f key) := by
  induction keys with
  | nil => contradiction
  | cons first rest ih =>
    rw [List.map_cons, List.lookup_cons]
    by_cases same : key = first
    · simp [same]
    · rw [beq_eq_false_iff_ne.mpr same]
      exact ih (List.mem_of_ne_of_mem same member)

/-- No built-in type is a declared one. -/
theorem builtInType_ne_named (name type : String) : builtInType name ≠ some (.named type) := by
  unfold builtInType
  split <;> simp

/-- Built-in types come before those that were looked up. -/
theorem References.type?_eq (r : References) (name : String) :
    r.type? name = (builtInType name).or (r.types.lookup name).join := by
  delta References.type?
  cases builtInType name <;> rfl

theorem Outline.guessType_some (imports : List Import) (package : String) (written : TypeName) :
    guessType imports package (some written) = (builtInType written.name).getD
      (((Import.typeCandidates imports package written.name).head?.map TypeRef.named).getD .dynamic) := by
  delta guessType
  dsimp only
  cases builtInType written.name with
  | some type => rfl
  | none => cases Import.typeCandidates imports package written.name <;> rfl

/-- The type that a name stands for in a unit: the first of its candidates that is declared. -/
def Catalogue.type? (catalogue : Catalogue) (o : Outline) (name : String) : Option TypeRef :=
  ((Import.typeCandidates o.tree.importTable o.unit.packageName name).findSome?
    (catalogue.meaning o.owner).type).map fun d => .named d.qualifiedName

namespace Catalogue

variable {o : Outline} {catalogue : Catalogue} {f : Function} {p : Param} {type : String}

theorem references_types (catalogue : Catalogue) (o : Outline) :
    (catalogue.references o).types =
      o.tree.annotations.map fun name => (name, catalogue.type? o name) := by
  simp [references, Inquiry.complete, Inquiry.ofOutline, Meaning.types, type?]

theorem references_type (function : f ∈ o.tree.functions) (parameter : p ∈ f.parameters)
    {written : TypeName} (typed : p.type = some written) (other : builtInType written.name = none) :
    (catalogue.references o).type? written.name = catalogue.type? o written.name := by
  have asked : written.name ∈ o.tree.annotations := by
    rw [UnitTree.annotations, List.mem_eraseDups, List.mem_filter, List.mem_flatMap]
    have named : p.type.map TypeName.name = some written.name := by rw [typed, Option.map_some]
    exact ⟨⟨f, function, List.mem_filterMap.mpr ⟨p, parameter, named⟩⟩, by rw [other]; rfl⟩
  rw [References.type?_eq, other, references_types, lookup_map_self asked]
  rfl

/-- A candidate that is declared is found under its own name. -/
theorem meaning_type {owner candidate : String} {d : TypeDeclaration}
    (found : (catalogue.meaning owner).type candidate = some d) : d.qualifiedName = candidate := by
  obtain ⟨-, accepts⟩ := Log.exists_of_first? found
  exact eq_of_beq accepts

/-- A type that was looked up is declared. -/
theorem declared_of_annotated (function : f ∈ o.tree.functions) (parameter : p ∈ f.parameters)
    (found : (catalogue.references o).annotated p.type = .named type) :
    (catalogue.meaning o.owner).type type ≠ none := by
  cases typed : p.type with
  | none => simp [typed, References.annotated] at found
  | some written =>
    rw [typed, References.annotated] at found
    cases known : builtInType written.name with
    | some builtIn =>
      have same : builtIn = .named type := by
        simpa [References.type?_eq, known] using found
      exact absurd (same ▸ known) (builtInType_ne_named _ _)
    | none =>
      rw [references_type function parameter typed known, type?] at found
      cases first : (Import.typeCandidates o.tree.importTable o.unit.packageName
          written.name).findSome? (catalogue.meaning o.owner).type with
      | none => simp [first] at found
      | some d =>
        obtain ⟨candidate, -, declares⟩ := List.exists_of_findSome?_eq_some first
        have named := meaning_type declares
        have same : d.qualifiedName = type := by simpa [first] using found
        rw [← same, named, declares]
        simp

/-- The type that an outline has for a parameter is the one looked up, or it is not declared. -/
theorem guess_or_undeclared (function : f ∈ o.tree.functions) (parameter : p ∈ f.parameters) :
    Outline.guessType o.tree.importTable o.unit.packageName p.type =
        (catalogue.references o).annotated p.type ∨
      ∃ type, Outline.guessType o.tree.importTable o.unit.packageName p.type = .named type ∧
        (catalogue.meaning o.owner).type type = none := by
  cases typed : p.type with
  | none => exact .inl rfl
  | some written =>
    rw [References.annotated, Outline.guessType_some]
    cases known : builtInType written.name with
    | some builtIn => exact .inl (by simp [References.type?_eq, known])
    | none =>
      rw [references_type function parameter typed known, type?]
      cases candidates : Import.typeCandidates o.tree.importTable o.unit.packageName written.name with
      | nil => exact absurd candidates (Import.typeCandidates_ne_nil _ _ _)
      | cons candidate others =>
        cases declares : (catalogue.meaning o.owner).type candidate with
        | none => exact .inr ⟨candidate, rfl, declares⟩
        | some d => exact .inl (by simp [declares, meaning_type declares])

end Catalogue

theorem Tables.declares_iff (t : Tables) (owner type : String) :
    t.Declares [type] ↔ (t.accepted.meaning owner).type type ≠ none := by
  constructor
  · exact Declares.first?
  · intro found
    obtain ⟨d, known⟩ := Option.ne_none_iff_exists'.mp found
    exact .of_first? known

structure TypeDeclaration.Links (declares : String → Prop) (d : TypeDeclaration) : Prop where
  /-- A call has the shape of a method of its name just if the types in that shape are declared. -/
  linked : ∀ receiver owner name shape arguments,
    .invoke .static receiver owner name shape arguments ∈ d.parts →
    ((∃ m ∈ d.methods, m.name = name ∧ m.shape = shape) ↔
      ∀ type, .named type ∈ shape.parameterTypes → declares type)
  /-- In any case there is a method of that name with as many parameters, whose types are those in the
  call but for the ones that are not declared. -/
  counterpart : ∀ receiver owner name shape arguments,
    .invoke .static receiver owner name shape arguments ∈ d.parts →
    ∃ m ∈ d.methods, m.name = name ∧ m.returnType = shape.returnType ∧
      List.Forall₂ (fun guess found => guess = found ∨ ∃ type, guess = .named type ∧ ¬ declares type)
        shape.parameterTypes m.shape.parameterTypes

namespace Outline

variable {o : Outline} {tables : Tables} {d : TypeDeclaration}

/-- The types in the methods of a declaration are declared. -/
theorem Renders.declares (rendered : o.Renders (tables.accepted.references o) d) {m : MethodDeclaration}
    (method : m ∈ d.methods) {type : String} (named : .named type ∈ m.shape.parameterTypes) :
    tables.Declares [type] := by
  obtain ⟨body, made, all, -, functions⟩ := rendered.methods
  rw [all, List.mem_cons] at method
  rcases method with rfl | later
  · simp [MethodDeclaration.shape, entrypoint] at named
  · obtain ⟨f, function, renders⟩ := exists_of_forall₂ functions later
    obtain ⟨parameter, inside, typed⟩ := List.mem_map.mp named
    obtain ⟨p, source, own⟩ := exists_of_forall₂ renders.parameters inside
    rw [tables.declares_iff o.owner]
    exact Catalogue.declared_of_annotated function source (own.type.symm.trans typed)

/-- A method of the outline is declared with the types that it has there, up to those that are not
declared. -/
theorem Renders.links (rendered : o.Renders (tables.accepted.references o) d) (whole : o.Whole)
    {target : MethodDeclaration} (own : target ∈ o.methods) :
    ∃ m ∈ d.methods, m.name = target.name ∧ m.returnType = target.returnType ∧
      List.Forall₂ (fun guess found => guess = found ∨
          ∃ type, guess = .named type ∧ ¬ tables.Declares [type])
        target.shape.parameterTypes m.shape.parameterTypes := by
  rcases rendered.counterpart whole own with
    ⟨body, rfl, member⟩ | ⟨f, function, rfl, m, member, renders⟩
  · exact ⟨_, member, rfl, rfl, List.forall₂_same.mpr fun _ _ => .inl rfl⟩
  · refine ⟨m, member, renders.name, renders.returnType, ?_⟩
    rw [MethodDeclaration.shape, MethodDeclaration.shape, skeleton, List.map_map,
      List.forall₂_map_left_iff, List.forall₂_map_right_iff]
    have inside : List.Forall₂ (fun p made => p ∈ f.parameters ∧ Param.Renders o _ p made) f.parameters
        m.parameters := (List.forall₂_and_left _ _).mpr ⟨fun _ member => member, renders.parameters⟩
    apply inside.imp
    rintro p made ⟨source, own⟩
    rw [own.type]
    apply (Catalogue.guess_or_undeclared function source).imp_right
    rintro ⟨type, guess, absent⟩
    refine ⟨type, guess, ?_⟩
    rw [tables.declares_iff o.owner, absent]
    simp

/-- A method of the outline is declared with the shape that it has there just if the types in that shape
are declared. -/
theorem Renders.linked_iff (rendered : o.Renders (tables.accepted.references o) d) (whole : o.Whole)
    {target : MethodDeclaration} (own : target ∈ o.methods) :
    (∃ m ∈ d.methods, m.name = target.name ∧ m.shape = target.shape) ↔
      ∀ type, .named type ∈ target.shape.parameterTypes → tables.Declares [type] := by
  constructor
  · rintro ⟨m, method, -, same⟩ type there
    exact rendered.declares method (same ▸ there)
  · intro declares
    obtain ⟨m, method, named, returns, types⟩ := rendered.links whole own
    refine ⟨m, method, named, ?_⟩
    -- Nothing is left in which the two could differ.
    have same : target.shape.parameterTypes = m.shape.parameterTypes := by
      rw [← List.forall₂_eq_eq_eq]
      apply ((List.forall₂_and_left _ _).mpr ⟨fun _ member => member, types⟩).imp
      rintro guess found ⟨there, equal | ⟨type, rfl, absent⟩⟩
      · exact equal
      · exact absurd (declares type there) absent
    rw [MethodDeclaration.shape, Shape.mk.injEq]
    exact ⟨returns, same.symm⟩

/-- Every call is one of a method of the outline. -/
theorem Renders.linked (rendered : o.Renders (tables.accepted.references o) d) (whole : o.Whole) :
    d.Links fun type => tables.Declares [type] := by
  have target {receiver owner name shape arguments}
      (inside : .invoke .static receiver owner name shape arguments ∈ d.parts) :
      ∃ target ∈ o.methods, target.name = name ∧ target.shape = shape := by
    obtain ⟨scope, expr, -, renders⟩ := rendered.source whole inside id
    cases renders with
    | call target written span values own fits all => exact ⟨target, own, rfl, rfl⟩
  constructor
  · intro receiver owner name shape arguments inside
    obtain ⟨method, own, rfl, rfl⟩ := target inside
    exact rendered.linked_iff whole own
  · intro receiver owner name shape arguments inside
    obtain ⟨method, own, rfl, rfl⟩ := target inside
    exact rendered.links whole own

end Outline

/-- Units with different names: declared and resolved in a session, in any order and with anything in
between, and compiled, whatever the schedule. A call in what a resolve has come to, or in what comes out,
has the shape of a declared method just if the types in that shape are declared. -/
theorem calls_linked_iff_declared (units : List SourceUnit)
    (distinct : (units.map SourceUnit.qualifiedName).Nodup) :
    (∀ capacity number schedule t,
      Translation.execute { session := .standard capacity number } schedule = some t →
      (∀ turn ∈ schedule, turn.Within units) →
      ∀ c ∈ t.conclusions, ∃ declared, c.result = .ok declared ∧
        declared.declaration.Links fun type => t.session.tables.Declares [type]) ∧
    ∀ settings input schedule p,
      (Pipeline.start .standard settings input none).execute schedule = some p → p.isFinished = true →
      Input.accepted settings.inputErrors input = units →
      ∀ c ∈ p.received, c.declared.declaration.Links fun type =>
        ∃ unit ∈ units, unit.parses = true ∧ unit.qualifiedName = type := by
  constructor
  · intro capacity number schedule t reached within c concluded
    obtain ⟨unit, -, read, declaration, result, rendered⟩ :=
      Translation.conclusion_renders distinct within reached concluded
    exact ⟨_, result, rendered.linked (Toolchain.read_whole read)⟩
  · rintro settings input schedule p ran collected rfl c received
    have foreseen := Pipeline.execute_foreseen ran
    obtain ⟨o, read, rendered⟩ := foreseen.renders collected distinct received
    simpa only [foreseen.declares_iff collected] using rendered.linked (Toolchain.read_whole read)

/-- A function takes values of the types that its own unit and another one declare. -/
def reflexive : List SourceUnit :=
  [{ fileName := "A.firefly", relativePath := "m", content := .text "fn f(a: A, b: B) \x7b\x7d\nf(1, 2)" },
    { fileName := "B.firefly", relativePath := "m", content := .text "" }]

theorem reflexive_linked :
    (∃ declared, ((Session.standard 1 1).operateAll (Session.Operation.last reflexive reflexive[0])).resolves =
        [.done (.ok declared)] ∧
      ((Session.standard 1 1).operateAll
        (Session.Operation.last reflexive reflexive[0])).diagnostics = [] ∧
      .invoke .static none (.named "m.A") "f" ⟨.void, [.named "m.A", .named "m.B"]⟩
        [.literal (.int 1), .literal (.int 2)] ∈ declared.declaration.parts ∧
      ∃ m ∈ declared.declaration.methods, m.name = "f" ∧
        m.shape = ⟨.void, [.named "m.A", .named "m.B"]⟩) ∧
    ∃ schedule p, (Pipeline.start .standard {} (reflexive.map .unit) none).execute schedule = some p ∧
      p.isFinished = true ∧ ∀ c ∈ p.received, c.declared.declaration.Links fun type =>
        ∃ unit ∈ reflexive, unit.parses = true ∧ unit.qualifiedName = type := by
  have distinct : (reflexive.map SourceUnit.qualifiedName).Nodup := by decide +kernel
  have ⟨silent, declares, done⟩ : ((Session.standard 1 1).operateAll
        (Session.Operation.last reflexive reflexive[0])).diagnostics.length = 0 ∧
      (((Session.standard 1 1).operateAll
        (Session.Operation.last reflexive reflexive[0])).tables.types.accepted.map fun entry =>
          (entry.1, entry.2.qualifiedName)) = [("m.A", "m.A"), ("m.B", "m.B")] ∧
      ((Session.standard 1 1).operateAll
        (Session.Operation.last reflexive reflexive[0])).resolves.map (fun resolve =>
          resolve.declared?.map fun declared => decide (
            .invoke .static none (.named "m.A") "f" ⟨.void, [.named "m.A", .named "m.B"]⟩
              [.literal (.int 1), .literal (.int 2)] ∈ declared.declaration.parts)) = [some true] := by
    decide +kernel
  have collected : (Pipeline.start .standard {} (reflexive.map .unit) none).run.isFinished = true := by
    decide +kernel
  obtain ⟨sessions, pipelines⟩ := calls_linked_iff_declared reflexive distinct
  constructor
  · obtain ⟨declared, single, inside⟩ := Session.exists_declared done
    obtain ⟨schedule, t, c, reached, within, same, -, concluded, result, -⟩ :=
      Translation.operateAll_single 1 1 single
    have units := Session.Operation.units_last (List.mem_cons_self : reflexive[0] ∈ reflexive)
    obtain ⟨other, result', links⟩ :=
      sessions 1 1 schedule t reached (fun turn member => (within turn member).mono units) c concluded
    obtain rfl : declared = other := Except.ok.inj (result.symm.trans result')
    have call := of_decide_eq_true inside
    refine ⟨declared, single, List.length_eq_zero_iff.mp silent, call, ?_⟩
    apply (links.linked _ _ _ _ _ call).mpr
    intro type there
    rw [← same] at declares
    have registered : (type, type) ∈ [("m.A", "m.A"), ("m.B", "m.B")] := by
      simpa using there
    rw [← declares] at registered
    obtain ⟨entry, accepted, named⟩ := List.mem_map.mp registered
    obtain ⟨owner, name⟩ := Prod.mk.inj named
    exact ⟨type, [], entry.2, rfl, owner ▸ accepted, name⟩
  · obtain ⟨schedule, ran⟩ := Pipeline.run_execute (.start .standard {} (reflexive.map .unit) none)
    exact ⟨schedule, _, ran, collected,
      pipelines {} _ schedule _ ran collected (Input.accepted_units _ reflexive).1⟩

/-- A type is imported that is not declared, and the package has one of that name. -/
def shadowed : List Session.Operation :=
  let caller : SourceUnit :=
    { fileName := "A.firefly", relativePath := "m",
      content := .text "import x.B\nfn f(b: B) \x7b\x7d\nf(1)" }
  let type : SourceUnit := { fileName := "B.firefly", relativePath := "m", content := .text "" }
  [.declare caller, .declare type, .finish, .resolve caller]

/-- Nothing is reported, and the call does not have the shape of the one method of its name. -/
theorem shadowed_unlinked :
    ((Session.Operation.declared shadowed).map SourceUnit.qualifiedName).Nodup ∧
    ((Session.standard 1 1).operateAll shadowed).diagnostics = [] ∧
    ∃ declared, ((Session.standard 1 1).operateAll shadowed).resolves = [.done (.ok declared)] ∧
      .invoke .static none (.named "m.A") "f" ⟨.void, [.named "x.B"]⟩ [.literal (.int 1)] ∈
        declared.declaration.parts ∧
      ∀ m ∈ declared.declaration.methods, m.name = "f" → m.shape = ⟨.void, [.named "m.B"]⟩ := by
  have silent : ((Session.standard 1 1).operateAll shadowed).diagnostics.length = 0 := by
    decide +kernel
  have done : ((Session.standard 1 1).operateAll shadowed).resolves.map (fun resolve =>
      resolve.declared?.map fun declared => decide (
        .invoke .static none (.named "m.A") "f" ⟨.void, [.named "x.B"]⟩ [.literal (.int 1)] ∈
          declared.declaration.parts ∧
        ∀ m ∈ declared.declaration.methods, m.name = "f" → m.shape = ⟨.void, [.named "m.B"]⟩)) =
      [some true] := by
    decide +kernel
  refine ⟨by decide +kernel, List.length_eq_zero_iff.mp silent, ?_⟩
  obtain ⟨declared, single, shown⟩ := Session.exists_declared done
  exact ⟨declared, single, of_decide_eq_true shown⟩

end UnitCompiler
