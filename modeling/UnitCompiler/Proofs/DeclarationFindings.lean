import UnitCompiler.Proofs.CallLinkage
import UnitCompiler.Proofs.SpanNesting

/-! What is reported about a unit and what is left out of it. The findings are those of the nodes of
the tree, one by one in the order in which they are visited, and whatever is missing from the
declaration has a finding inside it. -/

namespace UnitCompiler

namespace Expr

mutual

/-- Every part is visited once. -/
theorem visits_perm : (expr : Expr) → expr.visits.Perm expr.parts
  | .literal _ _ | .null _ | .name _ _ => .refl _
  | .call _ arguments _ => (List.perm_append_singleton _ _).trans ((visitsAll_perm arguments).cons _)

theorem visitsAll_perm : (exprs : List Expr) → (visitsAll exprs).Perm (partsAll exprs)
  | [] => .nil
  | expr :: rest => (visits_perm expr).append (visitsAll_perm rest)

end

end Expr

/-- A finding about an expression has its place inside the expression. -/
theorem Lexicon.inside_of_findings {l : Lexicon} {names : List String} {e : Expr} (nested : e.Nested)
    {f : Finding} (found : f ∈ l.findings (e.sites names)) : f.span.Inside e.span := by
  obtain ⟨site, visited, wrong⟩ := List.mem_filterMap.mp found
  obtain ⟨part, inside, rfl⟩ := List.mem_map.mp visited
  rw [finding_span wrong]
  exact nested part (e.visits_perm.subset inside)

/-! ## What is left out -/

def Expr.Blamed (found : List Finding) (e : Expr) : Prop := ∃ f ∈ found, f.span.Inside e.span

theorem Expr.Nested.blamed {e : Expr} (nested : e.Nested) {l : Lexicon} {names : List String}
    {found : List Finding} (reported : l.findings (e.sites names) ⊆ found)
    (some : l.findings (e.sites names) ≠ []) : e.Blamed found := by
  obtain ⟨f, member⟩ := List.exists_mem_of_ne_nil _ some
  exact ⟨f, reported member, Lexicon.inside_of_findings nested member⟩

/-- What statements contribute to a body, one after the other: each comes to one instruction or to
none, whatever was made before, and something was found inside one that comes to none. -/
def Emission.Contribute (s : Surroundings) (scope : Scope) (found : List Finding) (exprs : List Expr)
    (body : List Instruction) : Prop :=
  ∃ codes : List (Option Instruction), body = codes.flatMap Option.toList ∧
    List.Forall₂ (fun e code => (∀ ledger, ((statement s scope e).run ledger).1 = code.toList) ∧
      (code = none → e.Blamed found)) exprs codes

/-- A default is missing if there is none, or if something was found inside it. -/
structure Param.Accounts (found : List Finding) (p : Param) (made : Parameter) : Prop where
  name : made.name = p.name
  unwritten : p.default = none → made.default = none
  written : ∀ e, p.default = some e → made.default = none → e.Blamed found

structure Function.Accounts (s : Surroundings) (found : List Finding) (f : Function)
    (m : MethodDeclaration) : Prop where
  name : m.name = f.name
  parameters : List.Forall₂ (Param.Accounts found) f.parameters m.parameters
  body : Emission.Contribute s (Emission.scopeOf m.parameters) found f.body m.body

def Outline.Accounts (o : Outline) (s : Surroundings) (found : List Finding) (d : TypeDeclaration) :
    Prop :=
  ∃ body made, d.methods = { entrypoint with body } :: made ∧
    Emission.Contribute s (Emission.scopeOf entrypoint.parameters) found o.tree.statements body ∧
    List.Forall₂ (Function.Accounts s found) o.tree.functions made

variable {s : Surroundings} {found : List Finding}

theorem Lexicon.findings_subset {l : Lexicon} {α : Type} {sites : α → List Site} {items : List α}
    (reported : l.findings (items.flatMap sites) ⊆ found) {item : α} (member : item ∈ items) :
    l.findings (sites item) ⊆ found := by
  intro f wrong
  obtain ⟨site, inside, same⟩ := List.mem_filterMap.mp wrong
  exact reported (List.mem_filterMap.mpr ⟨site, List.mem_flatMap_of_mem member inside, same⟩)

theorem Emission.Makes.contribute {scope : Scope} (ordinary : s.Ordinary) (unmarked : scope.Unmarked)
    {exprs : List Expr} {body : List Instruction} (makes : Makes s scope exprs body)
    (nested : ∀ e ∈ exprs, e.Nested)
    (reported : s.lexicon.findings (exprs.flatMap (Expr.sites scope.names)) ⊆ found) :
    Contribute s scope found exprs body := by
  obtain ⟨codes, rfl, all⟩ := makes
  induction all with
  | nil => exact ⟨[], rfl, .nil⟩
  | @cons e _ rest _ always _ ih =>
    have here := Lexicon.findings_subset reported List.mem_cons_self
    have behind : s.lexicon.findings (rest.flatMap (Expr.sites scope.names)) ⊆ found := by
      rw [List.flatMap_cons, Lexicon.findings_append] at reported
      exact (List.append_subset.mp reported).2
    rw [List.forall_mem_cons] at nested
    obtain ⟨others, same, contribute⟩ := ih nested.2 behind
    obtain ⟨⟨code, own, valued⟩, -⟩ := (statement_emits ordinary unmarked closed_true e).run {}
    rw [always] at own
    subst own
    refine ⟨code :: others, by rw [List.flatten_cons, same, List.flatMap_cons], .cons ⟨always, ?_⟩ contribute⟩
    exact fun none => nested.1.blamed here (valued.missing none)

theorem Param.Yields.accounts {relation : Expr → Instruction → Prop} {p : Param} {made : Parameter}
    (yields : p.Yields s relation made) (nested : ∀ e, p.default = some e → e.Nested)
    (reported : s.lexicon.findings p.sites ⊆ found) : p.Accounts found made where
  name := yields.name
  unwritten := yields.unwritten
  written e given missing := by
    rw [Param.sites, Lexicon.findings_append, given, Option.toList, List.flatMap_singleton] at reported
    exact (nested e given).blamed (List.append_subset.mp reported).2 ((yields.written e given).missing missing)

theorem Function.MadeBy.accounts (ordinary : s.Ordinary) {f : Function} (written : Tree.Written f)
    {m : MethodDeclaration} (made : f.MadeBy s m) (nested : ∀ e ∈ f.exprs, e.Nested)
    (reported : s.lexicon.findings f.sites ⊆ found) : f.Accounts s found m := by
  have names := Emission.scopeOf_names ordinary made.parameters
  rw [Function.sites, Lexicon.findings_append] at reported
  obtain ⟨inParameters, inBody⟩ := List.append_subset.mp reported
  refine ⟨made.name, ?_, ?_⟩
  · have each := (List.forall₂_and_left f.parameters m.parameters).mpr ⟨fun _ => id, made.parameters⟩
    refine each.imp fun p own both => ?_
    obtain ⟨given, always⟩ := both
    apply (Emission.yields_of_made ordinary Emission.closed_true always).accounts
    · intro e same
      exact nested e (List.mem_append_left _ (List.mem_filterMap.mpr ⟨p, given, same⟩))
    · exact Lexicon.findings_subset inParameters given
  · rw [← names] at inBody
    exact made.body.contribute ordinary (Emission.scope_unmarked written names)
      (fun e member => nested e (List.mem_append_right _ member)) inBody

/-- The findings about a unit account for its declaration. -/
theorem Outline.MadeBy.accounts (ordinary : s.Ordinary) {o : Outline} (whole : o.Whole)
    {d : TypeDeclaration} (made : o.MadeBy s d) (statementsNested : ∀ e ∈ o.tree.statements, e.Nested)
    (functionsNested : ∀ f ∈ o.tree.functions, ∀ e ∈ f.exprs, e.Nested) :
    o.Accounts s (s.lexicon.findings o.tree.sites) d := by
  obtain ⟨body, methods, all, statements, functions⟩ := made
  have reported : s.lexicon.findings o.tree.sites ⊆ s.lexicon.findings o.tree.sites := .refl _
  rw [UnitTree.sites, Lexicon.findings_append] at reported ⊢
  obtain ⟨outside, inside⟩ := List.append_subset.mp reported
  refine ⟨body, methods, all,
    statements.contribute ordinary Emission.entrypoint_unmarked statementsNested outside, ?_⟩
  have each := (List.forall₂_and_left o.tree.functions methods).mpr ⟨fun _ => id, functions⟩
  refine each.imp fun f m both => ?_
  obtain ⟨function, made⟩ := both
  exact made.accounts ordinary (whole.written f function) (functionsNested f function)
    (Lexicon.findings_subset inside function)

/-! ## What the lookups found -/

namespace Expr

mutual

theorem mem_calls_of_parts {name : String} {arguments : List Expr} {span : Span} : (e : Expr) →
    .call name arguments span ∈ e.parts → ⟨name, arguments.length⟩ ∈ e.calls
  | .literal _ _, inside | .null _, inside | .name _ _, inside => by
    simp [parts] at inside
  | .call function own _, inside => by
    rw [parts, List.mem_cons] at inside
    rw [calls, List.mem_cons]
    rcases inside with here | inner
    · cases here
      exact .inl rfl
    · exact .inr (mem_callsAll_of_parts own inner)

theorem mem_callsAll_of_parts {name : String} {arguments : List Expr} {span : Span} :
    (exprs : List Expr) → .call name arguments span ∈ partsAll exprs →
      ⟨name, arguments.length⟩ ∈ callsAll exprs
  | [], inside => by contradiction
  | e :: rest, inside => by
    rw [partsAll, List.mem_append] at inside
    rw [callsAll, List.mem_append]
    exact inside.imp (mem_calls_of_parts e) (mem_callsAll_of_parts rest)

end

theorem mem_callsAll_of_sites {names others : List String} {name : String} {arguments : List Expr}
    {span : Span} {exprs : List Expr}
    (site : .expr names (.call name arguments span) ∈ exprs.flatMap (sites others)) :
    ⟨name, arguments.length⟩ ∈ callsAll exprs := by
  obtain ⟨e, member, site⟩ := List.mem_flatMap.mp site
  obtain ⟨part, visited, same⟩ := List.mem_map.mp site
  cases same
  apply mem_callsAll_of_parts exprs
  rw [partsAll_eq]
  exact List.mem_flatMap_of_mem member (e.visits_perm.subset visited)

end Expr

namespace UnitTree

variable {tree : UnitTree}

theorem mem_calls_of_sites {names : List String} {name : String} {arguments : List Expr} {span : Span}
    (site : .expr names (.call name arguments span) ∈ tree.sites) (other : isIntrinsic name = false) :
    ⟨name, arguments.length⟩ ∈ tree.calls := by
  rw [calls, List.mem_eraseDups, List.mem_filter, List.mem_append, List.mem_flatMap]
  refine ⟨?_, by rw [other]; rfl⟩
  rcases List.mem_append.mp site with outside | inside
  · exact .inr (Expr.mem_callsAll_of_sites outside)
  · obtain ⟨f, function, site⟩ := List.mem_flatMap.mp inside
    refine .inl ⟨f, function, List.mem_append.mpr ?_⟩
    rcases List.mem_append.mp site with parameter | body
    · obtain ⟨p, given, site⟩ := List.mem_flatMap.mp parameter
      rcases List.mem_append.mp site with named | default
      · obtain ⟨type, -, same⟩ := List.mem_map.mp named
        contradiction
      · exact .inl (List.mem_flatMap_of_mem given (Expr.mem_callsAll_of_sites default))
    · exact .inr (Expr.mem_callsAll_of_sites body)

theorem annotated_of_sites {type : TypeName} (site : .type type ∈ tree.sites) :
    ∃ f ∈ tree.functions, ∃ p ∈ f.parameters, p.type = some type := by
  have expression {names : List String} {exprs : List Expr} :
      .type type ∉ exprs.flatMap (Expr.sites names) := by
    simp [Expr.sites]
  rcases List.mem_append.mp site with outside | inside
  · exact absurd outside expression
  · obtain ⟨f, function, site⟩ := List.mem_flatMap.mp inside
    rcases List.mem_append.mp site with parameter | body
    · obtain ⟨p, given, site⟩ := List.mem_flatMap.mp parameter
      rcases List.mem_append.mp site with named | default
      · obtain ⟨own, written, same⟩ := List.mem_map.mp named
        cases same
        exact ⟨f, function, p, given, Option.mem_toList.mp written⟩
      · exact absurd default expression
    · exact absurd body expression

end UnitTree

def Catalogue.lexicon (catalogue : Catalogue) (o : Outline) : Lexicon where
  owner := o.owner
  knowsType name := (builtInType name).isSome || (catalogue.type? o name).isSome
  knowsFunction call := ((catalogue.meaning o.owner).method call).isSome

namespace Catalogue

variable {catalogue : Catalogue} {o : Outline}

theorem references_methods (catalogue : Catalogue) (o : Outline) :
    (catalogue.references o).methods =
      o.tree.calls.map fun call => (call, (catalogue.meaning o.owner).method call) := by
  simp [references, Inquiry.complete, Inquiry.ofOutline, Meaning.methods]

theorem references_method_eq {call : Call} (asked : call ∈ o.tree.calls) :
    (catalogue.references o).method? call = (catalogue.meaning o.owner).method call := by
  rw [References.method?, references_methods, lookup_map_self asked]
  rfl

/-- What was looked up is all that matters in the tree. -/
theorem finding_references {inliner : Inliner} {site : Site} (member : site ∈ o.tree.sites) :
    (Surroundings.lexicon ⟨o.owner, catalogue.references o, inliner⟩).finding? site =
      (catalogue.lexicon o).finding? site := by
  cases site with
  | type type =>
    obtain ⟨f, function, p, given, written⟩ := UnitTree.annotated_of_sites member
    have known : ((catalogue.references o).type? type.name).isSome =
        ((builtInType type.name).isSome || (catalogue.type? o type.name).isSome) := by
      cases builtIn : builtInType type.name with
      | some _ => simp [References.type?_eq, builtIn]
      | none => rw [references_type function given written builtIn, Option.isSome_none, Bool.false_or]
    simp [Lexicon.finding?, Surroundings.lexicon, lexicon, known]
  | expr names e =>
    cases e with
    | literal | null | name => simp only [Lexicon.finding?]
    | call name arguments span =>
      by_cases intrinsic : isIntrinsic name = true
      · simp [Lexicon.finding?, intrinsic]
      · have asked := UnitTree.mem_calls_of_sites member (Bool.not_eq_true _ |>.mp intrinsic)
        simp [Lexicon.finding?, Surroundings.lexicon, lexicon, references_method_eq asked]

theorem findings_references {inliner : Inliner} :
    (Surroundings.lexicon ⟨o.owner, catalogue.references o, inliner⟩).findings o.tree.sites =
      (catalogue.lexicon o).findings o.tree.sites :=
  List.filterMap_congr fun _ member => finding_references member

end Catalogue

/-! ## Resolved units -/

theorem Toolchain.read_nested {unit : SourceUnit} {o : Outline}
    (read : Outline.read standard.grammar unit = .ok o) :
    (∀ e ∈ o.tree.statements, e.Nested) ∧ ∀ f ∈ o.tree.functions, ∀ e ∈ f.exprs, e.Nested := by
  obtain ⟨source, tree, parsed, rfl⟩ := read_standard read
  exact UnitTree.nested_of_parse parsed

/-- The diagnostics about a unit are the findings of its tree, and they account for its declaration. -/
theorem Toolchain.declaration_accounts {catalogue : Catalogue} (plain : catalogue.Plain)
    {unit : SourceUnit} {o : Outline} (read : Outline.read standard.grammar unit = .ok o) :
    (standard.declaration catalogue o).2 =
        ((catalogue.lexicon o).findings o.tree.sites).map (fun f => .ofFault o.unit f.span f.fault) ∧
      (standard.declaration catalogue o).1.unit = o.unit ∧
      o.Accounts (catalogue.surroundings o) ((catalogue.lexicon o).findings o.tree.sites)
        (standard.declaration catalogue o).1.declaration := by
  obtain ⟨statements, functions⟩ := read_nested read
  obtain ⟨found, -, -, made⟩ := declaration_emitted plain (read_whole read)
  have accounts := made.accounts (surroundings_ordinary plain o) (read_whole read) statements functions
  have same : (catalogue.surroundings o).lexicon.findings o.tree.sites =
      (catalogue.lexicon o).findings o.tree.sites := Catalogue.findings_references
  rw [same] at found accounts
  exact ⟨found, rfl, accounts⟩

/-- A resolve has reported what a catalogue makes of the sites of the tree, one diagnostic for each that
has a fault, and nothing else is missing from its declaration. -/
structure Conclusion.Accounts (c : Conclusion) (catalogue : Catalogue) : Prop where
  reports : c.reports = ((catalogue.lexicon c.outline).findings c.outline.tree.sites).map
    fun f => .ofFault c.outline.unit f.span f.fault
  declared : ∃ declared, c.result = .ok declared ∧ declared.unit = c.outline.unit ∧
    c.outline.Accounts (catalogue.surroundings c.outline)
      ((catalogue.lexicon c.outline).findings c.outline.tree.sites) declared.declaration

/-- In a session, where units are declared and resolved in any order with anything in between, each unit
that is resolved was read from a text, and what was reported about it is exact and accounts for all that
is left out. In a compilation, whatever the schedule, what was reported are the diagnostics about all
units, those about one unit in order if the names are different, and they are as exact. -/
theorem conclusions_account :
    (∀ capacity number schedule t,
      Translation.execute { session := .standard capacity number } schedule = some t →
      ∀ c ∈ t.conclusions, (∃ unit, Outline.read Toolchain.standard.grammar unit = .ok c.outline) ∧
        c.Accounts t.session.tables.accepted) ∧
    ∀ settings input schedule p,
      (Pipeline.start .standard settings input none).execute schedule = some p → p.isFinished = true →
      let units := Input.accepted settings.inputErrors input
      ∃ reports : SourceUnit → List Diagnostic,
        p.summary.diagnostics.Perm (units.flatMap reports) ∧
        ((units.map SourceUnit.qualifiedName).Nodup → ∀ unit ∈ units,
          p.summary.diagnostics.filter (·.unit = unit) = reports unit) ∧
        (∀ unit, unit.parses = false → reports unit = []) ∧
        ∀ unit o, Outline.read Toolchain.standard.grammar unit = .ok o →
          let found := (p.tables.accepted.lexicon o).findings o.tree.sites
          reports unit = found.map (fun f => .ofFault unit f.span f.fault) ∧
          ∀ c ∈ p.received, c.declared.unit = unit →
            o.Accounts (p.tables.accepted.surroundings o) found c.declared.declaration := by
  constructor
  · intro capacity number schedule t reached c concluded
    obtain ⟨orderly, kept⟩ := Translation.execute_kept capacity number reached
    have started := List.mem_of_getElem? (kept.foreseen.recorded.concluded c concluded)
    obtain ⟨unit, read⟩ := kept.foreseen.recorded.read c.outline started
    obtain ⟨result, reports⟩ := kept.foreseen.declared _ orderly.accepted_plain (.refl _) c concluded
    obtain ⟨found, own, accounts⟩ := Toolchain.declaration_accounts orderly.accepted_plain read
    exact ⟨⟨unit, read⟩, reports.trans found, _, result, own, accounts⟩
  · intro settings input schedule p ran collected units
    have foreseen := Pipeline.execute_foreseen ran
    refine ⟨Toolchain.standard.diagnosticsBy p.tables.accepted, foreseen.reported collected,
      fun distinct unit among => foreseen.told collected distinct among,
      fun unit unread => Toolchain.diagnosticsBy_of_unread _ unread, fun unit o read => ?_⟩
    obtain ⟨found, -, accounts⟩ :=
      Toolchain.declaration_accounts (foreseen.accepted_plain collected) read
    refine ⟨?_, fun c received own => ?_⟩
    · rw [Toolchain.standard.diagnosticsBy_of_read _ read, found, Outline.read_unit read]
    · obtain ⟨-, other, read', declared⟩ := foreseen.declared collected received
      rw [own] at read'
      obtain rfl : o = other := Except.ok.inj (read.symm.trans read')
      rw [declared]
      exact accounts

/-- There is a fault of each kind in the first unit, one of them inside a call that has a fault itself. The
type that it does not find is in another directory. -/
def riddled : List SourceUnit :=
  [{ fileName := "A.firefly", relativePath := "m",
     content := .text "fn f(x: B = y) \x7b println(x, null) \x7d\ng(f(z))\nf(args)" },
    { fileName := "B.firefly", relativePath := "n", content := .text "" }]

theorem riddled_accounts :
    (∃ c : Conclusion, c.Accounts
        ((Session.standard 1 1).operateAll (Session.Operation.last riddled riddled[0])).tables.accepted ∧
      c.reports.map (fun d => (d.span, d.message)) =
        [(⟨2, 2, 40, 40⟩, "Could not resolve the variable 'z'"),
          (⟨2, 2, 36, 42⟩, "Could not resolve the function 'g'"),
          (⟨1, 1, 8, 8⟩, "Could not resolve the type 'B'"),
          (⟨1, 1, 12, 12⟩, "Could not resolve the variable 'y'"),
          (⟨1, 1, 28, 31⟩, "Null literal is not allowed")]) ∧
    ∃ schedule p, (Pipeline.start .standard {} (riddled.map .unit) none).execute schedule = some p ∧
      p.isFinished = true ∧ p.summary.diagnostics.length = 5 ∧
      ∃ reports : SourceUnit → List Diagnostic, p.summary.diagnostics.Perm (riddled.flatMap reports) ∧
        p.summary.diagnostics.filter (·.unit = riddled[0]) = reports riddled[0] := by
  have distinct : (riddled.map SourceUnit.qualifiedName).Nodup := by decide +kernel
  have ⟨told, done⟩ : ((Session.standard 1 1).operateAll
        (Session.Operation.last riddled riddled[0])).diagnostics.map (fun d => (d.span, d.message)) =
      [(⟨2, 2, 40, 40⟩, "Could not resolve the variable 'z'"),
        (⟨2, 2, 36, 42⟩, "Could not resolve the function 'g'"),
        (⟨1, 1, 8, 8⟩, "Could not resolve the type 'B'"),
        (⟨1, 1, 12, 12⟩, "Could not resolve the variable 'y'"),
        (⟨1, 1, 28, 31⟩, "Null literal is not allowed")] ∧
      ((Session.standard 1 1).operateAll (Session.Operation.last riddled riddled[0])).resolves.map
        (fun resolve => resolve.declared?.map fun _ => ()) = [some ()] := by
    decide +kernel
  have ⟨collected, five⟩ : (Pipeline.start .standard {} (riddled.map .unit) none).run.isFinished = true ∧
      (Pipeline.start .standard {} (riddled.map .unit) none).run.summary.diagnostics.length = 5 := by
    decide +kernel
  obtain ⟨sessions, pipelines⟩ := conclusions_account
  constructor
  · obtain ⟨declared, single, -⟩ := Session.exists_declared done
    obtain ⟨schedule, t, c, reached, -, same, -, concluded, -, reports⟩ :=
      Translation.operateAll_single 1 1 single
    obtain ⟨-, accounts⟩ := sessions 1 1 schedule t reached c concluded
    rw [← same, reports] at told
    exact ⟨c, same ▸ accounts, told⟩
  · obtain ⟨schedule, ran⟩ := Pipeline.run_execute (.start .standard {} (riddled.map .unit) none)
    obtain ⟨reports, all, order, -⟩ := pipelines {} _ schedule _ ran collected
    rw [(Input.accepted_units _ riddled).1] at all order
    exact ⟨schedule, _, ran, collected, five, reports, all, order distinct _ List.mem_cons_self⟩

end UnitCompiler
