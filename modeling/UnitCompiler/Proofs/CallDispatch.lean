import UnitCompiler.Proofs.PipelineBarrier
import UnitCompiler.Proofs.PipelineDeterminism
import UnitCompiler.Proofs.SpanSites

/-! Which method a call goes to. Methods are looked up in outlines, where of all defaults only the
literals are known. So a call goes to the first method of the declaration that can be called so with
literals for what is left out, and it is reported if there is none. -/

namespace UnitCompiler

/-- A method can be called with some number of arguments, and literals stand for all that is left out. -/
def MethodDeclaration.Takes (m : MethodDeclaration) (name : String) (arity : Nat) : Prop :=
  (Signature.ofMethod name (.accepting arity)).accepts m = true ∧
    ∀ p ∈ m.parameters.drop arity, ∃ value, p.default = some (.literal value)

def Instruction.literal? : Instruction → Option Instruction
  | .literal value => some (.literal value)
  | _ => none

theorem Instruction.literal?_eq_some {i j : Instruction} :
    i.literal? = some j ↔ i = j ∧ ∃ value, j = .literal value := by
  constructor
  · intro known
    cases i with
    | literal value =>
      cases known
      exact ⟨rfl, value, rfl⟩
    | _ => cases known
  · rintro ⟨rfl, value, rfl⟩
    rfl

/-- The outline knows a default just if it is a literal in the declaration. -/
theorem Param.Renders.default_literal {o : Outline} {references : References} {p : Param}
    {made : Parameter} (renders : p.Renders o references made) :
    p.default.bind Outline.literal? = made.default.bind Instruction.literal? := by
  refine Option.ext fun i => ⟨fun known => ?_, fun known => ?_⟩
  · have same := renders.literal i known
    obtain ⟨expr, -, literal⟩ := Option.bind_eq_some_iff.mp known
    cases expr with
    | literal value span =>
      cases literal
      simp [same, Instruction.literal?]
    | _ => cases literal
  · obtain ⟨_, default, literal⟩ := Option.bind_eq_some_iff.mp known
    obtain ⟨rfl, value, rfl⟩ := Instruction.literal?_eq_some.mp literal
    obtain ⟨expr, written, own⟩ := renders.default _ default
    cases own with
    | literal value span => simp [written, Outline.literal?]

namespace Outline

structure StandsFor (target m : MethodDeclaration) : Prop where
  name : target.name = m.name
  static : target.isStatic = true
  defaults : target.parameters.map Parameter.default =
    m.parameters.map fun p => p.default.bind Instruction.literal?

variable {o : Outline} {references : References} {d : TypeDeclaration}

theorem standsFor_function {f : Function} {m : MethodDeclaration} (renders : f.Renders o references m) :
    StandsFor (skeleton o.tree.importTable o.unit.packageName f) m := by
  refine ⟨renders.name.symm, rfl, ?_⟩
  have all : List.Forall₂ (· = ·) (f.parameters.map fun p => p.default.bind literal?)
      (m.parameters.map fun p => p.default.bind Instruction.literal?) := by
    rw [List.forall₂_map_left_iff, List.forall₂_map_right_iff]
    exact renders.parameters.imp fun _ _ own => own.default_literal
  rw [List.forall₂_eq_eq_eq] at all
  rw [skeleton, List.map_map]
  exact all

/-- The methods of the declaration are those of the outline, in order. -/
theorem Renders.standFor (rendered : o.Renders references d) (whole : o.Whole) :
    List.Forall₂ StandsFor o.methods d.methods := by
  obtain ⟨body, made, all, -, functions⟩ := rendered.methods
  rw [all, whole.methods]
  refine .cons ⟨rfl, rfl, rfl⟩ ?_
  rw [List.forall₂_map_left_iff]
  exact functions.imp fun _ _ renders => standsFor_function renders

namespace StandsFor

variable {target m : MethodDeclaration} {name : String} {arity : Nat}

theorem length (stands : StandsFor target m) : target.parameters.length = m.parameters.length := by
  simpa using congrArg List.length stands.defaults

theorem drop_defaults (stands : StandsFor target m) (arity : Nat) :
    (target.parameters.drop arity).map Parameter.default =
      (m.parameters.drop arity).map fun p => p.default.bind Instruction.literal? := by
  rw [List.map_drop, stands.defaults, List.map_drop]

/-- The method of the outline is found for a call just if the other one takes it. -/
theorem accepts_iff (stands : StandsFor target m) :
    (Signature.ofMethod name (.accepting arity)).accepts target = true ↔ m.Takes name arity := by
  have literal (p : Parameter) : (p.default.bind Instruction.literal?).isSome = true ↔
      ∃ value, p.default = some (.literal value) := by
    rw [Option.isSome_iff_exists]
    constructor
    · rintro ⟨i, known⟩
      obtain ⟨_, default, literal⟩ := Option.bind_eq_some_iff.mp known
      obtain ⟨rfl, value, rfl⟩ := Instruction.literal?_eq_some.mp literal
      exact ⟨value, default⟩
    · rintro ⟨value, default⟩
      exact ⟨.literal value, by rw [default]; rfl⟩
  have known : (∀ p ∈ target.parameters.drop arity, p.default.isSome = true) ↔
      ∀ p ∈ m.parameters.drop arity, ∃ value, p.default = some (.literal value) := by
    have dropped := stands.drop_defaults arity
    rw [← List.forall_mem_map (f := Parameter.default) (P := fun default => default.isSome = true), dropped,
      List.forall_mem_map]
    exact forall₂_congr fun p _ => literal p
  have weaker (all : ∀ p ∈ m.parameters.drop arity, ∃ value, p.default = some (.literal value)) :
      ∀ p ∈ m.parameters.drop arity, p.default.isSome = true := by
    intro p left
    obtain ⟨value, default⟩ := all p left
    rw [default]
    rfl
  simp only [MethodDeclaration.Takes, Signature.ofMethod, Bool.and_eq_true, beq_iff_eq,
    CallForm.fits_accepting, stands.name, stands.length, known]
  constructor
  · rintro ⟨named, enough, all⟩
    exact ⟨⟨named, enough, weaker all⟩, all⟩
  · rintro ⟨⟨named, enough, -⟩, all⟩
    exact ⟨named, enough, all⟩

/-- What is added for the parameters left out are the defaults of the declaration. -/
theorem added (stands : StandsFor target m) (takes : m.Takes name arity) :
    (target.parameters.drop arity).filterMap Parameter.default =
      (m.parameters.drop arity).filterMap Parameter.default := by
  have dropped := congrArg (List.filterMap id) (stands.drop_defaults arity)
  rw [List.filterMap_map, List.filterMap_map] at dropped
  refine dropped.trans (List.filterMap_congr fun p left => ?_)
  obtain ⟨value, default⟩ := takes.2 p left
  simp [default, Instruction.literal?]

end StandsFor

/-- The method that is found for a call is the first one, in the order of the declaration, that takes it. -/
theorem find?_eq_none_iff {targets methods : List MethodDeclaration}
    (stand : List.Forall₂ StandsFor targets methods) {name : String} {arity : Nat} :
    targets.find? (Signature.ofMethod name (.accepting arity)).accepts = none ↔
      ∀ m ∈ methods, ¬m.Takes name arity := by
  induction stand with
  | nil => simp
  | @cons target m _ _ first _ ih =>
    rw [List.find?_cons, List.forall_mem_cons, ← ih, ← first.accepts_iff]
    cases (Signature.ofMethod name (.accepting arity)).accepts target <;> simp

theorem find?_first {targets before after : List MethodDeclaration} {m : MethodDeclaration} {name : String}
    {arity : Nat} (stand : List.Forall₂ StandsFor targets (before ++ m :: after))
    (unmatched : ∀ other ∈ before, ¬other.Takes name arity) (takes : m.Takes name arity) :
    ∃ target, targets[before.length]? = some target ∧ StandsFor target m ∧
      targets.find? (Signature.ofMethod name (.accepting arity)).accepts = some target := by
  have front := List.forall₂_take_append _ _ _ stand
  have back := List.forall₂_drop_append _ _ _ stand
  cases split : targets.drop before.length with
  | nil =>
    rw [split] at back
    cases back
  | cons target rest =>
    rw [split] at back
    obtain ⟨stands, -⟩ := List.forall₂_cons.mp back
    refine ⟨target, ?_, stands, ?_⟩
    · rw [← Nat.add_zero before.length, ← List.getElem?_drop, split]
      rfl
    · have earlier := (find?_eq_none_iff front).mpr unmatched
      rw [← List.take_append_drop before.length targets, List.find?_append, earlier, split, Option.none_or]
      exact List.find?_cons_of_pos (stands.accepts_iff.mpr takes)

end Outline

/-! ## The calls of a unit -/

namespace Emission

variable {s : Surroundings} {scope : Scope}
variable {name : String} {arguments : List Expr} {values : List Instruction} {target : MethodDeclaration}
  {ledger later : Ledger}

/-- A call of a method that is known, with a value for every argument, is an invocation of it. -/
theorem call_known (other : isIntrinsic name = false) (span : Span)
    (known : s.references.method? ⟨name, arguments.length⟩ = some target)
    (made : (Emission.values s scope arguments).run ledger = (values, later))
    (complete : values.length = arguments.length) :
    ((value s scope (.call name arguments span)).run ledger).1 = some (invocation s.owner target values) ∧
      ((statement s scope (.call name arguments span)).run ledger).1 =
        [invocation s.owner target values] := by
  have called : call s name arguments.length span values = pure [invocation s.owner target values] := by
    unfold call
    rw [other, known]
    simp [complete]
  constructor
  · rw [value, StateT.run_bind, made]
    change ((call s name arguments.length span values >>= single name span).run later).1 = _
    rw [called]
    rfl
  · rw [statement, StateT.run_bind, made]
    change ((call s name arguments.length span values).run later).1 = _
    rw [called]
    rfl

end Emission

/-- A declaration is what emission makes of a unit, and calls of functions go to its methods. A call that
no method takes is reported once, and nothing else is reported in its place. A call that some method
takes goes, once all its arguments have values, to the first such method: it has the name and shape that
the outline has for it, and the defaults of the declaration for what is left out. -/
structure Outline.Dispatches (o : Outline) (s : Surroundings) (reports : List Diagnostic)
    (d : TypeDeclaration) : Prop where
  made : o.MadeBy s d
  missed : ∀ names name arguments span, Site.expr names (.call name arguments span) ∈ o.tree.sites →
    isIntrinsic name = false → (∀ m ∈ d.methods, ¬m.Takes name arguments.length) →
    reports.filter (fun r => r.span = span) =
      [.ofFault o.unit span (.unknownFunction name arguments.length d.qualifiedName)]
  found : ∀ names name arguments span, Site.expr names (.call name arguments span) ∈ o.tree.sites →
    isIntrinsic name = false → ∀ (before : List MethodDeclaration) m (after : List MethodDeclaration),
    d.methods = before ++ m :: after → (∀ other ∈ before, ¬other.Takes name arguments.length) →
    m.Takes name arguments.length →
    reports.filter (fun r => r.span = span) = [] ∧
    ∃ target, o.methods[before.length]? = some target ∧ target.parameters.length = m.parameters.length ∧
      ∀ scope ledger later (values : List Instruction) invocation,
        (Emission.values s scope arguments).run ledger = (values, later) →
        values.length = arguments.length →
        invocation = Instruction.invoke .static none (.named d.qualifiedName) name target.shape
          (values ++ (m.parameters.drop arguments.length).filterMap Parameter.default) →
        ((Emission.value s scope (.call name arguments span)).run ledger).1 = some invocation ∧
          ((Emission.statement s scope (.call name arguments span)).run ledger).1 = [invocation]

/-- A unit is declared as its tree says, with the methods of its outline for all that is known. -/
theorem Outline.Renders.dispatches {o : Outline} {s : Surroundings} {reports : List Diagnostic}
    {d : TypeDeclaration} (rendered : o.Renders s.references d) (whole : o.Whole) (made : o.MadeBy s d)
    (owner : s.owner = o.owner)
    (known : ∀ name arity, ⟨name, arity⟩ ∈ o.tree.calls → s.references.method? ⟨name, arity⟩ =
      o.methods.find? (Signature.ofMethod name (.accepting arity)).accepts)
    (reported : ∀ site ∈ o.tree.sites, reports.filter (fun r => r.span = site.span) =
      (s.lexicon.finding? site).toList.map fun f => .ofFault o.unit f.span f.fault) :
    o.Dispatches s reports d := by
  have stand := rendered.standFor whole
  constructor
  case made => exact made
  case missed =>
    intro names name arguments span site other unmatched
    have missing : s.references.method? ⟨name, arguments.length⟩ = none :=
      (known _ _ (UnitTree.mem_calls_of_sites site other)).trans ((find?_eq_none_iff stand).mpr unmatched)
    refine (reported _ site).trans ?_
    simp [Lexicon.finding?, other, Surroundings.lexicon, missing, owner, rendered.owner]
  case found =>
    intro names name arguments span site other before m after split unmatched takes
    have stand : List.Forall₂ StandsFor o.methods (before ++ m :: after) := split ▸ stand
    obtain ⟨target, there, stands, found⟩ := find?_first stand unmatched takes
    have target_known : s.references.method? ⟨name, arguments.length⟩ = some target :=
      (known _ _ (UnitTree.mem_calls_of_sites site other)).trans found
    refine ⟨(reported _ site).trans ?_, target, there, stands.length, ?_⟩
    · simp [Lexicon.finding?, Surroundings.lexicon, target_known]
    · rintro scope ledger later values _ made complete rfl
      have named : target.name = name := Signature.named _ _ (stands.accepts_iff.mpr takes)
      have invoked : Emission.invocation s.owner target values =
          .invoke .static none (.named d.qualifiedName) name target.shape
            (values ++ (m.parameters.drop arguments.length).filterMap Parameter.default) := by
        rw [Emission.invocation, stands.static, named, complete, stands.added takes, owner, rendered.owner]
        rfl
      rw [← invoked]
      exact Emission.call_known other span target_known made complete

namespace Toolchain

variable {units : List SourceUnit} {unit : SourceUnit} {o : Outline}

/-- Among units with different names, what is registered under the name of one are its own methods. -/
theorem catalogue_under (distinct : (units.map SourceUnit.qualifiedName).Nodup) (member : unit ∈ units)
    (read : Outline.read standard.grammar unit = .ok o) :
    (standard.catalogue units).methods.under o.owner = o.methods := by
  have own := Log.under_flatMap (Outline.methodPlan_owned.ofUnit standard.grammar) distinct member
  rw [Outline.methodPlan_ofUnit read, List.map_map] at own
  rw [Outline.owner, Outline.read_unit read]
  exact own.trans (List.map_id _)

theorem declaration_dispatches (distinct : (units.map SourceUnit.qualifiedName).Nodup)
    (member : unit ∈ units) (read : Outline.read standard.grammar unit = .ok o) :
    o.Dispatches ((standard.catalogue units).surroundings o)
      (standard.declaration (standard.catalogue units) o).2
      (standard.declaration (standard.catalogue units) o).1.declaration := by
  have plain := standard.catalogue_plain units
  have whole := read_whole read
  have under := catalogue_under distinct member read
  have rendered : o.Renders ((standard.catalogue units).surroundings o).references
      (standard.declaration (standard.catalogue units) o).1.declaration :=
    declaration_renders plain whole fun m registered => by
      rw [← under]
      exact List.mem_map_of_mem (List.mem_filter.mpr ⟨registered, by simp⟩)
  refine rendered.dispatches whole (declaration_made plain read) (by rw [Catalogue.surroundings]) ?_ ?_
  · intro name arity asked
    exact (Catalogue.references_method_eq asked).trans (congrArg (List.find? _) under)
  · intro site member
    rw [reports_at plain read member, Catalogue.surroundings, Catalogue.finding_references member]

theorem compiledBy?_of_compiles (catalogue : Catalogue) {unit : SourceUnit}
    (compiles : unit.compiles = true) :
    ∃ o c, Outline.read standard.grammar unit = .ok o ∧
      standard.compiledBy? catalogue unit = some c ∧
      c.declared = (standard.declaration catalogue o).1 := by
  rw [SourceUnit.compiles, SourceUnit.parses_eq unit rfl, Bool.and_eq_true] at compiles
  cases read : Outline.read standard.grammar unit with
  | error failure => simp [read, Except.isOk, Except.toBool] at compiles
  | ok o =>
    obtain ⟨-, name⟩ := standard.declaration_unit catalogue read
    have backend := backend_isOk (standard.declaration catalogue o).1
    rw [name, compiles.2] at backend
    rw [compiledBy?, standard.declaredBy?_of_read catalogue read, Option.bind_some, generated?]
    generalize standard.backend _ _ = made at backend ⊢
    cases made with
    | ok artifacts => exact ⟨o, _, rfl, rfl, rfl⟩
    | error failure => simp [Except.isOk, Except.toBool] at backend

end Toolchain

/-- Units with different names: where they have been declared in a session, in any order and with anything
in between, and where a compilation of them has finished, whatever the schedule. In each of them that has
a declaration, calls go to the first method that takes them, and are reported just if there is none. -/
theorem calls_resolve_iff_taken (units : List SourceUnit)
    (distinct : (units.map SourceUnit.qualifiedName).Nodup) :
    (∀ capacity number schedule t,
      Translation.execute { session := .standard capacity number } schedule = some t →
      t.session.tables.accepted = Toolchain.standard.catalogue units →
      ∀ c ∈ t.conclusions, c.outline.unit ∈ units → ∃ declared, c.result = .ok declared ∧
        c.outline.Dispatches ((Toolchain.standard.catalogue units).surroundings c.outline) c.reports
          declared.declaration) ∧
    ∀ settings schedule p,
      (Pipeline.start .standard settings (units.map .unit) none).execute schedule = some p →
      p.isFinished = true → ∀ unit ∈ units, unit.compiles = true → ∃ o, ∃ c ∈ p.received,
        Outline.read Toolchain.standard.grammar unit = .ok o ∧ c.declared.unit = unit ∧
        o.Dispatches ((Toolchain.standard.catalogue units).surroundings o)
          (p.summary.diagnostics.filter (·.unit = unit)) c.declared.declaration := by
  constructor
  · intro capacity number schedule t reached filed c concluded among
    obtain ⟨orderly, kept⟩ := Translation.execute_kept capacity number reached
    have started := List.mem_of_getElem? (kept.foreseen.recorded.concluded c concluded)
    obtain ⟨unit, read⟩ := kept.foreseen.recorded.read c.outline started
    rw [Outline.read_unit read] at among
    obtain ⟨result, reports⟩ := kept.foreseen.declared _ orderly.accepted_plain (.refl _) c concluded
    rw [filed] at result reports
    rw [reports]
    exact ⟨_, result, Toolchain.declaration_dispatches distinct among read⟩
  · intro settings schedule p ran collected unit among compiles
    have conforming := Pipeline.execute_conforming distinct ran
    obtain ⟨o, c, read, compiled, declared⟩ := Toolchain.compiledBy?_of_compiles (Toolchain.standard.catalogue units) compiles
    have received := (conforming.received collected).mem_iff.mpr
      (List.mem_filterMap.mpr ⟨unit, among, compiled⟩)
    refine ⟨o, c, received, read, ?_, ?_⟩
    · rw [declared]
      exact (Toolchain.standard.declaration_unit _ read).1
    · rw [conforming.reported collected unit, if_pos among,
        Toolchain.standard.diagnosticsBy_of_read _ read, declared]
      exact Toolchain.declaration_dispatches distinct among read

/-- Of two functions with one name the first has a default, and another unit has a function of that
name without parameters. -/
def overloaded : List SourceUnit :=
  [{ fileName := "A.firefly", relativePath := "m",
     content := .text "fn f(a, b = 2) \x7b\x7d\nfn f(a) \x7b\x7d\nf(1)\nf()" },
    { fileName := "B.firefly", relativePath := "m", content := .text "fn f() \x7b\x7d" }]

theorem overloaded_dispatches : ∃ (o : Outline) (declared : DeclaredUnit) (reports : List Diagnostic),
    ((Session.standard 1 1).operateAll (Session.Operation.last overloaded overloaded[0])).resolves =
      [.done (.ok declared)] ∧
    o.Dispatches ((Toolchain.standard.catalogue overloaded).surroundings o) reports declared.declaration ∧
    (declared.declaration.methods.head?.map MethodDeclaration.body) =
      some [.invoke .static none (.named "m.A") "f" ⟨.void, [.dynamic, .dynamic]⟩
        [.literal (.int 1), .literal (.int 2)]] ∧
    ((Session.standard 1 1).operateAll
        (Session.Operation.last overloaded overloaded[0])).diagnostics.map (fun d => (d.span, d.message)) =
      [(⟨4, 4, 34, 36⟩, "Could not resolve the function 'f'")] := by
  have distinct : (overloaded.map SourceUnit.qualifiedName).Nodup := by decide +kernel
  have ⟨told, done⟩ : ((Session.standard 1 1).operateAll
        (Session.Operation.last overloaded overloaded[0])).diagnostics.map (fun d => (d.span, d.message)) =
      [(⟨4, 4, 34, 36⟩, "Could not resolve the function 'f'")] ∧
      ((Session.standard 1 1).operateAll (Session.Operation.last overloaded overloaded[0])).resolves.map
        (fun resolve => resolve.declared?.map fun declared =>
          declared.declaration.methods.head?.map MethodDeclaration.body) =
      [some (some [.invoke .static none (.named "m.A") "f" ⟨.void, [.dynamic, .dynamic]⟩
        [.literal (.int 1), .literal (.int 2)]])] := by
    decide +kernel
  obtain ⟨declared, single, body⟩ := Session.exists_declared done
  obtain ⟨schedule, t, c, reached, within, same, conducted, concluded, result, -⟩ :=
    Translation.operateAll_single 1 1 single
  have accepted : t.session.tables.accepted = Toolchain.standard.catalogue overloaded := by
    rw [conducted.accepted, Session.Operation.declared_last]
  have own : c.outline.unit ∈ overloaded := by
    have units := Session.Operation.units_last (List.mem_cons_self : overloaded[0] ∈ overloaded)
    obtain ⟨unit, inside, read, -⟩ := Translation.conclusion_renders distinct
      (fun turn member => (within turn member).mono units) reached concluded
    rwa [Outline.read_unit read]
  obtain ⟨other, result', dispatches⟩ := (calls_resolve_iff_taken overloaded distinct).1 1 1
    schedule t reached accepted c concluded own
  obtain rfl : declared = other := Except.ok.inj (result.symm.trans result')
  exact ⟨c.outline, declared, c.reports, single, dispatches, body, told⟩

def deferred : SourceUnit where
  fileName := "A.firefly"
  relativePath := "m"
  content := .text "fn g() \x7b\x7d\nfn f(a = g()) \x7b\x7d\nf()"

/-- The call without arguments is reported, although the function can be called so. -/
theorem deferred_unresolved : ∃ declared,
    ((Session.standard 1 1).operateAll (Session.Operation.last [deferred] deferred)).resolves = [.done (.ok declared)] ∧
    (∃ m ∈ declared.declaration.methods, (Signature.ofMethod "f" (.accepting 0)).accepts m = true) ∧
    ((Session.standard 1 1).operateAll (Session.Operation.last [deferred] deferred)).diagnostics.map (fun d => (d.span, d.message)) =
      [(⟨3, 3, 27, 29⟩, "Could not resolve the function 'f'")] := by
  have told : ((Session.standard 1 1).operateAll (Session.Operation.last [deferred] deferred)).diagnostics.map
      (fun d => (d.span, d.message)) = [(⟨3, 3, 27, 29⟩, "Could not resolve the function 'f'")] := by
    decide +kernel
  have done : ((Session.standard 1 1).operateAll (Session.Operation.last [deferred] deferred)).resolves.map (fun resolve =>
      resolve.declared?.map fun declared => decide (∃ m ∈ declared.declaration.methods,
        (Signature.ofMethod "f" (.accepting 0)).accepts m = true)) = [some true] := by
    decide +kernel
  obtain ⟨declared, single, accepts⟩ := Session.exists_declared done
  exact ⟨declared, single, of_decide_eq_true accepts, told⟩

end UnitCompiler
