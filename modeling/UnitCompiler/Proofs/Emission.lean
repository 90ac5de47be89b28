import UnitCompiler.Proofs.InliningHygiene

/-! What comes of an expression. Every part of emission has one value and reports the findings of its
sites, in the order in which they are visited, whatever the ledger it starts from. So it does not matter
how many instances of intrinsics were made before. -/

namespace UnitCompiler

def Plain (code : List Instruction) : Prop := ∀ i ∈ code, i.Plain

theorem Plain.nil : Plain [] := by
  simp [Plain]

theorem Plain.single {i : Instruction} (plain : i.Plain) : Plain [i] := by
  simpa [Plain] using plain

theorem Plain.append {left right : List Instruction} (first : Plain left) (second : Plain right) :
    Plain (left ++ right) := by
  intro i member
  exact (List.mem_append.mp member).elim (first i) (second i)

/-- The methods that are known have defaults that read nothing but identifiers. -/
def References.Plain (r : References) : Prop :=
  ∀ call target, r.method? call = some target →
    ∀ p ∈ target.parameters, ∀ default, p.default = some default → default.Plain

def Scope.Unmarked (scope : Scope) : Prop := ∀ entry ∈ scope, UnitCompiler.Unmarked entry.1

theorem Scope.Unmarked.name {scope : Scope} (unmarked : scope.Unmarked) {name : String}
    {type : TypeRef} (known : scope.type? name = some type) : UnitCompiler.Unmarked name := by
  obtain ⟨before, after, whole, -⟩ := List.lookup_eq_some_iff.mp known
  have member : (name, type) ∈ scope.reverse := by
    rw [whole]
    simp
  exact unmarked _ (List.mem_reverse.mp member)

structure Surroundings.Ordinary (s : Surroundings) : Prop where
  inliner : s.inliner = Inlining.inline
  known : s.references.Plain

/-! ## Sites -/

namespace Expr

mutual

def visits : Expr → List Expr
  | .literal value span => [.literal value span]
  | .null span => [.null span]
  | .name identifier span => [.name identifier span]
  | .call function arguments span => visitsAll arguments ++ [.call function arguments span]

def visitsAll : List Expr → List Expr
  | [] => []
  | expr :: rest => expr.visits ++ visitsAll rest

end

theorem visitsAll_eq (exprs : List Expr) : visitsAll exprs = exprs.flatMap visits := by
  induction exprs with
  | nil => rfl
  | cons first rest ih => rw [visitsAll, ih, List.flatMap_cons]

end Expr

/-- A place in a tree where there can be a fault: an annotation, or an expression where some variables
are in scope. -/
inductive Site where
  | type (name : TypeName)
  | expr (names : List String) (e : Expr)

def Site.span : Site → Span
  | .type name => name.span
  | .expr _ e => e.span

def Expr.sites (names : List String) (expr : Expr) : List Site :=
  expr.visits.map (.expr names)

/-- No variable is in scope in a default. -/
def Param.sites (p : Param) : List Site :=
  p.type.toList.map .type ++ p.default.toList.flatMap (Expr.sites [])

def Function.sites (f : Function) : List Site :=
  f.parameters.flatMap Param.sites ++ f.body.flatMap (Expr.sites (f.parameters.map Param.name))

/-- The statements outside functions come first. -/
def UnitTree.sites (tree : UnitTree) : List Site :=
  tree.statements.flatMap (Expr.sites (Outline.entrypoint.parameters.map Parameter.name)) ++
    tree.functions.flatMap Function.sites

structure Lexicon where
  owner : String
  knowsType : String → Bool
  knowsFunction : Call → Bool

namespace Lexicon

/-- What is wrong at a site itself. -/
def finding? (l : Lexicon) : Site → Option Finding
  | .type written =>
    if l.knowsType written.name then none else some ⟨written.span, .unknownType written.name⟩
  | .expr _ (.literal _ _) => none
  | .expr _ (.null span) => some ⟨span, .nullLiteral⟩
  | .expr names (.name name span) =>
    if name ∈ names then none else some ⟨span, .unknownVariable name⟩
  | .expr _ (.call name arguments span) =>
    if isIntrinsic name || l.knowsFunction ⟨name, arguments.length⟩ then none
    else some ⟨span, .unknownFunction name arguments.length l.owner⟩

def findings (l : Lexicon) (sites : List Site) : List Finding := sites.filterMap l.finding?

theorem finding_span {l : Lexicon} {site : Site} {f : Finding} (found : l.finding? site = some f) :
    f.span = site.span := by
  unfold finding? at found
  split at found
  · split at found
    · contradiction
    · cases found
      rfl
  · contradiction
  · cases found
    rfl
  · split at found
    · contradiction
    · cases found
      rfl
  · split at found
    · contradiction
    · cases found
      rfl

theorem findings_append (l : Lexicon) (left right : List Site) :
    l.findings (left ++ right) = l.findings left ++ l.findings right :=
  List.filterMap_append

theorem findings_call (l : Lexicon) (names : List String) (name : String) (arguments : List Expr)
    (span : Span) :
    l.findings (Expr.sites names (.call name arguments span)) =
      l.findings (arguments.flatMap (Expr.sites names)) ++
        (l.finding? (.expr names (.call name arguments span))).toList := by
  have sites : Expr.sites names (.call name arguments span) =
      arguments.flatMap (Expr.sites names) ++ [.expr names (.call name arguments span)] := by
    rw [Expr.sites, Expr.visits, Expr.visitsAll_eq, List.map_append, List.map_flatMap]
    rfl
  rw [sites, findings_append, findings, findings, List.filterMap_cons, List.filterMap_nil]
  cases l.finding? (.expr names (.call name arguments span)) <;> rfl

end Lexicon

def Surroundings.lexicon (s : Surroundings) : Lexicon where
  owner := s.owner
  knowsType name := (s.references.type? name).isSome
  knowsFunction call := (s.references.method? call).isSome

def Scope.names (scope : Scope) : List String := scope.map Prod.fst

theorem Scope.type?_eq_none {scope : Scope} {name : String} :
    scope.type? name = none ↔ name ∉ scope.names := by
  rw [type?, List.lookup_eq_none_iff, names, List.mem_map]
  constructor
  · rintro none ⟨entry, member, rfl⟩
    exact bne_iff_ne.mp (none entry (List.mem_reverse.mpr member)) rfl
  · intro none entry member
    exact bne_iff_ne.mpr fun same => none ⟨entry, List.mem_reverse.mp member, same.symm⟩

/-! ## Runs of emission -/

namespace Emission

variable {α β : Type}

/-- For every ledger the value is the same and the findings are the expected ones, and the value has a
property. -/
def Emits (expected : List Finding) (property : α → Prop) (x : Emit α) : Prop :=
  ∃ value, property value ∧
    ∀ ledger, ∃ instances, x.run ledger = (value, ⟨instances, ledger.findings ++ expected⟩)

namespace Emits

variable {property : α → Prop} {other : β → Prop} {expected more : List Finding}

protected theorem pure {value : α} (holds : property value) : Emits [] property (pure value) := by
  refine ⟨value, holds, fun ledger => ⟨ledger.instances, ?_⟩⟩
  rw [List.append_nil]
  rfl

protected theorem bind {x : Emit α} {f : α → Emit β} (first : Emits expected property x)
    (second : ∀ value, property value → Emits more other (f value)) :
    Emits (expected ++ more) other (x >>= f) := by
  obtain ⟨value, holds, runs⟩ := first
  obtain ⟨result, fine, continues⟩ := second value holds
  refine ⟨result, fine, fun ledger => ?_⟩
  obtain ⟨between, ran⟩ := runs ledger
  obtain ⟨instances, continued⟩ := continues ⟨between, ledger.findings ++ expected⟩
  refine ⟨instances, ?_⟩
  rw [StateT.run_bind, ran, ← List.append_assoc]
  exact continued

/-- What comes last reports nothing. -/
theorem map {x : Emit α} {f : α → β} (first : Emits expected property x)
    (fine : ∀ value, property value → other (f value)) :
    Emits expected other (x >>= fun value => pure (f value)) := by
  have whole := first.bind fun value holds => Emits.pure (fine value holds)
  rwa [List.append_nil] at whole

theorem instead {value : α} (span : Span) (fault : Fault) (holds : property value) :
    Emits [⟨span, fault⟩] property (do report span fault; pure value) :=
  ⟨value, holds, fun ledger => ⟨ledger.instances, rfl⟩⟩

theorem numbered {f : Nat → Emit α} {x : Emit α} (same : ∀ number, f number = x)
    (emits : Emits expected property x) : Emits expected property (nextInstance >>= f) := by
  obtain ⟨value, holds, runs⟩ := emits
  refine ⟨value, holds, fun ledger => ?_⟩
  obtain ⟨instances, ran⟩ := runs ⟨ledger.instances + 1, ledger.findings⟩
  refine ⟨instances, ?_⟩
  rw [StateT.run_bind, funext same]
  exact ran

theorem imp {x : Emit α} {weaker : α → Prop} (emits : Emits expected property x)
    (implies : ∀ value, property value → weaker value) : Emits expected weaker x := by
  obtain ⟨value, holds, runs⟩ := emits
  exact ⟨value, implies value holds, runs⟩

theorem run {x : Emit α} (emits : Emits expected property x) (ledger : Ledger) :
    property (x.run ledger).1 ∧ (x.run ledger).2.findings = ledger.findings ++ expected := by
  obtain ⟨value, holds, runs⟩ := emits
  obtain ⟨instances, ran⟩ := runs ledger
  rw [ran]
  exact ⟨holds, rfl⟩

/-- The value is what every run gives. -/
theorem always {x : Emit α} (emits : Emits expected property x) :
    Emits expected (fun value => (∀ ledger, (x.run ledger).1 = value) ∧ property value) x := by
  obtain ⟨value, holds, runs⟩ := emits
  refine ⟨value, ⟨fun ledger => ?_, holds⟩, runs⟩
  obtain ⟨instances, ran⟩ := runs ledger
  rw [ran]

end Emits

variable {s : Surroundings} {scope : Scope} {relation : Expr → Instruction → Prop}

/-! ## Expressions -/

/-- A relation that holds between expressions and all that is made of them, if it holds for the arguments
of calls that have a value. -/
structure Closed (s : Surroundings) (scope : Scope) (relation : Expr → Instruction → Prop) : Prop where
  literal (value : Literal) (span : Span) : relation (.literal value span) (.literal value)
  name {name : String} (span : Span) {type : TypeRef} (known : scope.type? name = some type) :
    relation (.name name span) (.access name type)
  print {i : Intrinsic} {name : String} {arguments kept : List Expr} (span : Span)
    {values : List Instruction} (intrinsic : Intrinsic.ofName? name = some i)
    (among : kept.Sublist arguments) (all : List.Forall₂ relation kept values) :
    relation (.call name arguments span)
      (Inlining.printing i (values.map Instruction.typeRef) values)
  call {target : MethodDeclaration} {name : String} {arguments : List Expr} (span : Span)
    {values : List Instruction} (known : s.references.method? ⟨name, arguments.length⟩ = some target)
    (all : List.Forall₂ relation arguments values) :
    relation (.call name arguments span) (invocation s.owner target values)

theorem closed_true : Closed s scope fun _ _ => True := by
  constructor <;> intros <;> trivial

/-- An expression has a value, which is related to it, or something was found in it. -/
structure Valued (relation : Expr → Instruction → Prop) (found : List Finding) (e : Expr)
    (result : Option Instruction) : Prop where
  related : ∀ i, result = some i → relation e i
  plain : Plain result.toList
  missing : result = none → found ≠ []

theorem Valued.some {found : List Finding} {e : Expr} {i : Instruction} (related : relation e i)
    (plain : i.Plain) : Valued relation found e (some i) :=
  ⟨fun _ same => Option.some.inj same ▸ related, .single plain, nofun⟩

theorem Valued.none {found : List Finding} {e : Expr} (wrong : found ≠ []) :
    Valued relation found e none :=
  ⟨nofun, .nil, fun _ => wrong⟩

structure AllValued (relation : Expr → Instruction → Prop) (found : List Finding) (exprs : List Expr)
    (made : List Instruction) : Prop where
  related : ∃ kept, kept.Sublist exprs ∧ List.Forall₂ relation kept made
  plain : Plain made
  missing : made.length ≠ exprs.length → found ≠ []

theorem inlineCall_emits (ordinary : s.Ordinary) {name : String} {i : Intrinsic}
    (named : Intrinsic.ofName? name = some i) (span : Span) {made : List Instruction}
    (plain : Plain made) :
    Emits [] (· = [Inlining.printing i (made.map Instruction.typeRef) made])
      (inlineCall s name span made) := by
  unfold inlineCall Inlining.inlineIntrinsic
  rw [ordinary.inliner, named]
  refine .numbered (fun number => ?_) (.pure rfl)
  dsimp only
  rw [Inlining.inline_instantiate i number plain]

theorem invocation_plain (owner : String) {target : MethodDeclaration} {arguments : List Instruction}
    (defaults : ∀ p ∈ target.parameters, ∀ default, p.default = some default → default.Plain)
    (plain : Plain arguments) : (invocation owner target arguments).Plain := by
  refine Instruction.invoke_plain (fun _ => rfl) (plain.append fun i given => ?_)
  obtain ⟨p, left, default⟩ := List.mem_filterMap.mp given
  exact defaults p (List.mem_of_mem_drop left) i default

/-- A call comes to one instruction, or to none if a value is missing or the function is unknown. -/
theorem call_emits (ordinary : s.Ordinary) (closed : Closed s scope relation) (name : String)
    (span : Span) {found : List Finding} {arguments : List Expr} {made : List Instruction}
    (values : AllValued relation found arguments made) :
    let wrong := (s.lexicon.finding? (.expr scope.names (.call name arguments span))).toList
    Emits wrong (fun code => ∃ one : Option Instruction, code = one.toList ∧
        Valued relation (found ++ wrong) (.call name arguments span) one)
      (call s name arguments.length span made) := by
  unfold call
  obtain ⟨⟨kept, among, all⟩, plain, missing⟩ := values
  by_cases intrinsic : isIntrinsic name = true
  · have fine : s.lexicon.finding? (.expr scope.names (.call name arguments span)) = none := by
      simp [Lexicon.finding?, intrinsic]
    obtain ⟨i, named⟩ := Option.isSome_iff_exists.mp intrinsic
    rw [if_pos intrinsic, fine]
    apply (inlineCall_emits ordinary named span plain).imp
    rintro _ rfl
    have own := closed.print span named among all
    exact ⟨some _, rfl, .some own (Instruction.invoke_plain (fun _ => rfl) plain)⟩
  · rw [if_neg intrinsic]
    cases known : s.references.method? ⟨name, arguments.length⟩ with
    | none =>
      have unknown : s.lexicon.finding? (.expr scope.names (.call name arguments span)) =
          some ⟨span, .unknownFunction name arguments.length s.owner⟩ := by
        simp [Lexicon.finding?, intrinsic, Surroundings.lexicon, known]
      rw [unknown]
      exact .instead span _ ⟨none, rfl, .none (by simp)⟩
    | some target =>
      have fine : s.lexicon.finding? (.expr scope.names (.call name arguments span)) = none := by
        simp [Lexicon.finding?, Surroundings.lexicon, known]
      rw [fine]
      dsimp only
      split
      · next complete =>
        obtain rfl : kept = arguments := among.eq_of_length (all.length_eq.trans complete)
        have made := invocation_plain s.owner (ordinary.known _ target known) plain
        exact .pure ⟨some _, rfl, .some (closed.call span known all) made⟩
      · next fewer => exact .pure ⟨none, rfl, .none (by simpa using missing fewer)⟩

/-- The arguments of a call are made first. -/
theorem values_call_emits (ordinary : s.Ordinary) (closed : Closed s scope relation) (name : String)
    (span : Span) {arguments : List Expr}
    (made : Emits (s.lexicon.findings (arguments.flatMap (Expr.sites scope.names)))
      (AllValued relation (s.lexicon.findings (arguments.flatMap (Expr.sites scope.names))) arguments)
      (values s scope arguments)) :
    Emits (s.lexicon.findings (Expr.sites scope.names (.call name arguments span)))
      (fun code => ∃ one : Option Instruction, code = one.toList ∧
        Valued relation (s.lexicon.findings (Expr.sites scope.names (.call name arguments span)))
          (.call name arguments span) one)
      (values s scope arguments >>= call s name arguments.length span) := by
  rw [Lexicon.findings_call]
  exact made.bind fun made values => call_emits ordinary closed name span values

/-- What comes to one instruction at most is its own value. -/
theorem single_toList (name : String) (span : Span) (one : Option Instruction) :
    single name span one.toList = pure one := by
  cases one <;> rfl

mutual

theorem value_emits (ordinary : s.Ordinary) (unmarked : scope.Unmarked)
    (closed : Closed s scope relation) : (e : Expr) →
    Emits (s.lexicon.findings (e.sites scope.names))
      (Valued relation (s.lexicon.findings (e.sites scope.names)) e) (value s scope e)
  | .literal literal span => by
    rw [value]
    exact .pure (.some (closed.literal literal span) fun _ _ => rfl)
  | .null span => by
    rw [value]
    exact .instead span _ (.none (List.cons_ne_nil _ _))
  | .name name span => by
    rw [value]
    cases known : scope.type? name with
    | some type =>
      have bound : name ∈ scope.names := by
        by_contra free
        simp [Scope.type?_eq_none.mpr free] at known
      have fine : s.lexicon.findings (Expr.sites scope.names (.name name span)) = [] := by
        simp [Lexicon.findings, Expr.sites, Expr.visits, Lexicon.finding?, bound]
      have plain : (Instruction.access name type).Plain := by
        intro other marked
        rw [Instruction.reads, if_neg]
        rintro rfl
        exact marked (unmarked.name known)
      rw [fine]
      exact .pure (.some (closed.name span known) plain)
    | none =>
      have wrong : s.lexicon.findings (Expr.sites scope.names (.name name span)) =
          [⟨span, .unknownVariable name⟩] := by
        simp [Lexicon.findings, Expr.sites, Expr.visits, Lexicon.finding?, Scope.type?_eq_none.mp known]
      rw [wrong]
      exact .instead span _ (.none (List.cons_ne_nil _ _))
  | .call name arguments span => by
    have made := values_emits ordinary unmarked closed arguments
    rw [value, ← bind_assoc, ← List.append_nil (s.lexicon.findings _)]
    apply (values_call_emits ordinary closed name span made).bind
    rintro _ ⟨one, rfl, own⟩
    rw [single_toList, List.append_nil]
    exact .pure own

theorem values_emits (ordinary : s.Ordinary) (unmarked : scope.Unmarked)
    (closed : Closed s scope relation) : (exprs : List Expr) →
    Emits (s.lexicon.findings (exprs.flatMap (Expr.sites scope.names)))
      (AllValued relation (s.lexicon.findings (exprs.flatMap (Expr.sites scope.names))) exprs)
      (values s scope exprs)
  | [] => by
    rw [values]
    exact .pure ⟨⟨[], .slnil, .nil⟩, .nil, fun differs => absurd rfl differs⟩
  | e :: rest => by
    rw [values, List.flatMap_cons, Lexicon.findings_append]
    refine (value_emits ordinary unmarked closed e).bind fun first own => ?_
    refine (values_emits ordinary unmarked closed rest).map fun others ⟨⟨kept, among, all⟩, plain, fewer⟩ => ?_
    refine ⟨?_, own.plain.append plain, fun differs absent => ?_⟩
    · cases first with
      | none => exact ⟨kept, among.cons e, all⟩
      | some i => exact ⟨e :: kept, among.cons_cons e, .cons (own.related i rfl) all⟩
    · obtain ⟨noneHere, noneBehind⟩ := List.append_eq_nil_iff.mp absent
      cases first with
      | none => exact own.missing rfl noneHere
      | some i =>
        refine fewer (fun same => differs ?_) noneBehind
        simp [same]

end

/-- A statement comes to at most one instruction, and to one if it has no finding. -/
theorem statement_emits (ordinary : s.Ordinary) (unmarked : scope.Unmarked)
    (closed : Closed s scope relation) (e : Expr) :
    Emits (s.lexicon.findings (e.sites scope.names))
      (fun code => ∃ one : Option Instruction, code = one.toList ∧
        Valued relation (s.lexicon.findings (e.sites scope.names)) e one) (statement s scope e) := by
  cases e with
  | call name arguments span =>
    exact values_call_emits ordinary closed name span (values_emits ordinary unmarked closed arguments)
  | literal | null | name =>
    rw [statement]
    · exact (value_emits ordinary unmarked closed _).map fun result own => ⟨result, rfl, own⟩
    · nofun

end Emission

end UnitCompiler
