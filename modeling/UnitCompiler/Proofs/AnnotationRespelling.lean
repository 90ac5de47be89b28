import UnitCompiler.Proofs.BuiltInTypes

/-! Units that differ in how a type is written in their annotations. If the path is written in place of an
alias for it, a compilation comes to the same, except for what the built-in types have to say: they are looked
up by what is written, before an alias is replaced. -/

namespace UnitCompiler

/-! ## Other annotations -/

section Renaming

variable (rename : String → String)

def TypeName.renamed (type : TypeName) : TypeName := ⟨rename type.name, Derivation.nowhere⟩

def Param.renamed (p : Param) : Param := { p.bare with type := p.type.map (TypeName.renamed rename) }

def Function.renamed (f : Function) : Function :=
  { f.bare with parameters := f.parameters.map (Param.renamed rename) }

def Item.renamed : Item → Item
  | .function f => .function (f.renamed rename)
  | .statement e => .statement e.bare

def UnitTree.renamed (tree : UnitTree) : UnitTree :=
  ⟨tree.imports.map ImportLine.bare, tree.items.map (Item.renamed rename)⟩

def Site.renamed : Site → Site
  | .type written => .type (written.renamed rename)
  | .expr names e => .expr names e.bare

end Renaming

namespace Expr

mutual

theorem visits_bare : (e : Expr) → e.bare.visits = e.visits.map bare
  | .literal _ _ | .null _ | .name _ _ => by simp only [bare, visits, List.map_cons, List.map_nil]
  | .call function arguments span => by
    simp only [bare, visits, List.map_append, List.map_cons, List.map_nil, visitsAll_bare arguments]

theorem visitsAll_bare : (exprs : List Expr) → visitsAll (bareAll exprs) = (visitsAll exprs).map bare
  | [] => rfl
  | e :: rest => by
    rw [bareAll, visitsAll, visitsAll, List.map_append, visits_bare e, visitsAll_bare rest]

end

end Expr

section Sites

variable (rename : String → String)

theorem Expr.sites_bare (names : List String) (e : Expr) :
    e.bare.sites names = (e.sites names).map (Site.renamed rename) := by
  rw [sites, visits_bare, sites, List.map_map, List.map_map]
  rfl

theorem Expr.flatMap_sites_bare (names : List String) (exprs : List Expr) :
    (exprs.map bare).flatMap (sites names) = (exprs.flatMap (sites names)).map (Site.renamed rename) := by
  rw [List.flatMap_map, List.map_flatMap]
  exact List.flatMap_congr fun e _ => e.sites_bare rename names

theorem Param.sites_renamed (p : Param) :
    (p.renamed rename).sites = p.sites.map (Site.renamed rename) := by
  have types : (p.type.map (TypeName.renamed rename)).toList.map Site.type =
      (p.type.toList.map Site.type).map (Site.renamed rename) := by
    cases p.type <;> rfl
  have default : p.default.toList.map Expr.bare = (p.default.map Expr.bare).toList := by
    cases p.default <;> rfl
  rw [sites, sites, List.map_append, ← Expr.flatMap_sites_bare, ← types, default]
  rfl

theorem Function.sites_renamed (f : Function) :
    (f.renamed rename).sites = f.sites.map (Site.renamed rename) := by
  have names : (f.parameters.map (Param.renamed rename)).map Param.name = f.parameters.map Param.name := by
    rw [List.map_map]
    rfl
  have parameters : (f.parameters.map (Param.renamed rename)).flatMap Param.sites =
      (f.parameters.flatMap Param.sites).map (Site.renamed rename) := by
    rw [List.flatMap_map, List.map_flatMap]
    exact List.flatMap_congr fun p _ => p.sites_renamed rename
  rw [sites, sites, List.map_append, ← Expr.flatMap_sites_bare, ← parameters, ← names]
  rfl

namespace UnitTree

variable (tree : UnitTree)

theorem functions_renamed :
    (tree.renamed rename).functions = tree.functions.map (Function.renamed rename) := by
  rw [functions, functions, renamed, List.filterMap_map, List.map_filterMap]
  exact List.filterMap_congr fun item _ => by cases item <;> rfl

theorem statements_renamed : (tree.renamed rename).statements = tree.statements.map Expr.bare := by
  rw [statements, statements, renamed, List.filterMap_map, List.map_filterMap]
  exact List.filterMap_congr fun item _ => by cases item <;> rfl

theorem importTable_renamed : (tree.renamed rename).importTable = tree.importTable := by
  rw [importTable, importTable, renamed, List.map_map]
  rfl

theorem sites_renamed : (tree.renamed rename).sites = tree.sites.map (Site.renamed rename) := by
  have functions : (tree.functions.map (Function.renamed rename)).flatMap Function.sites =
      (tree.functions.flatMap Function.sites).map (Site.renamed rename) := by
    rw [List.flatMap_map, List.map_flatMap]
    exact List.flatMap_congr fun f _ => f.sites_renamed rename
  rw [sites, sites, List.map_append, functions_renamed, statements_renamed, functions,
    Expr.flatMap_sites_bare rename]

end UnitTree

end Sites

/-- Where each name is known just if the other is, as much is wrong. -/
theorem Lexicon.length_findings_renamed {l : Lexicon} {rename : String → String}
    (steady : ∀ name, l.knowsType (rename name) = l.knowsType name) (tree : UnitTree) :
    (l.findings (tree.renamed rename).sites).length = (l.findings tree.sites).length := by
  have each (site : Site) : (l.finding? (site.renamed rename)).isSome = (l.finding? site).isSome := by
    cases site with
    | type written =>
      simp only [Site.renamed, TypeName.renamed, finding?, steady]
      cases l.knowsType written.name <;> rfl
    | expr names e =>
      cases e with
      | literal | null => rfl
      | name word span =>
        simp only [Site.renamed, Expr.bare, finding?]
        split <;> rfl
      | call word arguments span =>
        simp only [Site.renamed, Expr.bare, finding?, Expr.bareAll_eq, List.length_map]
        split <;> rfl
  rw [findings, findings, UnitTree.sites_renamed, List.filterMap_map, List.length_filterMap_eq_countP,
    List.length_filterMap_eq_countP]
  exact List.countP_congr fun site _ => by rw [Function.comp_apply, each]

/-! ## Methods -/

namespace Outline

/-- A default is known from the start just if it is a literal. -/
theorem guessParameter_renamed (rename : String → String) (imports imports' : List Import)
    (package package' : String) (p : Param) :
    (guessParameter imports' package' (p.renamed rename)).default.isSome =
      (guessParameter imports package p).default.isSome := by
  cases known : p.default with
  | none => simp [guessParameter, Param.renamed, Param.bare, known]
  | some e => cases e <;> simp [guessParameter, Param.renamed, Param.bare, known, Expr.bare, literal?]

/-- What calls a function takes does not depend on annotations. -/
theorem accepts_renamed (rename : String → String) (imports imports' : List Import)
    (package package' : String) (f : Function) (name : String) (arity : Nat) :
    (Signature.ofMethod name (.accepting arity)).accepts (skeleton imports' package' (f.renamed rename)) =
      (Signature.ofMethod name (.accepting arity)).accepts (skeleton imports package f) := by
  have parameters : (CallForm.accepting arity).fits
        ((f.parameters.map (Param.renamed rename)).map (guessParameter imports' package')) =
      (CallForm.accepting arity).fits (f.parameters.map (guessParameter imports package)) := by
    simp [CallForm.fits, ← List.map_drop, List.all_map, Function.comp_def,
      guessParameter_renamed rename imports imports' package package']
  exact congrArg (f.name == name && ·) parameters

end Outline

/-- Two outlines of units that differ only in what their annotations and spans are. -/
structure Outline.Respelled (rename : String → String) (o o' : Outline) : Prop where
  unit : o'.unit = { o.unit with content := o'.unit.content }
  tree : o'.tree.renamed rename = o.tree.renamed rename

namespace Outline.Respelled

variable {rename : String → String} {o o' : Outline}

theorem owner (respelled : o.Respelled rename o') : o'.owner = o.owner := by
  rw [Outline.owner, respelled.unit]
  rfl

theorem packageName (respelled : o.Respelled rename o') : o'.unit.packageName = o.unit.packageName := by
  rw [respelled.unit]
  rfl

theorem importTable (respelled : o.Respelled rename o') : o'.tree.importTable = o.tree.importTable := by
  rw [← UnitTree.importTable_renamed rename, respelled.tree, UnitTree.importTable_renamed]

/-- They have methods for the same calls. -/
theorem methods (respelled : o.Respelled rename o') (whole : o.Whole) (whole' : o'.Whole) (name : String)
    (arity : Nat) :
    o'.methods.any (Signature.ofMethod name (.accepting arity)).accepts =
      o.methods.any (Signature.ofMethod name (.accepting arity)).accepts := by
  have view {o : Outline} (whole : o.Whole) :
      o.methods.any (Signature.ofMethod name (.accepting arity)).accepts =
        (entrypoint :: (o.tree.renamed rename).functions.map (skeleton [] "")).any
          (Signature.ofMethod name (.accepting arity)).accepts := by
    have each : (Signature.ofMethod name (.accepting arity)).accepts ∘
          skeleton o.tree.importTable o.unit.packageName =
        ((Signature.ofMethod name (.accepting arity)).accepts ∘ skeleton [] "") ∘ Function.renamed rename :=
      funext fun f => (accepts_renamed rename _ _ _ _ f name arity).symm
    rw [whole.methods, UnitTree.functions_renamed, List.any_cons, List.any_map, each, ← List.any_map,
      ← List.any_map, ← List.any_cons]
  rw [view whole, view whole', respelled.tree]

end Outline.Respelled

/-! ## Catalogues -/

def Plan.Fills {α : Type} (plan : Plan α) (units : List SourceUnit) (log : Log α) : Prop :=
  ∀ entry, entry ∈ log ↔ ∃ unit ∈ units, entry ∈ plan.ofUnit Toolchain.standard.grammar unit

def SourceUnit.replaced (unit other : SourceUnit) (u : SourceUnit) : SourceUnit :=
  if u = unit then other else u

/-- What is found in what some units register is found where another unit registers as much in the place of
one of them. -/
theorem Plan.Fills.exists_iff {α : Type} {plan : Plan α} {units : List SourceUnit} {unit other : SourceUnit}
    {log log' : Log α} (fills : plan.Fills units log)
    (fills' : plan.Fills (units.map (SourceUnit.replaced unit other)) log') {wanted : String × α → Prop}
    (same : (∃ entry ∈ plan.ofUnit Toolchain.standard.grammar other, wanted entry) ↔
      ∃ entry ∈ plan.ofUnit Toolchain.standard.grammar unit, wanted entry) :
    (∃ entry ∈ log', wanted entry) ↔ ∃ entry ∈ log, wanted entry := by
  have each (u : SourceUnit) :
      (∃ entry ∈ plan.ofUnit Toolchain.standard.grammar (SourceUnit.replaced unit other u), wanted entry) ↔
        ∃ entry ∈ plan.ofUnit Toolchain.standard.grammar u, wanted entry := by
    unfold SourceUnit.replaced
    split
    · next own => rwa [own]
    · rfl
  have told {units : List SourceUnit} {log : Log α} (fills : plan.Fills units log) :
      (∃ entry ∈ log, wanted entry) ↔
        ∃ u ∈ units, ∃ entry ∈ plan.ofUnit Toolchain.standard.grammar u, wanted entry := by
    constructor
    · rintro ⟨entry, inside, found⟩
      obtain ⟨u, member, registers⟩ := (fills entry).mp inside
      exact ⟨u, member, entry, registers, found⟩
    · rintro ⟨u, member, entry, registers, found⟩
      exact ⟨entry, (fills entry).mpr ⟨u, member, registers⟩, found⟩
  rw [told fills, told fills']
  simp only [List.mem_map, exists_exists_and_eq_and]
  exact exists_congr fun u => and_congr_right fun _ => each u

theorem Log.isSome_first?_iff {α : Type} [Named α] {log : Log α} {owner : String} {signature : Signature α} :
    (log.first? owner signature).isSome = true ↔
      ∃ entry ∈ log, entry.1 = owner ∧ signature.accepts entry.2 = true := by
  rw [Option.isSome_iff_ne_none, Ne, first?_eq_none_iff]
  simp only [not_forall, Bool.not_eq_false, exists_prop]

namespace Catalogue

structure Holds (catalogue : Catalogue) (units : List SourceUnit) : Prop where
  types : Outline.typePlan.Fills units catalogue.types
  methods : Outline.methodPlan.Fills units catalogue.methods

structure Agrees (catalogue catalogue' : Catalogue) : Prop where
  types (owner candidate : String) :
    ((catalogue'.meaning owner).type candidate).isSome = ((catalogue.meaning owner).type candidate).isSome
  methods (owner : String) (call : Call) :
    ((catalogue'.meaning owner).method call).isSome = ((catalogue.meaning owner).method call).isSome

variable {catalogue catalogue' : Catalogue} {unit other : SourceUnit} {o o' : Outline}
  {rename : String → String}

theorem Holds.agrees {units : List SourceUnit} (holds : catalogue.Holds units)
    (holds' : catalogue'.Holds (units.map (SourceUnit.replaced unit other)))
    (read : Outline.read Toolchain.standard.grammar unit = .ok o)
    (read' : Outline.read Toolchain.standard.grammar other = .ok o') (respelled : o.Respelled rename o') :
    catalogue.Agrees catalogue' := by
  constructor
  · intro owner candidate
    rw [Bool.eq_iff_iff, meaning, meaning, Log.isSome_first?_iff, Log.isSome_first?_iff]
    refine holds.types.exists_iff holds'.types ?_
    have type : o'.type = o.type := by
      rw [Outline.type, respelled.owner, respelled.unit]
      rfl
    rw [Outline.typePlan_ofUnit read, Outline.typePlan_ofUnit read', respelled.owner, type]
  · intro owner call
    rw [Bool.eq_iff_iff, meaning, meaning, Log.isSome_first?_iff, Log.isSome_first?_iff]
    refine holds.methods.exists_iff holds'.methods ?_
    have same := respelled.methods (Toolchain.read_whole read) (Toolchain.read_whole read') call.name
      call.arity
    rw [Outline.methodPlan_ofUnit read, Outline.methodPlan_ofUnit read', respelled.owner]
    rw [Bool.eq_iff_iff, List.any_eq_true, List.any_eq_true] at same
    simp only [List.mem_map, exists_exists_and_eq_and]
    constructor
    · rintro ⟨m, member, own, accepts⟩
      obtain ⟨m, member, accepts⟩ := same.mp ⟨m, member, accepts⟩
      exact ⟨m, member, own, accepts⟩
    · rintro ⟨m, member, own, accepts⟩
      obtain ⟨m, member, accepts⟩ := same.mpr ⟨m, member, accepts⟩
      exact ⟨m, member, own, accepts⟩

/-- Only the names of the declared types matter. -/
theorem type?_eq_find? (catalogue : Catalogue) (o : Outline) (name : String) :
    catalogue.type? o name = ((Import.typeCandidates o.tree.importTable o.unit.packageName name).find?
      fun candidate => ((catalogue.meaning o.owner).type candidate).isSome).map .named := by
  rw [type?]
  induction Import.typeCandidates o.tree.importTable o.unit.packageName name with
  | nil => rfl
  | cons candidate rest ih =>
    cases found : (catalogue.meaning o.owner).type candidate with
    | none => simpa [found] using ih
    | some d => simp [found, meaning_type found]

theorem Agrees.type? (agrees : catalogue.Agrees catalogue') (respelled : o.Respelled rename o')
    (name : String) : catalogue'.type? o' name = catalogue.type? o name := by
  rw [type?_eq_find?, type?_eq_find?, respelled.importTable, respelled.packageName, respelled.owner]
  simp only [agrees.types]

theorem Agrees.lexicon (agrees : catalogue.Agrees catalogue') (respelled : o.Respelled rename o') :
    catalogue'.lexicon o' = catalogue.lexicon o := by
  rw [Catalogue.lexicon, Catalogue.lexicon, Lexicon.mk.injEq]
  refine ⟨respelled.owner, funext fun name => ?_, funext fun call => ?_⟩
  · rw [agrees.type? respelled]
  · rw [respelled.owner, agrees.methods]

/-- As much is reported about both, if the other names are known just if the first ones are. -/
theorem Agrees.length_reports (agrees : catalogue.Agrees catalogue') (respelled : o.Respelled rename o')
    (plain : catalogue.Plain) (plain' : catalogue'.Plain)
    (read : Outline.read Toolchain.standard.grammar unit = .ok o)
    (read' : Outline.read Toolchain.standard.grammar other = .ok o')
    (steady : ∀ name, (catalogue.denoted o (rename name)).isSome = (catalogue.denoted o name).isSome) :
    (Toolchain.standard.declaration catalogue' o').2.length =
      (Toolchain.standard.declaration catalogue o).2.length := by
  have known (name : String) :
      (catalogue.lexicon o).knowsType (rename name) = (catalogue.lexicon o).knowsType name := by
    rw [knowsType_eq, knowsType_eq, steady]
  rw [(Toolchain.declaration_accounts plain read).1, (Toolchain.declaration_accounts plain' read').1,
    List.length_map, List.length_map, agrees.lexicon respelled, ← Lexicon.length_findings_renamed known o'.tree,
    ← Lexicon.length_findings_renamed known o.tree, respelled.tree]

/-- Nothing changes for the other units. -/
theorem Agrees.length_diagnosticsBy (agrees : catalogue.Agrees catalogue') (plain : catalogue.Plain)
    (plain' : catalogue'.Plain) (u : SourceUnit) :
    (Toolchain.standard.diagnosticsBy catalogue' u).length =
      (Toolchain.standard.diagnosticsBy catalogue u).length := by
  cases read : Outline.read Toolchain.standard.grammar u with
  | error failure =>
    rw [Toolchain.diagnosticsBy_of_error _ _ read, Toolchain.diagnosticsBy_of_error _ _ read]
  | ok o =>
    rw [Toolchain.diagnosticsBy_of_read _ _ read, Toolchain.diagnosticsBy_of_read _ _ read]
    have same : o.Respelled id o := ⟨rfl, rfl⟩
    exact agrees.length_reports same plain plain' read read fun _ => rfl

end Catalogue

/-! ## Aliases -/

/-- The tree has one import with an alias, which brings in a unit or whatever has that path, and none whose
alias is the first part of the path. -/
structure UnitTree.AliasesOnce (tree : UnitTree) (short path : String) : Prop where
  single : ∃ line, tree.imports.filter (fun line => line.shortName = some short) = [line] ∧
    line.names = [] ∧ line.path = path
  apart : ∀ line ∈ tree.imports, line.shortName ≠ (Text.segments path).head?

namespace Text

theorem head?_segments_of_notMem {name : String} (simple : '.' ∉ name.toList) :
    (segments name).head? = some name := by
  rw [segments, pieces_of_notMem simple, List.map_singleton, String.ofList_toList]
  rfl

theorem head?_segments_append {head : String} (simple : '.' ∉ head.toList) (rest : String) :
    (segments (head ++ "." ++ rest)).head? = some head := by
  have parts : (head ++ "." ++ rest).toList = head.toList ++ '.' :: rest.toList := by simp
  rw [segments, parts, pieces_append, pieces_of_notMem simple, List.singleton_append, List.map_cons,
    String.ofList_toList]
  rfl

end Text

/-- A name behind the alias and one behind the path have the same single candidate. -/
theorem UnitTree.AliasesOnce.candidates {tree : UnitTree} {short path : String}
    (aliases : tree.AliasesOnce short path) (simple : '.' ∉ short.toList) (package rest : String) :
    tree.Candidates package (short ++ "." ++ rest) [path ++ "." ++ rest] ∧
      tree.Candidates package (path ++ "." ++ rest) [path ++ "." ++ rest] := by
  obtain ⟨⟨line, only, whole, rfl⟩, apart⟩ := aliases
  constructor
  · obtain ⟨before, after, lines, others, own, -⟩ := List.filter_eq_cons_iff.mp only
    refine .aliased short rest simple before line after lines ⟨whole, of_decide_eq_true own⟩ ?_
    intro other member aliased
    exact others other member (decide_eq_true aliased.2)
  · have unaliased {head : String} (first : (Text.segments line.path).head? = some head) :
        ∀ other ∈ tree.imports, ¬other.Aliases head := by
      intro other member aliased
      exact apart other member (aliased.2.trans first.symm)
    by_cases dotted : '.' ∈ line.path.toList
    · obtain ⟨head, more, undotted, same⟩ := dotted_parts dotted
      have parts : line.path ++ "." ++ rest = head ++ "." ++ (more ++ "." ++ rest) := by
        rw [same]
        simp only [String.append_assoc]
      rw [parts]
      exact .dotted head _ undotted (unaliased (same ▸ Text.head?_segments_append undotted more))
    · exact .dotted line.path rest dotted (unaliased (Text.head?_segments_of_notMem dotted))

/-- No alias has a dot. -/
theorem UnitTree.AliasesOnce.simple {unit : SourceUnit} {o : Outline} {short path : String}
    (aliases : o.tree.AliasesOnce short path)
    (read : Outline.read Toolchain.standard.grammar unit = .ok o) : '.' ∉ short.toList := by
  obtain ⟨⟨line, only, -⟩, -⟩ := aliases
  obtain ⟨source, tree, parsed, rfl⟩ := Toolchain.read_standard read
  obtain ⟨member, own⟩ := List.mem_filter.mp (only ▸ List.mem_singleton_self line)
  intro inside
  have part := UnitTree.parse_alias parsed member (of_decide_eq_true own) '.' inside
  contradiction

/-- If all other names have a type that is not built-in, the type of a name tells which built-in type it is. -/
theorem getD_builtInType_inj {name name' : String} {type : TypeRef}
    (apart : ∀ name, builtInType name ≠ some type) :
    (builtInType name).getD type = (builtInType name').getD type ↔ builtInType name = builtInType name' := by
  cases first : builtInType name with
  | none =>
    cases second : builtInType name' with
    | none => simp
    | some other =>
      have different : other ≠ type := fun same => apart name' (same ▸ second)
      simp [different.symm]
  | some one =>
    have different : one ≠ type := fun same => apart name (same ▸ first)
    cases second : builtInType name' with
    | none => simp [different]
    | some other => simp

theorem builtInType_ne_dynamic (name : String) : builtInType name ≠ some .dynamic := by
  intro known
  have each : ∀ entry ∈ builtIns, entry.2 ≠ .dynamic := by decide
  exact each _ (builtInType_eq_some.mp known) rfl

/-! ## Names written out -/

def writeOut (first second name : String) : String := if name = first then second else name

/-- A unit, and the same unit with another content: the annotation of a parameter is an alias and a name in
the one, and the path of the alias and the name in the other. Nothing else differs but how this type is
written. -/
structure WrittenOut (unit other : SourceUnit) (o o' : Outline) (short path rest : String)
    (place : Nat × Nat) : Prop where
  read : Outline.read Toolchain.standard.grammar unit = .ok o
  read' : Outline.read Toolchain.standard.grammar other = .ok o'
  file : other = { unit with content := other.content }
  aliases : o.tree.AliasesOnce short path
  tree : o'.tree.renamed (writeOut (short ++ "." ++ rest) (path ++ "." ++ rest)) =
    o.tree.renamed (writeOut (short ++ "." ++ rest) (path ++ "." ++ rest))
  aliased : ((o.parameter? place).bind Param.type).map TypeName.name = some (short ++ "." ++ rest)
  full : ((o'.parameter? place).bind Param.type).map TypeName.name = some (path ++ "." ++ rest)

/-- A parameter has the same type in both declarations just if a condition holds, and then as much is
reported. -/
def CoincideIff (condition : Prop) (place : Nat × Nat) (d d' : TypeDeclaration)
    (reports reports' : List Diagnostic) : Prop :=
  ∃ made made', d.parameter? place = some made ∧ d'.parameter? place = some made' ∧
    (made.type = made'.type ↔ condition) ∧ (condition → reports.length = reports'.length)

/-- A parameter has the type that the name in its annotation stands for. -/
theorem Outline.Annotated.typed {o : Outline} {meaning : String → Option TypeRef} {reports : List Diagnostic}
    {d : TypeDeclaration} (annotated : o.Annotated meaning reports d) {place : Nat × Nat} {name : String}
    (written : ((o.parameter? place).bind Param.type).map TypeName.name = some name) :
    ∃ made, d.parameter? place = some made ∧ made.type = (meaning name).getD .dynamic := by
  obtain ⟨type, found, rfl⟩ := Option.map_eq_some_iff.mp written
  obtain ⟨p, there, typed⟩ := Option.bind_eq_some_iff.mp found
  obtain ⟨made, own, same⟩ := annotated.parameter? there
  rw [typed] at same
  exact ⟨made, own, same⟩

namespace WrittenOut

variable {unit other : SourceUnit} {o o' : Outline} {short path rest : String} {place : Nat × Nat}
  {catalogue catalogue' : Catalogue} {units : List SourceUnit}

theorem respelled (written : WrittenOut unit other o o' short path rest place) :
    o.Respelled (writeOut (short ++ "." ++ rest) (path ++ "." ++ rest)) o' := by
  refine ⟨?_, written.tree⟩
  rw [Outline.read_unit written.read, Outline.read_unit written.read']
  exact written.file

theorem denoted (written : WrittenOut unit other o o' short path rest place) (catalogue : Catalogue) :
    ∃ declared : Option TypeRef, (∀ name, builtInType name ≠ some (declared.getD .dynamic)) ∧
      catalogue.denoted o (short ++ "." ++ rest) = (builtInType (short ++ "." ++ rest)).or declared ∧
      catalogue.denoted o (path ++ "." ++ rest) = (builtInType (path ++ "." ++ rest)).or declared := by
  obtain ⟨aliased, full⟩ := written.aliases.candidates (written.aliases.simple written.read)
    o.unit.packageName rest
  refine ⟨_, fun name => ?_, catalogue.denoted_of_candidate aliased, catalogue.denoted_of_candidate full⟩
  cases (catalogue.meaning o.owner).type (path ++ "." ++ rest) with
  | none => exact builtInType_ne_dynamic name
  | some d => exact builtInType_ne_named name _

theorem length_reports (written : WrittenOut unit other o o' short path rest place)
    (agrees : catalogue.Agrees catalogue') (plain : catalogue.Plain) (plain' : catalogue'.Plain)
    (same : builtInType (short ++ "." ++ rest) = builtInType (path ++ "." ++ rest)) :
    (Toolchain.standard.declaration catalogue' o').2.length =
      (Toolchain.standard.declaration catalogue o).2.length := by
  obtain ⟨declared, -, aliased, full⟩ := written.denoted catalogue
  refine agrees.length_reports written.respelled plain plain' written.read written.read' fun name => ?_
  unfold writeOut
  split
  · next own => rw [own, full, aliased, same]
  · rfl

theorem coincide (written : WrittenOut unit other o o' short path rest place)
    (agrees : catalogue.Agrees catalogue') (plain : catalogue.Plain) (plain' : catalogue'.Plain)
    {reports reports' : List Diagnostic}
    (length : builtInType (short ++ "." ++ rest) = builtInType (path ++ "." ++ rest) →
      reports.length = reports'.length) :
    CoincideIff (builtInType (short ++ "." ++ rest) = builtInType (path ++ "." ++ rest)) place
      (Toolchain.standard.declaration catalogue o).1.declaration
      (Toolchain.standard.declaration catalogue' o').1.declaration reports reports' := by
  obtain ⟨declared, apart, aliased, full⟩ := written.denoted catalogue
  obtain ⟨made, there, type⟩ := (Toolchain.declaration_annotated plain written.read).typed written.aliased
  obtain ⟨made', there', type'⟩ := (Toolchain.declaration_annotated plain' written.read').typed written.full
  rw [aliased, Option.getD_or] at type
  rw [Catalogue.denoted, agrees.type? written.respelled, ← Catalogue.denoted, full, Option.getD_or] at type'
  refine ⟨made, made', there, there', ?_, length⟩
  rw [type, type']
  exact getD_builtInType_inj apart

theorem compiles (written : WrittenOut unit other o o' short path rest place) (own : unit.compiles = true) :
    other.compiles = true := by
  have name : other.qualifiedName = unit.qualifiedName := by
    rw [written.file]
    rfl
  rw [SourceUnit.compiles, Bool.and_eq_true] at own
  rw [SourceUnit.compiles, name, own.2, Bool.and_true, SourceUnit.parses_eq other rfl, written.read']
  rfl

theorem length_diagnosticsBy (written : WrittenOut unit other o o' short path rest place)
    (agrees : catalogue.Agrees catalogue') (plain : catalogue.Plain) (plain' : catalogue'.Plain)
    (same : builtInType (short ++ "." ++ rest) = builtInType (path ++ "." ++ rest)) (u : SourceUnit) :
    (Toolchain.standard.diagnosticsBy catalogue' (SourceUnit.replaced unit other u)).length =
      (Toolchain.standard.diagnosticsBy catalogue u).length := by
  unfold SourceUnit.replaced
  split
  · next own =>
    rw [own, Toolchain.diagnosticsBy_of_read _ _ written.read,
      Toolchain.diagnosticsBy_of_read _ _ written.read']
    exact written.length_reports agrees plain plain' same
  · exact agrees.length_diagnosticsBy plain plain' u

theorem length_flatMap (written : WrittenOut unit other o o' short path rest place)
    (agrees : catalogue.Agrees catalogue') (plain : catalogue.Plain) (plain' : catalogue'.Plain)
    (same : builtInType (short ++ "." ++ rest) = builtInType (path ++ "." ++ rest))
    (units : List SourceUnit) :
    ((units.map (SourceUnit.replaced unit other)).flatMap
        (Toolchain.standard.diagnosticsBy catalogue')).length =
      (units.flatMap (Toolchain.standard.diagnosticsBy catalogue)).length := by
  rw [List.length_flatMap, List.length_flatMap, List.map_map]
  exact congrArg List.sum
    (List.map_congr_left fun u _ => written.length_diagnosticsBy agrees plain plain' same u)

end WrittenOut

/-- In the end the tables hold what the accepted units register. -/
theorem Pipeline.Foreseen.holds {settings : Settings} {input : List Input} {p : Pipeline}
    (foreseen : Foreseen settings input p) (collected : p.isFinished = true) :
    p.tables.accepted.Holds (Input.accepted settings.inputErrors input) := by
  obtain ⟨⟨_, types⟩, _, methods⟩ := foreseen.interleaved collected
  refine ⟨fun entry => ⟨types.source, ?_⟩, fun entry => ⟨methods.source, ?_⟩⟩
  · rintro ⟨unit, member, registers⟩
    exact types.mem member registers
  · rintro ⟨unit, member, registers⟩
    exact methods.mem member registers

def Conclusion.Among (c : Conclusion) (units : List SourceUnit) : Prop :=
  ∃ capacity number schedule t,
    Translation.execute { session := .standard capacity number } schedule = some t ∧ c ∈ t.conclusions ∧
    t.session.tables.accepted.Holds units

theorem Toolchain.holds_catalogue (units : List SourceUnit) : (standard.catalogue units).Holds units :=
  ⟨fun _ => List.mem_flatMap, fun _ => List.mem_flatMap⟩

/-- Any units can be declared, and any unit be resolved among them. -/
theorem Conclusion.exists_among (units : List SourceUnit) {unit : SourceUnit} {o : Outline}
    (read : Outline.read Toolchain.standard.grammar unit = .ok o) :
    ∃ c : Conclusion, c.Among units ∧ c.outline = o := by
  obtain ⟨schedule, t, reached, -, -, conducted⟩ :=
    Translation.operateAll_conducted 1 1 (Session.Operation.last units unit)
  obtain ⟨orderly, kept⟩ := Translation.execute_kept 1 1 reached
  have started : t.started[0]? = some o := by
    have none : (units.map Session.Operation.declare).filterMap Session.Operation.outline? = [] := by
      simp [Session.Operation.outline?]
    have own : Session.Operation.outline? (.resolve unit) = some o :=
      Toolchain.standard.outline?_eq_some_iff.mpr read
    rw [conducted.started, Session.Operation.last, List.filterMap_append, none, List.nil_append,
      List.filterMap_cons_none rfl, List.filterMap_cons_some own]
    rfl
  obtain ⟨ended, accepted⟩ := conducted.ended (by simp [Session.Operation.last])
  obtain ⟨c, member, index, -⟩ := kept.concluded orderly conducted.rest ended
    (List.getElem?_eq_some_iff.mp started).1
  have about := kept.foreseen.recorded.concluded c member
  rw [index, started] at about
  refine ⟨c, ⟨1, 1, schedule, t, reached, member, ?_⟩, (Option.some.inj about).symm⟩
  rw [accepted, Session.Operation.declared_last]
  exact Toolchain.holds_catalogue units

/-- The path of an alias is written in its place in an annotation. Among any units that are declared in a
session, and in a compilation of any units, the parameter then has the same type just if the built-in types do
not tell the two names apart as they are written; and if so, as much is reported. -/
theorem aliases_transparent_iff {unit other : SourceUnit} {o o' : Outline} {short path rest : String}
    {place : Nat × Nat} (written : WrittenOut unit other o o' short path rest place) :
    let same := builtInType (short ++ "." ++ rest) = builtInType (path ++ "." ++ rest)
    (∀ units, let units' := units.map (SourceUnit.replaced unit other)
      (∃ c : Conclusion, c.Among units ∧ c.outline = o) ∧ (∃ c : Conclusion, c.Among units' ∧ c.outline = o') ∧
      ∀ c c' : Conclusion, c.Among units → c.outline = o → c'.Among units' → c'.outline = o' →
        ∃ declared declared', c.result = .ok declared ∧ c'.result = .ok declared' ∧
          CoincideIff same place declared.declaration declared'.declaration c.reports c'.reports) ∧
    ∀ settings input schedule p settings' input' schedule' p',
      (Pipeline.start .standard settings input none).execute schedule = some p → p.isFinished = true →
      (Pipeline.start .standard settings' input' none).execute schedule' = some p' → p'.isFinished = true →
      Input.accepted settings'.inputErrors input' =
        (Input.accepted settings.inputErrors input).map (SourceUnit.replaced unit other) →
      unit ∈ Input.accepted settings.inputErrors input → unit.compiles = true →
        ∃ c ∈ p.received, ∃ c' ∈ p'.received, c.declared.unit = unit ∧ c'.declared.unit = other ∧
          CoincideIff same place c.declared.declaration c'.declared.declaration p.summary.diagnostics
            p'.summary.diagnostics := by
  intro same
  constructor
  · intro units units'
    refine ⟨Conclusion.exists_among units written.read, Conclusion.exists_among units' written.read', ?_⟩
    rintro c c' ⟨_, _, _, t, reached, concluded, holds⟩ own ⟨_, _, _, t', reached', concluded', holds'⟩ own'
    obtain ⟨plain, -, result, reports⟩ := Translation.concluded reached concluded
    obtain ⟨plain', -, result', reports'⟩ := Translation.concluded reached' concluded'
    rw [own] at result reports
    rw [own'] at result' reports'
    have agrees := holds.agrees holds' written.read written.read' written.respelled
    refine ⟨_, _, result, result', written.coincide agrees plain plain' fun alike => ?_⟩
    rw [reports, reports', written.length_reports agrees plain plain' alike]
  · intro settings input schedule p settings' input' schedule' p' ran collected ran' collected' replaced member
      compiles
    have foreseen := Pipeline.execute_foreseen ran
    have foreseen' := Pipeline.execute_foreseen ran'
    have plain := foreseen.accepted_plain collected
    have plain' := foreseen'.accepted_plain collected'
    have agrees := (foreseen.holds collected).agrees (replaced ▸ foreseen'.holds collected') written.read
      written.read' written.respelled
    have member' : other ∈ Input.accepted settings'.inputErrors input' := by
      rw [replaced]
      exact List.mem_map.mpr ⟨unit, member, if_pos rfl⟩
    obtain ⟨_, read, c, received, own, declared⟩ := foreseen.compiled collected member compiles
    obtain ⟨_, read', c', received', own', declared'⟩ :=
      foreseen'.compiled collected' member' (written.compiles compiles)
    obtain rfl := Except.ok.inj (read.symm.trans written.read)
    obtain rfl := Except.ok.inj (read'.symm.trans written.read')
    refine ⟨c, received, c', received', own, own', ?_⟩
    rw [declared, declared']
    refine written.coincide agrees plain plain' fun alike => ?_
    rw [(foreseen.reported collected).length_eq, (foreseen'.reported collected').length_eq, replaced,
      written.length_flatMap agrees plain plain' alike]

/-- A unit with an alias for a standard namespace and a parameter of some type. -/
def aliasing (type : String) : SourceUnit where
  fileName := "A.firefly"
  relativePath := "m"
  content := .text ("import firefly.Std as S\nfn f(x: " ++ type ++ ") \x7b\x7d")

def aliasingOutline (type : String) (last : Nat) : Outline :=
  .ofTree (aliasing type)
    ⟨[⟨"firefly.Std", [], some "S", ⟨1, 1, 0, 22⟩⟩],
      [.function ⟨"f", [⟨"x", some ⟨type, ⟨2, 2, 32, last⟩⟩, none, ⟨2, 2, 29, last⟩⟩], [],
        ⟨2, 2, 24, last + 4⟩⟩]⟩

theorem aliasing_transparent :
    let units (type : String) : List SourceUnit := [aliasing type, vacant "Set" "firefly/Std"]
    ∃ schedule p schedule' p',
      (Pipeline.start .standard {} ((units "S.Set").map .unit) none).execute schedule = some p ∧
      p.isFinished = true ∧
      (Pipeline.start .standard {} ((units "firefly.Std.Set").map .unit) none).execute schedule' = some p' ∧
      p'.isFinished = true ∧
      p.summary.diagnostics.length = p'.summary.diagnostics.length ∧
      ∃ c ∈ p.received, ∃ c' ∈ p'.received, c.declared.unit = aliasing "S.Set" ∧
        c'.declared.unit = aliasing "firefly.Std.Set" ∧
        ∃ made made', c.declared.declaration.parameter? (0, 0) = some made ∧
          c'.declared.declaration.parameter? (0, 0) = some made' ∧ made.type = made'.type := by
  intro units
  have written : WrittenOut (aliasing "S.Set") (aliasing "firefly.Std.Set") (aliasingOutline "S.Set" 36)
      (aliasingOutline "firefly.Std.Set" 46) "S" "firefly.Std" "Set" (0, 0) :=
    ⟨rfl, rfl, rfl, ⟨⟨_, rfl, rfl, rfl⟩, by decide⟩, rfl, rfl, rfl⟩
  have finished : (Pipeline.start .standard {} ((units "S.Set").map .unit) none).run.isFinished = true := by
    decide +kernel
  have finished' : (Pipeline.start .standard {} ((units "firefly.Std.Set").map .unit) none).run.isFinished =
      true := by
    decide +kernel
  have compiles : (aliasing "S.Set").compiles = true := by decide +kernel
  have accepted (type : String) :
      Input.accepted ({} : Settings).inputErrors ((units type).map .unit) = units type :=
    (Input.accepted_units _ _).1
  have replaced : units "firefly.Std.Set" =
      (units "S.Set").map (SourceUnit.replaced (aliasing "S.Set") (aliasing "firefly.Std.Set")) := by
    decide +kernel
  obtain ⟨schedule, ran⟩ := Pipeline.run_execute (.start .standard {} ((units "S.Set").map .unit) none)
  obtain ⟨schedule', ran'⟩ :=
    Pipeline.run_execute (.start .standard {} ((units "firefly.Std.Set").map .unit) none)
  obtain ⟨-, pipelines⟩ := aliases_transparent_iff written
  obtain ⟨c, received, c', received', own, own', made, made', there, there', types, length⟩ :=
    pipelines {} _ schedule _ {} _ schedule' _ ran finished ran' finished' (by rwa [accepted, accepted])
      (by rw [accepted]; exact List.mem_cons_self) compiles
  have same : builtInType ("S" ++ "." ++ "Set") = builtInType ("firefly.Std" ++ "." ++ "Set") := by decide
  exact ⟨schedule, _, schedule', _, ran, finished, ran', finished', length same, c, received, c', received',
    own, own', made, made', there, there', types.mpr same⟩

/-- Behind the alias a built-in type is not found. -/
theorem aliasing_told_apart :
    let shown (s : Session) : List (Option (Option TypeRef)) × List String :=
      (s.resolves.map (fun resolve => resolve.declared?.map fun declared =>
        (declared.declaration.parameter? (0, 0)).map Parameter.type), s.diagnostics.map Diagnostic.message)
    WrittenOut (aliasing "S.String") (aliasing "firefly.Std.String") (aliasingOutline "S.String" 39)
      (aliasingOutline "firefly.Std.String" 49) "S" "firefly.Std" "String" (0, 0) ∧
    shown ((Session.standard 1 1).operateAll
        [.declare (aliasing "S.String"), .finish, .resolve (aliasing "S.String")]) =
      ([some (some .dynamic)], ["Could not resolve the type 'S.String'"]) ∧
    shown ((Session.standard 1 1).operateAll
        [.declare (aliasing "firefly.Std.String"), .finish, .resolve (aliasing "firefly.Std.String")]) =
      ([some (some .string)], []) := by
  intro shown
  refine ⟨⟨rfl, rfl, rfl, ⟨⟨_, rfl, rfl, rfl⟩, by decide⟩, rfl, rfl, rfl⟩, ?_, ?_⟩
  · decide +kernel
  · decide +kernel

end UnitCompiler
