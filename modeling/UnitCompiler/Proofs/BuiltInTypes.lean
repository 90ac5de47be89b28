import UnitCompiler.Proofs.Annotation

/-! The names of the built-in types. A simple name may stand behind a standard namespace with any number of
dots between them, even none. These names are taken before any other: a dotted name of a declared type stands
for this type unless it is one of them, or an import has its first part for an alias. -/

namespace UnitCompiler

/-! ## Standard names -/

def builtIns : List (String × TypeRef) :=
  [("String", .string), ("Int", .int), ("Long", .long), ("Boolean", .bool), ("Bool", .bool),
    ("Decimal", .decimal), ("Double", .decimal), ("Char", .char), ("Character", .char), ("Byte", .byte),
    ("Unit", .void)]

def standardNamespaces : List String := ["firefly.Std", "firefly.Std.Primitives"]

/-- A name of something by its simple name, alone or behind a standard namespace and some dots. -/
def Standard (simple name : String) : Prop :=
  name = simple ∨ ∃ space ∈ standardNamespaces, ∃ dots,
    name = space ++ String.ofList (List.replicate dots '.') ++ simple

theorem afterStart?_eq_some_iff {start text rest : List Char} :
    afterStart? start text = some rest ↔ text = start ++ rest := by
  unfold afterStart?
  constructor
  · intro found
    split at found
    · next begun =>
      cases found
      nth_rewrite 1 [← List.take_append_drop start.length text, begun]
      rfl
    · contradiction
  · rintro rfl
    rw [if_pos List.take_left, List.drop_left]

theorem afterStart?_eq_none {start text : List Char} (other : ¬start <+: text) :
    afterStart? start text = none :=
  Option.eq_none_iff_forall_ne_some.mpr fun rest found =>
    other ⟨rest, (afterStart?_eq_some_iff.mp found).symm⟩

/-- Some dots, and then something else. -/
theorem dots_append_dropWhile (text : List Char) :
    ∃ dots, text = List.replicate dots '.' ++ text.dropWhile (· == '.') := by
  have each : ∀ c ∈ text.takeWhile (· == '.'), c = '.' := fun c inside => by
    simpa using List.mem_takeWhile_imp inside
  refine ⟨(text.takeWhile (· == '.')).length, ?_⟩
  rw [← List.eq_replicate_of_mem each, List.takeWhile_append_dropWhile]

theorem builtInType_eq_some {name : String} {type : TypeRef} :
    builtInType name = some type ↔ (standardName name, type) ∈ builtIns := by
  unfold builtInType
  generalize standardName name = simple
  split
  all_goals simp_all [builtIns, eq_comm]

/-- What is left of a name was there as it is, or behind a standard namespace and some dots. -/
theorem standard_standardName (name : String) : Standard (standardName name) name := by
  have behind {space : String} (known : space ∈ standardNamespaces) {rest : List Char}
      (whole : name.toList = space.toList ++ rest) :
      Standard (String.ofList (rest.dropWhile (· == '.'))) name := by
    obtain ⟨dots, same⟩ := dots_append_dropWhile rest
    refine .inr ⟨space, known, dots, String.toList_injective ?_⟩
    rw [whole, String.toList_append, String.toList_append, String.toList_ofList, String.toList_ofList,
      List.append_assoc, ← same]
  unfold standardName
  dsimp only
  cases primitives : afterStart? "firefly.Std.Primitives".toList name.toList with
  | some rest => exact behind (by simp [standardNamespaces]) (afterStart?_eq_some_iff.mp primitives)
  | none =>
    rw [Option.orElse_none]
    cases plain : afterStart? "firefly.Std".toList name.toList with
    | some rest => exact behind (by simp [standardNamespaces]) (afterStart?_eq_some_iff.mp plain)
    | none => exact .inl rfl

/-- Dots in front of a simple name are skipped. -/
theorem dropWhile_dots_append (dots : Nat) {text : List Char} (plain : ∀ c ∈ text.head?, c ≠ '.') :
    (List.replicate dots '.' ++ text).dropWhile (· == '.') = text := by
  rw [List.dropWhile_append_of_pos (by simp [List.mem_replicate]), Text.dropWhile_eq_self]
  simpa using plain

theorem standardName_of_standard {simple name : String} {first : Char}
    (begins : simple.toList.head? = some first) (other : first ∉ ['.', 'P', 'f'])
    (standard : Standard simple name) : standardName name = simple := by
  obtain ⟨more, letters⟩ := List.head?_eq_some_iff.mp begins
  simp only [List.mem_cons, List.not_mem_nil, or_false, not_or] at other
  obtain ⟨dot, capital, small⟩ := other
  have stripped (dots : Nat) :
      String.ofList ((List.replicate dots '.' ++ simple.toList).dropWhile (· == '.')) = simple := by
    rw [dropWhile_dots_append dots (by simpa [begins] using dot), String.ofList_toList]
  unfold standardName
  rcases standard with rfl | ⟨space, known, dots, rfl⟩
  · have apart (start : List Char) (head : start.head? = some 'f') :
        afterStart? start name.toList = none := by
      obtain ⟨others, rfl⟩ := List.head?_eq_some_iff.mp head
      refine afterStart?_eq_none ?_
      rw [letters]
      rintro ⟨rest, same⟩
      exact small (List.cons.inj same).1.symm
    dsimp only
    rw [apart _ (by decide), apart _ (by decide)]
    rfl
  · simp only [String.toList_append, String.toList_ofList, List.append_assoc]
    simp only [standardNamespaces, List.mem_cons, List.not_mem_nil, or_false] at known
    rcases known with rfl | rfl
    · -- The longer namespace would go on with a dot and a capital, which no dots and no simple name do.
      have longer : "firefly.Std.Primitives".toList =
          "firefly.Std".toList ++ '.' :: 'P' :: "rimitives".toList := by decide
      have unlike : ¬ '.' :: 'P' :: "rimitives".toList <+: List.replicate dots '.' ++ simple.toList := by
        rw [letters]
        rintro ⟨rest, same⟩
        rcases dots with _ | _ | dots
        · exact dot (List.cons.inj same).1.symm
        · exact capital (List.cons.inj (List.cons.inj same).2).1.symm
        · have second := (List.cons.inj (List.cons.inj same).2).1
          contradiction
      rw [longer, afterStart?_eq_none (by rwa [List.prefix_append_right_inj]),
        afterStart?_eq_some_iff.mpr rfl]
      exact stripped dots
    · rw [afterStart?_eq_some_iff.mpr rfl]
      exact stripped dots

theorem builtInType_iff {name : String} {type : TypeRef} :
    builtInType name = some type ↔ ∃ simple, (simple, type) ∈ builtIns ∧ Standard simple name := by
  have letters : ∀ entry ∈ builtIns,
      ∃ first, entry.1.toList.head? = some first ∧ first ∉ ['.', 'P', 'f'] := by
    intro entry known
    have each : ∀ entry ∈ builtIns,
        (entry.1.toList.head?.any fun first => first ∉ ['.', 'P', 'f']) = true := by decide
    simpa [Option.any_eq_true] using each entry known
  rw [builtInType_eq_some]
  constructor
  · intro known
    exact ⟨_, known, standard_standardName name⟩
  · rintro ⟨simple, known, standard⟩
    obtain ⟨first, begins, other⟩ := letters _ known
    rwa [standardName_of_standard begins other standard]

/-! ## Parameters and their types -/

def Outline.parameter? (o : Outline) (place : Nat × Nat) : Option Param :=
  o.tree.functions[place.1]?.bind fun f => f.parameters[place.2]?

/-- A parameter of a declaration, by the place of its function, which comes behind the entry point, and its
own place. -/
def TypeDeclaration.parameter? (d : TypeDeclaration) (place : Nat × Nat) : Option Parameter :=
  d.methods[place.1 + 1]?.bind fun m => m.parameters[place.2]?

theorem forall₂_getElem? {α β : Type} {related : α → β → Prop} {list : List α} {other : List β}
    (all : List.Forall₂ related list other) {index : Nat} {item : α} (there : list[index]? = some item) :
    ∃ item', other[index]? = some item' ∧ related item item' := by
  induction all generalizing index with
  | nil => simp at there
  | cons first _ ih =>
    cases index with
    | zero =>
      cases there
      exact ⟨_, rfl, first⟩
    | succ index => exact ih there

namespace Outline

variable {o : Outline} {place : Nat × Nat} {p : Param}

theorem mem_of_parameter? (there : o.parameter? place = some p) :
    ∃ f ∈ o.tree.functions, p ∈ f.parameters := by
  obtain ⟨f, function, parameter⟩ := Option.bind_eq_some_iff.mp there
  exact ⟨f, List.mem_of_getElem? function, List.mem_of_getElem? parameter⟩

/-- Every parameter is there in the declaration, with the type that its annotation stands for. -/
theorem Annotated.parameter? {meaning : String → Option TypeRef} {reports : List Diagnostic}
    {d : TypeDeclaration} (annotated : o.Annotated meaning reports d) (there : o.parameter? place = some p) :
    ∃ made, d.parameter? place = some made ∧
      made.type = (p.type.bind fun written => meaning written.name).getD .dynamic := by
  obtain ⟨f, function, parameter⟩ := Option.bind_eq_some_iff.mp there
  obtain ⟨entry, methods, all, functions⟩ := annotated.functions
  obtain ⟨m, method, -, parameters⟩ := forall₂_getElem? functions function
  obtain ⟨made, own, -, type⟩ := forall₂_getElem? parameters parameter
  refine ⟨made, ?_, type⟩
  rw [TypeDeclaration.parameter?, all, List.getElem?_cons_succ, method]
  exact own

end Outline

/-- What a name with a single candidate stands for. -/
theorem Catalogue.denoted_of_candidate {catalogue : Catalogue} {o : Outline} {name full : String}
    (candidates : o.tree.Candidates o.unit.packageName name [full]) :
    catalogue.denoted o name =
      (builtInType name).or (((catalogue.meaning o.owner).type full).map fun _ => .named full) := by
  rw [denoted, type?, UnitTree.findSome?_candidates, ← UnitTree.candidates_iff.mp candidates]
  cases found : (catalogue.meaning o.owner).type full with
  | none => simp [found]
  | some d => simp [found, meaning_type found]

/-! ## Sessions and compilations -/

/-- A resolve comes to what is registered by now. -/
theorem Translation.concluded {capacity number : Nat} {schedule : List Turn} {t : Translation}
    (reached : execute { session := .standard capacity number } schedule = some t) {c : Conclusion}
    (member : c ∈ t.conclusions) :
    t.session.tables.accepted.Plain ∧ (∃ unit, Outline.read Toolchain.standard.grammar unit = .ok c.outline) ∧
      c.result = .ok (Toolchain.standard.declaration t.session.tables.accepted c.outline).1 ∧
      c.reports = (Toolchain.standard.declaration t.session.tables.accepted c.outline).2 := by
  obtain ⟨orderly, kept⟩ := execute_kept capacity number reached
  have recorded := kept.foreseen.recorded
  exact ⟨orderly.accepted_plain, recorded.read _ (List.mem_of_getElem? (recorded.concluded c member)),
    kept.foreseen.declared _ orderly.accepted_plain (.refl _) c member⟩

namespace Pipeline.Foreseen

variable {settings : Settings} {input : List Input} {p : Pipeline}

/-- In the end there is a declaration of each unit that can be compiled. -/
theorem compiled (foreseen : Foreseen settings input p) (collected : p.isFinished = true) {unit : SourceUnit}
    (member : unit ∈ Input.accepted settings.inputErrors input) (compiles : unit.compiles = true) :
    ∃ o, Outline.read Toolchain.standard.grammar unit = .ok o ∧ ∃ c ∈ p.received, c.declared.unit = unit ∧
      c.declared = (Toolchain.standard.declaration p.tables.accepted o).1 := by
  have parses := (Bool.and_eq_true_iff.mp compiles).1
  rw [SourceUnit.parses_eq unit rfl] at parses
  cases read : Outline.read Toolchain.standard.grammar unit with
  | error failure => simp [read, Except.isOk, Except.toBool] at parses
  | ok o =>
    have declared := Toolchain.declaredBy?_of_read Toolchain.standard p.tables.accepted read
    have there := (foreseen.received collected).symm.subset
      (List.mem_filterMap.mpr ⟨unit, List.mem_filter.mpr ⟨member, compiles⟩, declared⟩)
    obtain ⟨c, received, same⟩ := List.mem_map.mp there
    exact ⟨o, rfl, c, received, same ▸ (Toolchain.standard.declaration_unit _ read).1, same⟩

/-- All that is reported about a unit comes from its declaration. -/
theorem mem_declaration (foreseen : Foreseen settings input p) (collected : p.isFinished = true)
    {unit : SourceUnit} {o : Outline} (read : Outline.read Toolchain.standard.grammar unit = .ok o)
    {r : Diagnostic} (reported : r ∈ p.summary.diagnostics) (own : r.unit = unit) :
    r ∈ (Toolchain.standard.declaration p.tables.accepted o).2 := by
  obtain ⟨source, -, told⟩ := List.mem_flatMap.mp ((foreseen.reported collected).subset reported)
  cases found : Outline.read Toolchain.standard.grammar source with
  | error failure =>
    rw [Toolchain.diagnosticsBy_of_error _ _ found] at told
    contradiction
  | ok o' =>
    rw [Toolchain.diagnosticsBy_of_read _ _ found] at told
    obtain ⟨reports, -⟩ := Toolchain.declaration_accounts (foreseen.accepted_plain collected) found
    obtain ⟨f, -, rfl⟩ := List.mem_map.mp (reports ▸ told)
    obtain rfl : source = unit := (Outline.read_unit found).symm.trans own
    obtain rfl := Except.ok.inj (read.symm.trans found)
    exact told

end Pipeline.Foreseen

/-- The dotted names of declared types, if no alias comes first, stand for these types in a unit unless they
are names of built-in types, and nothing is reported in their place. -/
def Outline.NamesTypes (o : Outline) (declared : String → Prop) (reports : List Diagnostic)
    (d : TypeDeclaration) : Prop :=
  ∀ place p written head rest, o.parameter? place = some p → p.type = some written →
    written.name = head ++ "." ++ rest → '.' ∉ head.toList → (∀ line ∈ o.tree.imports, ¬line.Aliases head) →
    declared written.name →
    (∃ made, d.parameter? place = some made ∧ (made.type = .named written.name ↔
      ∀ simple type, (simple, type) ∈ builtIns → ¬Standard simple written.name)) ∧
    reports.filter (fun r => r.span = written.span) = []

theorem Catalogue.namesTypes {catalogue : Catalogue} (plain : catalogue.Plain) {unit : SourceUnit}
    {o : Outline} (read : Outline.read Toolchain.standard.grammar unit = .ok o) {declared : String → Prop}
    (known : ∀ name, declared name → (catalogue.meaning o.owner).type name ≠ none) :
    o.NamesTypes declared (Toolchain.standard.declaration catalogue o).2
      (Toolchain.standard.declaration catalogue o).1.declaration := by
  intro place p written head rest there typed dotted simple unaliased registered
  have annotated := Toolchain.declaration_annotated plain read
  obtain ⟨f, function, parameter⟩ := Outline.mem_of_parameter? there
  obtain ⟨made, own, type⟩ := annotated.parameter? there
  obtain ⟨d, found⟩ := Option.ne_none_iff_exists'.mp (known _ registered)
  have candidates : o.tree.Candidates o.unit.packageName written.name [written.name] :=
    dotted ▸ .dotted head rest simple unaliased
  have denoted := catalogue.denoted_of_candidate candidates
  rw [found, Option.map_some] at denoted
  rw [typed, Option.bind_some, denoted] at type
  refine ⟨⟨made, own, ?_⟩, ?_⟩
  · rw [type]
    cases builtIn : builtInType written.name with
    | some other =>
      obtain ⟨simple, listed, standard⟩ := builtInType_iff.mp builtIn
      refine ⟨fun same => ?_, fun none => absurd standard (none simple other listed)⟩
      obtain rfl : other = .named written.name := same
      exact absurd builtIn (builtInType_ne_named _ _)
    | none =>
      refine ⟨fun _ simple other listed standard => ?_, fun _ => rfl⟩
      rw [builtInType_iff.mpr ⟨simple, listed, standard⟩] at builtIn
      contradiction
  · rw [annotated.reported f function p parameter written typed, denoted]
    simp

/-- The names of the built-in types are their simple names, also behind a standard namespace and any number
of dots. In a session and in a compilation a parameter that is annotated with the dotted name of a declared
type, where no alias comes first, has this type just if the name is none of them. -/
theorem builtIns_precede_declared (capacity number : Nat) (settings : Settings) (input : List Input) :
    (∀ name type, builtInType name = some type ↔
      ∃ simple, (simple, type) ∈ builtIns ∧ Standard simple name) ∧
    (∀ schedule t, Translation.execute { session := .standard capacity number } schedule = some t →
      ∀ c ∈ t.conclusions, ∃ declared, c.result = .ok declared ∧
        c.outline.NamesTypes (fun type => t.session.tables.Declares [type]) c.reports declared.declaration) ∧
    ∀ schedule p, (Pipeline.start .standard settings input none).execute schedule = some p →
      p.isFinished = true →
      let units := Input.accepted settings.inputErrors input
      ∀ unit ∈ units, unit.compiles = true →
        ∃ o, Outline.read Toolchain.standard.grammar unit = .ok o ∧ ∃ c ∈ p.received, c.declared.unit = unit ∧
          o.NamesTypes (fun type => ∃ other ∈ units, other.parses = true ∧ other.qualifiedName = type)
            (p.summary.diagnostics.filter (·.unit = unit)) c.declared.declaration := by
  refine ⟨fun name type => builtInType_iff, fun schedule t reached c member => ?_,
    fun schedule p ran collected => ?_⟩
  · obtain ⟨plain, ⟨unit, read⟩, result, reports⟩ := Translation.concluded reached member
    refine ⟨_, result, ?_⟩
    rw [reports]
    exact Catalogue.namesTypes plain read fun name => (Tables.declares_iff _ _ name).mp
  · intro units unit member compiles
    have foreseen := Pipeline.execute_foreseen ran
    obtain ⟨o, read, c, received, own, declared⟩ := foreseen.compiled collected member compiles
    refine ⟨o, read, c, received, own, ?_⟩
    rw [declared]
    intro place q written head rest there typed dotted simple unaliased registered
    have known : ∀ name, (∃ other ∈ units, other.parses = true ∧ other.qualifiedName = name) →
        (p.tables.accepted.meaning o.owner).type name ≠ none := fun name among =>
      (Tables.declares_iff _ _ name).mp ((foreseen.declares_iff collected name).mpr among)
    obtain ⟨named, silent⟩ := Catalogue.namesTypes (foreseen.accepted_plain collected) read known place q
      written head rest there typed dotted simple unaliased registered
    refine ⟨named, List.filter_eq_nil_iff.mpr fun r reported here => ?_⟩
    obtain ⟨reported, own⟩ := List.mem_filter.mp reported
    have told := foreseen.mem_declaration collected read reported (of_decide_eq_true own)
    exact List.filter_eq_nil_iff.mp silent r told here

/-- A unit whose parameters have the names of two declared types, one of which begins like a standard
namespace. -/
def misleading : SourceUnit where
  fileName := "A.firefly"
  relativePath := "m"
  content := .text "fn f(x: firefly.StdString, y: firefly.StandardString) \x7b\x7d"

def vacant (name directory : String) : SourceUnit where
  fileName := name ++ ".firefly"
  relativePath := directory
  content := .text ""

def misleadingUnits : List SourceUnit :=
  [misleading, vacant "StdString" "firefly", vacant "StandardString" "firefly"]

theorem misleading_told_apart : ∃ schedule p,
    (Pipeline.start .standard {} (misleadingUnits.map .unit) none).execute schedule = some p ∧
    p.isFinished = true ∧ ∃ c ∈ p.received, c.declared.unit = misleading ∧
      (∃ made, c.declared.declaration.parameter? (0, 0) = some made ∧
        made.type ≠ .named "firefly.StdString") ∧
      ∃ made, c.declared.declaration.parameter? (0, 1) = some made ∧
        made.type = .named "firefly.StandardString" := by
  have finished : (Pipeline.start .standard {} (misleadingUnits.map .unit) none).run.isFinished = true := by
    decide +kernel
  have compiles : misleading.compiles = true := by decide +kernel
  have types : (Outline.read Toolchain.standard.grammar misleading).toOption.map (fun o =>
      ((o.parameter? (0, 0)).bind Param.type, (o.parameter? (0, 1)).bind Param.type, o.tree.imports)) =
      some (some ⟨"firefly.StdString", ⟨1, 1, 8, 24⟩⟩,
        some ⟨"firefly.StandardString", ⟨1, 1, 30, 51⟩⟩, []) := by
    decide +kernel
  obtain ⟨names, -, pipelines⟩ := builtIns_precede_declared 1 1 {} (misleadingUnits.map .unit)
  obtain ⟨schedule, ran⟩ := Pipeline.run_execute (.start .standard {} (misleadingUnits.map .unit) none)
  have units : Input.accepted ({} : Settings).inputErrors (misleadingUnits.map .unit) = misleadingUnits :=
    (Input.accepted_units _ _).1
  obtain ⟨o, read, c, received, own, named⟩ := pipelines schedule _ ran finished misleading
    (by rw [units]; exact List.mem_cons_self) compiles
  rw [units] at named
  simp only [read, Except.toOption, Option.map_some, Option.some.injEq, Prod.mk.injEq] at types
  obtain ⟨first, second, imports⟩ := types
  obtain ⟨q, there, typed⟩ := Option.bind_eq_some_iff.mp first
  obtain ⟨q', there', typed'⟩ := Option.bind_eq_some_iff.mp second
  obtain ⟨⟨made, at_, iff⟩, -⟩ := named _ q _ "firefly" "StdString" there typed (by decide) (by decide)
    (by simp [imports]) ⟨vacant "StdString" "firefly", by simp [misleadingUnits], by decide +kernel⟩
  obtain ⟨⟨made', at', iff'⟩, -⟩ := named _ q' _ "firefly" "StandardString" there' typed' (by decide)
    (by decide) (by simp [imports])
    ⟨vacant "StandardString" "firefly", by simp [misleadingUnits], by decide +kernel⟩
  refine ⟨schedule, _, ran, finished, c, received, own, ⟨made, at_, fun same => ?_⟩, made', at', iff'.mpr ?_⟩
  · obtain ⟨simple, listed, standard⟩ := (names "firefly.StdString" .string).mp (by decide)
    exact iff.mp same simple _ listed standard
  · intro simple type listed standard
    have builtIn := (names "firefly.StandardString" type).mpr ⟨simple, listed, standard⟩
    have other : builtInType "firefly.StandardString" = none := by decide
    rw [other] at builtIn
    cases builtIn

/-- The type with the misleading name is replaced by a built-in one, and nothing is reported. -/
theorem misleading_replaced :
    let s := (Session.standard 1 1).operateAll
      (misleadingUnits.map .declare ++ [.finish, .resolve misleading])
    builtInType "firefly.StdString" = some .string ∧ s.tables.Declares ["firefly.StdString"] ∧
    s.resolves.map (fun resolve => resolve.declared?.map fun declared =>
        (declared.declaration.parameter? (0, 0)).map Parameter.type) =
      [some (some .string)] ∧ s.diagnostics = [] := by
  intro s
  have told : (s.resolves.map (fun resolve => resolve.declared?.map fun declared =>
        (declared.declaration.parameter? (0, 0)).map Parameter.type),
      s.diagnostics, ((s.tables.accepted.meaning "m.A").type "firefly.StdString").isSome) =
      ([some (some .string)], [], true) := by
    decide +kernel
  simp only [Prod.mk.injEq] at told
  obtain ⟨types, silent, declared⟩ := told
  refine ⟨by decide, (Tables.declares_iff _ "m.A" _).mpr ?_, types, silent⟩
  exact Option.isSome_iff_ne_none.mp declared

end UnitCompiler
