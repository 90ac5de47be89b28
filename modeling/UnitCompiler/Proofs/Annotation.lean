import UnitCompiler.Proofs.Dotted
import UnitCompiler.Proofs.PipelineCatalogue
import UnitCompiler.Proofs.SessionTiming
import UnitCompiler.Proofs.SpanSites

/-! What the annotations of a unit stand for. A name that is no built-in type has candidates, in an order
that the imports give; it stands for the first of them that is declared in the end, whenever it was
looked up and in whatever order the units were declared. -/

namespace UnitCompiler

/-! ## Candidates -/

namespace ImportLine

def Aliases (line : ImportLine) (name : String) : Prop :=
  line.names = [] ∧ line.shortName = some name

/-- What a line makes of a simple name. It has it in brackets, or brings in a unit that goes by this
name, which is the alias if there is one and the end of the path otherwise. -/
inductive Provides (line : ImportLine) (name : String) : String → Prop where
  | member (listed : name ∈ line.names) : Provides line name (line.path ++ "." ++ name)
  | short (aliased : line.Aliases name) : Provides line name line.path
  | unit (whole : line.names = []) (plain : line.shortName = none)
      (last : Text.lastSegment line.path = name) : Provides line name line.path

inductive Provided (name : String) : List ImportLine → List String → Prop where
  | nil : Provided name [] []
  | provides {line : ImportLine} {candidate : String} {rest : List ImportLine} {others : List String}
      (own : line.Provides name candidate) (more : Provided name rest others) :
      Provided name (line :: rest) (candidate :: others)
  | skips {line : ImportLine} {rest : List ImportLine} {others : List String}
      (unprovided : ∀ candidate, ¬line.Provides name candidate) (more : Provided name rest others) :
      Provided name (line :: rest) others

end ImportLine

inductive UnitTree.Candidates (tree : UnitTree) (package : String) : String → List String → Prop where
  | aliased (head rest : String) (simple : '.' ∉ head.toList) (before : List ImportLine)
      (line : ImportLine) (after : List ImportLine) (lines : tree.imports = before ++ line :: after)
      (aliased : line.Aliases head) (first : ∀ other ∈ before, ¬other.Aliases head) :
      Candidates tree package (head ++ "." ++ rest) [line.path ++ "." ++ rest]
  | dotted (head rest : String) (simple : '.' ∉ head.toList)
      (unaliased : ∀ line ∈ tree.imports, ¬line.Aliases head) :
      Candidates tree package (head ++ "." ++ rest) [head ++ "." ++ rest]
  | simple (name : String) (simple : '.' ∉ name.toList) (provided : List String)
      (lines : ImportLine.Provided name tree.imports provided) :
      Candidates tree package name (provided ++ [Text.qualify package name])

inductive Outline.Denotes (o : Outline) (declared : String → Prop) (name : String) :
    Option TypeRef → Prop where
  | builtIn (type : TypeRef) (known : builtInType name = some type) : Denotes o declared name (some type)
  | found (other : builtInType name = none) (before : List String) (candidate : String)
      (after : List String)
      (candidates : o.tree.Candidates o.unit.packageName name (before ++ candidate :: after))
      (missing : ∀ earlier ∈ before, ¬declared earlier) (there : declared candidate) :
      Denotes o declared name (some (.named candidate))
  | missed (other : builtInType name = none) (all : List String)
      (candidates : o.tree.Candidates o.unit.packageName name all)
      (missing : ∀ candidate ∈ all, ¬declared candidate) : Denotes o declared name none

namespace ImportLine

variable {line : ImportLine} {name candidate : String}

theorem provides_iff : line.Provides name candidate ↔ line.toImport.provides name = some candidate := by
  cases names : line.names with
  | nil =>
    have whole : line.toImport.provides name =
        if line.toImport.visibleName = name then some line.path else none := by
      simp [Import.provides, toImport, names]
    rw [whole]
    constructor
    · rintro (listed | aliased | ⟨_, plain, last⟩)
      · simp [names] at listed
      · simp [Import.visibleName, toImport, aliased.2]
      · simp [Import.visibleName, toImport, plain, last]
    · intro provided
      split at provided
      · next own =>
        cases provided
        cases short : line.shortName with
        | some other =>
          have same : other = name := by simpa [Import.visibleName, toImport, short] using own
          exact .short ⟨names, by rw [short, same]⟩
        | none => exact .unit names short (by simpa [Import.visibleName, toImport, short] using own)
      · contradiction
  | cons first others =>
    have inside : line.toImport.provides name =
        if name ∈ line.names then some (line.path ++ "." ++ name) else none := by
      simp [Import.provides, toImport, names]
    rw [inside]
    constructor
    · rintro (listed | ⟨whole, _⟩ | ⟨whole, _, _⟩)
      · rw [if_pos listed]
      · simp [names] at whole
      · simp [names] at whole
    · intro provided
      split at provided
      · next listed =>
        cases provided
        exact .member listed
      · contradiction

theorem aliases_iff : line.Aliases name ↔ line.toImport.isAliased name = true := by
  cases names : line.names with
  | nil => simp [Aliases, Import.isAliased, toImport, names]
  | cons first others => simp [Aliases, Import.isAliased, toImport, names]

theorem provided_iff {lines : List ImportLine} {candidates : List String} :
    Provided name lines candidates ↔
      candidates = (lines.map toImport).filterMap fun i => i.provides name := by
  induction lines generalizing candidates with
  | nil =>
    constructor
    · rintro ⟨⟩
      rfl
    · rintro rfl
      exact .nil
  | cons line rest ih =>
    rw [List.map_cons]
    constructor
    · intro provided
      cases provided with
      | provides own more =>
        rw [List.filterMap_cons, provides_iff.mp own, ih.mp more]
      | skips unprovided more =>
        have absent : line.toImport.provides name = none := Option.eq_none_iff_forall_ne_some.mpr
          fun candidate own => unprovided candidate (provides_iff.mpr own)
        rw [List.filterMap_cons, absent]
        exact ih.mp more
    · rintro rfl
      rw [List.filterMap_cons]
      cases own : line.toImport.provides name with
      | some candidate => exact .provides (provides_iff.mpr own) (ih.mpr rfl)
      | none =>
        refine .skips (fun candidate provided => ?_) (ih.mpr rfl)
        rw [provides_iff.mp provided] at own
        contradiction

end ImportLine

/-! ## The first candidate that is declared -/

def UnitTree.candidates (tree : UnitTree) (package name : String) : List String :=
  if Text.isDotted name then Import.candidates tree.importTable name
  else Import.candidates tree.importTable name ++ [Text.qualify package name]

namespace UnitTree

variable {tree : UnitTree} {package name : String}

theorem isDotted_iff : Text.isDotted name = true ↔ '.' ∈ name.toList := by
  simp [Text.isDotted]

/-- A dotted name is its first part, a dot and the rest. -/
theorem dotted_parts (dotted : '.' ∈ name.toList) :
    ∃ head rest : String, '.' ∉ head.toList ∧ name = head ++ "." ++ rest := by
  cases cut : Text.splitFirst '.' name.toList with
  | none => exact absurd dotted (Text.splitFirst_eq_none_iff.mp cut)
  | some parts =>
    obtain ⟨whole, simple⟩ := Text.splitFirst_eq_some_iff.mp cut
    refine ⟨String.ofList parts.1, String.ofList parts.2, by simpa using simple, ?_⟩
    apply String.toList_injective
    simpa using whole

theorem candidates_dotted {head rest : String} (simple : '.' ∉ head.toList) :
    tree.candidates package (head ++ "." ++ rest) =
      (tree.importTable.find? (·.isAliased head)).elim [head ++ "." ++ rest]
        fun i => [i.path ++ "." ++ rest] := by
  have dotted : Text.isDotted (head ++ "." ++ rest) = true := isDotted_iff.mpr (by simp)
  have cut : Text.splitFirst '.' (head ++ "." ++ rest).toList = some (head.toList, rest.toList) :=
    Text.splitFirst_eq_some_iff.mpr ⟨by simp, simple⟩
  rw [candidates, if_pos dotted, Import.candidates, cut]
  simp only [String.ofList_toList]
  cases tree.importTable.find? (·.isAliased head) <;> rfl

theorem candidates_simple (simple : '.' ∉ name.toList) :
    tree.candidates package name =
      tree.importTable.filterMap (·.provides name) ++ [Text.qualify package name] := by
  have undotted : ¬Text.isDotted name = true := fun dotted => simple (isDotted_iff.mp dotted)
  rw [candidates, if_neg undotted, Import.candidates, Text.splitFirst_eq_none_iff.mpr simple]

/-- Every type name has its candidates, and no others. -/
theorem candidates_iff {all : List String} :
    tree.Candidates package name all ↔ all = tree.candidates package name := by
  constructor
  · intro candidates
    cases candidates with
    | aliased head rest simple before line after lines aliased first =>
      have found : tree.importTable.find? (·.isAliased head) = some line.toImport := by
        rw [importTable, lines, List.map_append, List.map_cons, List.find?_append]
        have none : (before.map ImportLine.toImport).find? (·.isAliased head) = none := by
          simpa [← ImportLine.aliases_iff] using first
        rw [none, Option.none_or]
        exact List.find?_cons_of_pos (ImportLine.aliases_iff.mp aliased)
      rw [candidates_dotted simple, found]
      rfl
    | dotted head rest simple unaliased =>
      have missing : tree.importTable.find? (·.isAliased head) = none := by
        simpa [importTable, ← ImportLine.aliases_iff] using unaliased
      rw [candidates_dotted simple, missing, Option.elim_none]
    | simple _ simple provided lines =>
      rw [candidates_simple simple, ImportLine.provided_iff.mp lines, importTable]
  · rintro rfl
    by_cases dotted : '.' ∈ name.toList
    · obtain ⟨head, rest, simple, rfl⟩ := dotted_parts dotted
      rw [candidates_dotted simple]
      cases found : tree.importTable.find? (·.isAliased head) with
      | none =>
        refine .dotted head rest simple fun line member aliased => ?_
        have other := List.find?_eq_none.mp found _ (List.mem_map_of_mem member)
        exact other (ImportLine.aliases_iff.mp aliased)
      | some i =>
        obtain ⟨aliased, before, after, lines, first⟩ := List.find?_eq_some_iff_append.mp found
        obtain ⟨front, back, split, rfl, mapped⟩ := List.map_eq_append_iff.mp lines
        obtain ⟨line, behind, rfl, rfl, rfl⟩ := List.map_eq_cons_iff.mp mapped
        refine .aliased head rest simple front line behind split (ImportLine.aliases_iff.mpr aliased) ?_
        intro other member aliases
        have not := first _ (List.mem_map_of_mem member)
        rw [ImportLine.aliases_iff.mp aliases] at not
        contradiction
    · rw [candidates_simple dotted]
      exact .simple name dotted _ (ImportLine.provided_iff.mpr rfl)

/-- The name in the own package is looked up once, even if an import provides it. -/
theorem findSome?_candidates {β : Type} (f : String → Option β) :
    (Import.typeCandidates tree.importTable package name).findSome? f =
      (tree.candidates package name).findSome? f := by
  unfold Import.typeCandidates candidates
  dsimp only
  by_cases dotted : Text.isDotted name = true
  · rw [if_pos dotted, dotted, Bool.true_or, if_pos rfl]
  · rw [if_neg dotted, Bool.not_eq_true _ |>.mp dotted, Bool.false_or]
    split
    · next own =>
      rw [List.findSome?_append]
      cases found : (Import.candidates tree.importTable name).findSome? f with
      | some _ => rfl
      | none =>
        have absent := List.findSome?_eq_none_iff.mp found _ (List.contains_iff_mem.mp own)
        simp [absent]
    · rfl

end UnitTree

def Catalogue.denoted (catalogue : Catalogue) (o : Outline) (name : String) : Option TypeRef :=
  (builtInType name).or (catalogue.type? o name)

namespace Catalogue

variable {catalogue : Catalogue} {o : Outline} {declared : String → Prop} {name : String}

/-- A catalogue gives a name what it stands for where those types are declared that the catalogue has. -/
theorem denotes_iff
    (known : ∀ candidate, declared candidate ↔ (catalogue.meaning o.owner).type candidate ≠ none)
    {meant : Option TypeRef} :
    o.Denotes declared name meant ↔ meant = catalogue.denoted o name := by
  have missing (candidate : String) :
      ¬declared candidate ↔ (catalogue.meaning o.owner).type candidate = none := by
    rw [known, not_not]
  rw [denoted]
  constructor
  · intro denotes
    cases denotes with
    | builtIn type same => rw [same, Option.some_or]
    | found other before candidate after candidates first there =>
      obtain ⟨d, found⟩ := Option.ne_none_iff_exists'.mp ((known candidate).mp there)
      have nothing : before.findSome? (catalogue.meaning o.owner).type = none :=
        List.findSome?_eq_none_iff.mpr fun earlier inside => (missing earlier).mp (first earlier inside)
      rw [other, Option.none_or, type?, UnitTree.findSome?_candidates,
        ← UnitTree.candidates_iff.mp candidates, List.findSome?_append, nothing, Option.none_or,
        List.findSome?_cons, found, Option.map_some, meaning_type found]
    | missed other all candidates absent =>
      have nothing : all.findSome? (catalogue.meaning o.owner).type = none :=
        List.findSome?_eq_none_iff.mpr fun candidate inside => (missing _).mp (absent candidate inside)
      rw [other, Option.none_or, type?, UnitTree.findSome?_candidates,
        ← UnitTree.candidates_iff.mp candidates, nothing, Option.map_none]
  · rintro rfl
    cases same : builtInType name with
    | some type =>
      rw [Option.some_or]
      exact .builtIn type same
    | none =>
      rw [Option.none_or, type?, UnitTree.findSome?_candidates]
      cases found : (o.tree.candidates o.unit.packageName name).findSome?
          (catalogue.meaning o.owner).type with
      | none =>
        refine .missed same _ (UnitTree.candidates_iff.mpr rfl) fun candidate inside => ?_
        exact (missing candidate).mpr (List.findSome?_eq_none_iff.mp found candidate inside)
      | some d =>
        obtain ⟨before, candidate, after, split, there, first⟩ := List.findSome?_eq_some_iff.mp found
        rw [Option.map_some, meaning_type there]
        refine .found same before candidate after (UnitTree.candidates_iff.mpr split.symm)
          (fun earlier inside => (missing earlier).mpr (first earlier inside)) ?_
        rw [known, there]
        simp

theorem references_denoted {f : Function} {p : Param} {written : TypeName}
    (function : f ∈ o.tree.functions) (parameter : p ∈ f.parameters) (typed : p.type = some written) :
    (catalogue.references o).type? written.name = catalogue.denoted o written.name := by
  rw [denoted]
  cases known : builtInType written.name with
  | some type => rw [References.type?_eq, known, Option.some_or, Option.some_or]
  | none => rw [references_type function parameter typed known, Option.none_or]

theorem knowsType_eq (catalogue : Catalogue) (o : Outline) (name : String) :
    (catalogue.lexicon o).knowsType name = (catalogue.denoted o name).isSome := by
  rw [denoted, Option.isSome_or]
  rfl

end Catalogue

/-! ## The parameters of a declaration -/

/-- The parameters of a declaration have the types that their annotations stand for. An annotation that
stands for nothing is reported once, in its place, and the parameter is dynamic. -/
structure Outline.Annotated (o : Outline) (meaning : String → Option TypeRef)
    (reports : List Diagnostic) (d : TypeDeclaration) : Prop where
  functions : ∃ entry made, d.methods = entry :: made ∧
    List.Forall₂ (fun (f : Function) (m : MethodDeclaration) => m.name = f.name ∧
      List.Forall₂ (fun (p : Param) (made : Parameter) => made.name = p.name ∧
        made.type = (p.type.bind fun written => meaning written.name).getD .dynamic)
        f.parameters m.parameters) o.tree.functions made
  reported : ∀ f ∈ o.tree.functions, ∀ p ∈ f.parameters, ∀ written, p.type = some written →
    reports.filter (fun r => r.span = written.span) =
      if (meaning written.name).isSome then []
      else [.ofFault o.unit written.span (.unknownType written.name)]

theorem UnitTree.mem_sites_of_annotated {tree : UnitTree} {f : Function} {p : Param} {written : TypeName}
    (function : f ∈ tree.functions) (parameter : p ∈ f.parameters) (typed : p.type = some written) :
    .type written ∈ tree.sites := by
  refine List.mem_append_right _ (List.mem_flatMap.mpr ⟨f, function, List.mem_append_left _ ?_⟩)
  refine List.mem_flatMap.mpr ⟨p, parameter, List.mem_append_left _ ?_⟩
  simp [typed]

namespace Toolchain

variable {catalogue : Catalogue} {unit : SourceUnit} {o : Outline}

theorem declaration_annotated (plain : catalogue.Plain)
    (read : Outline.read standard.grammar unit = .ok o) :
    o.Annotated (catalogue.denoted o) (standard.declaration catalogue o).2
      (standard.declaration catalogue o).1.declaration := by
  constructor
  · obtain ⟨body, made, all, -, functions⟩ := declaration_made plain read
    refine ⟨_, made, all, ?_⟩
    have each := (List.forall₂_and_left o.tree.functions made).mpr ⟨fun _ => id, functions⟩
    refine each.imp fun f m ⟨function, own⟩ => ⟨own.name, ?_⟩
    have given := (List.forall₂_and_left f.parameters m.parameters).mpr ⟨fun _ => id, own.parameters⟩
    refine given.imp fun p q ⟨parameter, always⟩ => ?_
    have yields := Emission.yields_of_made (surroundings_ordinary plain o) Emission.closed_true always
    refine ⟨yields.name, yields.type.trans ?_⟩
    cases typed : p.type with
    | none => rfl
    | some written =>
      rw [Option.bind_some, ← Catalogue.references_denoted function parameter typed]
      rfl
  · intro f function p parameter written typed
    have site := UnitTree.mem_sites_of_annotated function parameter typed
    rw [show written.span = (Site.type written).span from rfl, reports_at plain read site,
      Lexicon.finding?, Catalogue.knowsType_eq]
    split <;> rfl

end Toolchain

/-- In a session, whatever is declared and resolved and however the steps are interleaved, a resolve gives
the parameters of its unit the types that their annotations stand for where those types are declared that
are registered by now; and after the end every resolve comes to that. In a compilation, whatever the
schedule and even if units share a name, all units get the types that their annotations stand for where
just the units are declared that can be read. -/
theorem annotations_resolve_by_priority :
    (∀ capacity number schedule t,
      Translation.execute { session := .standard capacity number } schedule = some t →
      (∀ c ∈ t.conclusions, ∃ declared meaning, c.result = .ok declared ∧
        (∀ name meant, c.outline.Denotes (fun type => t.session.tables.Declares [type]) name meant ↔
          meant = meaning name) ∧
        c.outline.Annotated meaning c.reports declared.declaration) ∧
      (t.session.AtRest → t.session.tables.Ended → ∀ index o, t.started[index]? = some o →
        ∃ c ∈ t.conclusions, c.index = index ∧ c.outline = o)) ∧
    ∀ settings input schedule p,
      (Pipeline.start .standard settings input none).execute schedule = some p → p.isFinished = true →
      let units := Input.accepted settings.inputErrors input
      ∃ (declared : SourceUnit → Option DeclaredUnit) (reports : SourceUnit → List Diagnostic),
        (p.received.map CompiledUnit.declared).Perm
          ((units.filter SourceUnit.compiles).filterMap declared) ∧
        p.summary.diagnostics.Perm (units.flatMap reports) ∧
        (∀ unit, unit.parses = false → reports unit = []) ∧
        ∀ unit o, Outline.read Toolchain.standard.grammar unit = .ok o →
          ∃ d meaning, declared unit = some d ∧
            (∀ name meant, o.Denotes (fun type => ∃ other ∈ units, other.parses = true ∧
              other.qualifiedName = type) name meant ↔ meant = meaning name) ∧
            o.Annotated meaning (reports unit) d.declaration := by
  refine ⟨fun capacity number schedule t reached => ?_, fun settings input schedule p ran collected => ?_⟩
  · obtain ⟨orderly, kept⟩ := Translation.execute_kept capacity number reached
    have recorded := kept.foreseen.recorded
    refine ⟨fun c concluded => ?_, fun rest ended index o started => ?_⟩
    · obtain ⟨unit, read⟩ := recorded.read c.outline (List.mem_of_getElem? (recorded.concluded c concluded))
      obtain ⟨result, reports⟩ := kept.foreseen.declared _ orderly.accepted_plain (.refl _) c concluded
      refine ⟨_, t.session.tables.accepted.denoted c.outline, result, fun name meant => ?_, ?_⟩
      · exact Catalogue.denotes_iff fun type => Tables.declares_iff _ _ type
      · rw [reports]
        exact Toolchain.declaration_annotated orderly.accepted_plain read
    · obtain ⟨c, concluded, rfl, -⟩ := kept.concluded orderly rest ended
        (List.getElem?_eq_some_iff.mp started).1
      exact ⟨c, concluded, rfl, Option.some.inj ((recorded.concluded c concluded).symm.trans started)⟩
  · have foreseen := Pipeline.execute_foreseen ran
    have plain := foreseen.accepted_plain collected
    refine ⟨Toolchain.standard.declaredBy? p.tables.accepted,
      Toolchain.standard.diagnosticsBy p.tables.accepted, foreseen.received collected,
      foreseen.reported collected, fun unit unread => Toolchain.diagnosticsBy_of_unread _ unread,
      fun unit o read => ?_⟩
    refine ⟨_, p.tables.accepted.denoted o, Toolchain.declaredBy?_of_read _ _ read,
      fun name meant => ?_, ?_⟩
    · apply Catalogue.denotes_iff
      intro type
      rw [← foreseen.declares_iff collected]
      exact Tables.declares_iff _ _ type
    · rw [Toolchain.diagnosticsBy_of_read _ _ read]
      exact Toolchain.declaration_annotated plain read

/-- A unit that imports a type with the name of one in its own package. -/
def importing : SourceUnit where
  fileName := "A.firefly"
  relativePath := "m"
  content := .text "import lib.B\nfn f(x: B, y: Int, z: C, w: B) \x7b\x7d"

def empty (directory : String) : SourceUnit where
  fileName := "B.firefly"
  relativePath := directory
  content := .text ""

/-- The type of the own package is declared first, and the imported one when the unit already waits. -/
def shadowing : List Session.Operation :=
  [.declare (empty "m"), .declare importing, .resolve importing, .declare (empty "lib"), .finish]

theorem importing_annotated :
    (∃ (declared : DeclaredUnit) (o : Outline) (meaning : String → Option TypeRef),
      ((Session.standard 1 1).operateAll shadowing).resolves = [.done (.ok declared)] ∧
      o.Denotes (fun type => ((Session.standard 1 1).operateAll shadowing).tables.Declares [type]) "B"
        (meaning "B") ∧
      o.Annotated meaning ((Session.standard 1 1).operateAll shadowing).diagnostics declared.declaration ∧
      declared.declaration.methods.map (fun m => m.parameters.map Parameter.type) =
        [[.array .string], [.named "lib.B", .int, .dynamic, .named "lib.B"]]) ∧
    ((Session.standard 1 1).operateAll shadowing).diagnostics.map (fun d => (d.span, d.message)) =
      [(⟨2, 2, 35, 35⟩, "Could not resolve the type 'C'")] ∧
    ∃ schedule p, (Pipeline.start .standard {} ([empty "m", importing, empty "lib"].map .unit) none).execute
        schedule = some p ∧ p.isFinished = true ∧
      ∃ declared : SourceUnit → Option DeclaredUnit,
        (p.received.map CompiledUnit.declared).Perm
          (([empty "m", importing, empty "lib"].filter SourceUnit.compiles).filterMap declared) := by
  have told : ((Session.standard 1 1).operateAll shadowing).diagnostics.map (fun d => (d.span, d.message)) =
      [(⟨2, 2, 35, 35⟩, "Could not resolve the type 'C'")] := by
    decide +kernel
  have done : ((Session.standard 1 1).operateAll shadowing).resolves.map (fun resolve =>
      resolve.declared?.map fun declared => declared.declaration.methods.map fun m =>
        m.parameters.map Parameter.type) =
      [some [[.array .string], [.named "lib.B", .int, .dynamic, .named "lib.B"]]] := by
    decide +kernel
  have collected : (Pipeline.start .standard {} ([empty "m", importing, empty "lib"].map .unit)
      none).run.isFinished = true := by
    decide +kernel
  obtain ⟨sessions, pipelines⟩ := annotations_resolve_by_priority
  refine ⟨?_, told, ?_⟩
  · obtain ⟨declared, single, types⟩ := Session.exists_declared done
    obtain ⟨schedule, t, c, reached, -, same, -, concluded, result, reports⟩ :=
      Translation.operateAll_single 1 1 single
    obtain ⟨other, meaning, result', denotes, annotated⟩ :=
      (sessions 1 1 schedule t reached).1 c concluded
    obtain rfl : declared = other := Except.ok.inj (result.symm.trans result')
    rw [← same, reports]
    exact ⟨declared, c.outline, meaning, same ▸ single, (denotes "B" _).mpr rfl, annotated, types⟩
  · obtain ⟨schedule, ran⟩ := Pipeline.run_execute
      (.start .standard {} ([empty "m", importing, empty "lib"].map .unit) none)
    obtain ⟨declared, _, received, _⟩ := pipelines {} _ schedule _ ran collected
    exact ⟨schedule, _, ran, collected, declared, received⟩

end UnitCompiler
