import UnitCompiler.Proofs.DeclarationAssembly
import UnitCompiler.Proofs.InquiryResolution
import UnitCompiler.Proofs.PipelineOutcome

/-! The way of a unit to its references. A catalogue of declarations gives every name a meaning; where
settled lookups hold what the catalogue gives, a unit that asks them is on its way to the references
that it has by the catalogue, and so to its declaration. -/

namespace UnitCompiler

/-- What may be registered in the tables of a compilation, in order. -/
structure Catalogue where
  types : Log TypeDeclaration
  methods : Log MethodDeclaration

namespace Catalogue

variable (catalogue : Catalogue)

def meaning (owner : String) : Meaning where
  type candidate := catalogue.types.first? candidate (.ofType candidate)
  method call := catalogue.methods.first? owner (.ofMethod call.name (.accepting call.arity))

def references (o : Outline) : References :=
  (Inquiry.ofOutline o).complete (catalogue.meaning o.owner)

/-- No default reads a parameter of an instance. -/
def Plain : Prop :=
  ∀ entry ∈ catalogue.methods, ∀ p ∈ entry.2.parameters, ∀ default, p.default = some default →
    default.Plain

variable {catalogue}

/-- A method that is known is what the catalogue gives for the call. -/
theorem references_method {o : Outline} {call : Call} {target : MethodDeclaration}
    (known : (catalogue.references o).method? call = some target) :
    (catalogue.meaning o.owner).method call = some target := by
  have listed := Option.join_eq_some_iff.mp known
  obtain ⟨before, after, whole, -⟩ := List.lookup_eq_some_iff.mp listed
  have member : (call, some target) ∈ (catalogue.references o).methods := by
    rw [whole]
    simp
  have found : call ∈ o.tree.calls ∧ (catalogue.meaning o.owner).method call = some target := by
    simpa [references, Inquiry.complete, Inquiry.ofOutline, Meaning.methods] using member
  exact found.2

theorem references_plain (plain : catalogue.Plain) (o : Outline) : (catalogue.references o).Plain :=
  fun _ _ known => plain _ (Log.exists_of_first? (references_method known)).1

end Catalogue

theorem Outline.methods_plain {grammar : Grammar} {unit : SourceUnit} {o : Outline}
    (read : Outline.read grammar unit = .ok o) :
    ∀ target ∈ o.methods, ∀ p ∈ target.parameters, ∀ default, p.default = some default →
      default.Plain := by
  intro target member p inside default given
  obtain ⟨source, tree, -, -, rfl⟩ := Outline.read_ok read
  obtain ⟨value, rfl⟩ := Outline.ofTree_literal unit tree target member p inside default given
  exact fun _ _ => rfl

namespace Toolchain

/-- What the standard grammar reads is parsed. -/
theorem read_standard {unit : SourceUnit} {o : Outline}
    (read : Outline.read standard.grammar unit = .ok o) :
    ∃ source tree, UnitTree.parse source = .ok tree ∧ o = .ofTree unit tree := by
  obtain ⟨source, tree, -, accepted, rfl⟩ := Outline.read_ok read
  refine ⟨source, tree, ?_, rfl⟩
  change standardGrammar source = .ok tree at accepted
  unfold standardGrammar at accepted
  cases result : UnitTree.parse source with
  | ok other =>
    rw [result] at accepted
    exact congrArg Except.ok (Except.ok.inj accepted)
  | error e =>
    rw [result] at accepted
    contradiction

theorem read_whole {unit : SourceUnit} {o : Outline}
    (read : Outline.read standard.grammar unit = .ok o) : o.Whole := by
  obtain ⟨source, tree, parsed, rfl⟩ := read_standard read
  exact Outline.ofTree_whole unit parsed

def declaration (toolchain : Toolchain) (catalogue : Catalogue) (o : Outline) :
    DeclaredUnit × List Diagnostic :=
  let emitted := o.emit toolchain.inliner 1 (catalogue.references o)
  (emitted.1, emitted.2.1)

/-- Whatever instances were made before, a unit is declared in the same way. -/
theorem emit_standard {catalogue : Catalogue} (plain : catalogue.Plain) {unit : SourceUnit} {o : Outline}
    (read : Outline.read standard.grammar unit = .ok o) (number : Nat) :
    ∃ instances, o.emit standard.inliner number (catalogue.references o) =
      ((standard.declaration catalogue o).1, (standard.declaration catalogue o).2, instances) := by
  have references := Catalogue.references_plain plain o
  obtain ⟨declared, diagnosed⟩ := Outline.emit_number (read_whole read) references number 1
  exact ⟨(o.emit standard.inliner number (catalogue.references o)).2.2,
    Prod.ext declared (Prod.ext diagnosed rfl)⟩

end Toolchain

/-! ## Looking up names -/

namespace Table

variable {α : Type} [Named α] {t : Table α}

/-- What settled lookups hold is what a log gives. -/
def Settles (t : Table α) (log : Log α) : Prop :=
  ∀ (index : Nat) (l : Lookup α) (found : Option α), t.lookups[index]? = some l →
    l.phase = .settled found → found = log.first? l.owner l.signature

/-- A lookup in such a table holds what the log gives for what was sought. -/
theorem Settles.found {log : Log α} (settles : t.Settles log) {index : Nat} {l : Lookup α}
    (there : t.lookups[index]? = some l) {found : Option α} (settled : l.phase = .settled found)
    {owner : String} {signature : Signature α} (sought : t.sought[index]? = some (owner, signature)) :
    found = log.first? owner signature := by
  rw [sought_getElem? t index l there, Option.some.injEq, Prod.mk.injEq] at sought
  rw [settles index l found there settled, sought.1, sought.2]

end Table

namespace Tables

/-- Lookups are added and never changed. -/
def Extends (t t' : Tables) : Prop :=
  t.types.sought <+: t'.types.sought ∧ t.methods.sought <+: t'.methods.sought

theorem Extends.of_eq {t t' : Tables} (types : t'.types.sought = t.types.sought)
    (methods : t'.methods.sought = t.methods.sought) : t.Extends t' := by
  rw [Extends, types, methods]
  exact ⟨List.prefix_refl _, List.prefix_refl _⟩

theorem perform_extends {t t' : Tables} {action : Action} (moved : t.perform action = some t') :
    t.Extends t' := by
  rcases perform_step moved with ⟨types, step, rfl⟩ | ⟨methods, step, rfl⟩
  · exact .of_eq step.sought rfl
  · exact .of_eq rfl step.sought

def Seeks (t : Tables) (owner : String) (index : Nat) : Question → Prop
  | .type candidate => t.types.sought[index]? = some (candidate, .ofType candidate)
  | .method call =>
    t.methods.sought[index]? = some (owner, .ofMethod call.name (.accepting call.arity))

theorem Seeks.extend {t t' : Tables} {owner : String} {index : Nat} {question : Question}
    (seeks : t.Seeks owner index question) (more : t.Extends t') : t'.Seeks owner index question := by
  have kept {β : Type} {list list' : List β} (start : list <+: list') {item : β}
      (there : list[index]? = some item) : list'[index]? = some item := by
    obtain ⟨bound, rfl⟩ := List.getElem?_eq_some_iff.mp there
    exact List.prefix_iff_getElem?.mp start index bound
  cases question with
  | type candidate => exact kept more.1 seeks
  | method call => exact kept more.2 seeks

end Tables

namespace Resolving

variable {catalogue : Catalogue} {r r' : Resolving} {t t' : Tables}

def Poses (r : Resolving) (t : Tables) : Prop :=
  ∀ index question, r.asked = some index → r.inquiry.question? = some question →
    t.Seeks r.outline.owner index question

theorem Poses.start (o : Outline) (t : Tables) : (Resolving.start o).Poses t :=
  fun _ _ asked => by contradiction

theorem Poses.extend (poses : r.Poses t) (more : t.Extends t') : r.Poses t' :=
  fun index question asked posed => (poses index question asked posed).extend more

theorem Move.extends (move : r.Move t (.continuing r') t') : t.Extends t' := by
  cases move with
  | askType candidate =>
    refine ⟨?_, List.prefix_refl _⟩
    rw [t.types.sought_seek candidate (.ofType candidate)]
    exact List.prefix_append _ _
  | askMethod call =>
    refine ⟨List.prefix_refl _, ?_⟩
    rw [t.methods.sought_seek r.outline.owner (.ofMethod call.name (.accepting call.arity))]
    exact List.prefix_append _ _
  | hearType | hearMethod => exact .of_eq rfl rfl

theorem Move.poses (move : r.Move t (.continuing r') t') : r'.Poses t' := by
  cases move with
  | askType candidate question free =>
    intro index posed asked same
    obtain rfl := Option.some.inj asked
    obtain rfl := Option.some.inj (question.symm.trans same)
    simp [Tables.Seeks, Table.sought, Table.seek]
  | askMethod call question free =>
    intro index posed asked same
    obtain rfl := Option.some.inj asked
    obtain rfl := Option.some.inj (question.symm.trans same)
    simp [Tables.Seeks, Table.sought, Table.seek]
  | hearType | hearMethod =>
    intro index posed asked
    contradiction

/-- A unit is on its way to the references that a catalogue gives it, and what it looks up is what it
asks for. -/
structure OnCourse (catalogue : Catalogue) (t : Tables) (r : Resolving) : Prop where
  normal : r.inquiry.Normal
  complete : r.inquiry.complete (catalogue.meaning r.outline.owner) = catalogue.references r.outline
  seeks : ∀ index question, r.asked = some index → r.inquiry.question? = some question →
    t.Seeks r.outline.owner index question

namespace OnCourse

theorem start (o : Outline) (t : Tables) : OnCourse catalogue t (.start o) where
  normal := Inquiry.normalize_normal _
  complete := Inquiry.normalize_complete _ _
  seeks := Poses.start o t

theorem extend (course : r.OnCourse catalogue t) (more : t.Extends t') : r.OnCourse catalogue t' :=
  { course with seeks := Poses.extend course.seeks more }

theorem done (course : r.OnCourse catalogue t) {references : References}
    (move : r.Move t (.finished references) t') :
    references = catalogue.references r.outline ∧ t' = t := by
  cases move with
  | done question =>
    rw [← course.complete, Inquiry.complete_of_question _ _ course.normal question]
    exact ⟨rfl, rfl⟩

theorem next (course : r.OnCourse catalogue t) (types : t.types.Settles catalogue.types)
    (methods : t.methods.Settles catalogue.methods) (move : r.Move t (.continuing r') t') :
    r'.OnCourse catalogue t' ∧ t.Extends t' := by
  refine ⟨?_, move.extends⟩
  have seeks := move.poses
  cases move with
  | askType | askMethod => exact ⟨course.normal, course.complete, seeks⟩
  | hearType candidate question index asked l there found settled =>
    have answer := types.found there settled (course.seeks index _ asked question)
    obtain ⟨complete, normal⟩ := r.inquiry.answerType_complete
      (catalogue.meaning r.outline.owner) candidate question
    rw [answer] at seeks ⊢
    exact ⟨normal, complete.trans course.complete, seeks⟩
  | hearMethod call question index asked l there found settled =>
    have answer := methods.found there settled (course.seeks index _ asked question)
    obtain ⟨complete, normal⟩ := r.inquiry.answerMethod_complete
      (catalogue.meaning r.outline.owner) call course.normal question
    rw [answer] at seeks ⊢
    exact ⟨normal, complete.trans course.complete, seeks⟩

end OnCourse

end Resolving

end UnitCompiler
