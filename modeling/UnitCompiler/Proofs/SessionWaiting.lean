import UnitCompiler.Proofs.SessionCatalogue

/-! What the resolves of a session wait for. Every lookup without an answer belongs to one resolve that
runs, and until the tables end a resolve has passed no name that is not declared. So at rest a resolve
is done just if all its names are declared, and otherwise it waits for one of them. -/

namespace UnitCompiler

/-! ## Candidates -/

theorem Import.typeCandidates_ne_nil (imports : List Import) (package name : String) :
    typeCandidates imports package name ≠ [] := by
  unfold typeCandidates
  dsimp only
  split
  · next enough =>
    rcases Bool.or_eq_true_iff.mp enough with dotted | own
    · have found : name.toList.dropWhile (· != '.') ≠ [] := by
        intro none
        have all := List.dropWhile_eq_nil_iff.mp none '.' (by simpa [Text.isDotted] using dotted)
        simp at all
      obtain ⟨first, rest, split⟩ := List.exists_cons_of_ne_nil found
      unfold candidates Text.splitFirst
      rw [split]
      dsimp only
      split <;> simp
    · intro none
      simp [none] at own
  · simp

namespace Inquiry

theorem normalize_of_normal {i : Inquiry} (normal : i.Normal) : i.normalize = i := by
  have same : skip i.known i.types = (i.known, i.types) := by
    unfold skip
    split
    · next name rest types => exact absurd types (normal name rest)
    · rfl
  simp [normalize, same]

theorem ofOutline_types (o : Outline) : ∀ entry ∈ (ofOutline o).types, entry.2 ≠ [] := by
  intro entry member
  obtain ⟨name, -, rfl⟩ := List.mem_map.mp member
  exact Import.typeCandidates_ne_nil _ _ _

theorem normal_of_suffix {i : Inquiry} {o : Outline} {settled : List (String × List String)}
    (suffix : (ofOutline o).types = settled ++ i.types) : i.Normal := by
  intro name rest types
  rw [types] at suffix
  exact ofOutline_types o (name, []) (by simp [suffix]) rfl

theorem answerType_calls (i : Inquiry) (found : Option TypeDeclaration) :
    (i.answerType found).calls = i.calls := by
  unfold answerType
  split
  · split <;> rfl
  · rfl

end Inquiry

/-! ## Names that are declared -/

namespace Tables

/-- The first of some candidates for a type is declared. -/
def Declares (t : Tables) (candidates : List String) : Prop :=
  ∃ candidate others d, candidates = candidate :: others ∧ (candidate, d) ∈ t.types.accepted ∧
    d.qualifiedName = candidate

/-- An owner has a method that accepts a call. -/
def Offers (t : Tables) (owner : String) (call : Call) : Prop :=
  ∃ m, (owner, m) ∈ t.methods.accepted ∧ m.name = call.name ∧
    (CallForm.accepting call.arity).fits m.parameters = true

end Tables

/-- Everything that a unit refers to is declared, each type under its first candidate. -/
def Outline.Answerable (o : Outline) (t : Tables) : Prop :=
  (∀ name ∈ o.tree.annotations,
    t.Declares (Import.typeCandidates o.tree.importTable o.unit.packageName name)) ∧
  ∀ call ∈ o.tree.calls, t.Offers o.owner call

namespace Tables

variable {t t' : Tables}

theorem Declares.of_first? {candidate : String} {others : List String} {d : TypeDeclaration}
    (found : t.types.accepted.first? candidate (.ofType candidate) = some d) :
    t.Declares (candidate :: others) := by
  obtain ⟨member, accepts⟩ := Log.exists_of_first? found
  exact ⟨candidate, others, d, rfl, member, by simpa [Signature.ofType] using accepts⟩

theorem Declares.first? {candidate : String} {others : List String}
    (declares : t.Declares (candidate :: others)) :
    t.types.accepted.first? candidate (.ofType candidate) ≠ none := by
  obtain ⟨_, _, d, same, member, named⟩ := declares
  obtain ⟨rfl, -⟩ := List.cons.inj same
  intro none
  have other := (Log.first?_eq_none_iff _ _ _).mp none _ member rfl
  simp [Signature.ofType, named] at other

theorem Offers.of_first? {owner : String} {call : Call} {m : MethodDeclaration}
    (found : t.methods.accepted.first? owner (.ofMethod call.name (.accepting call.arity)) = some m) :
    t.Offers owner call := by
  obtain ⟨member, accepts⟩ := Log.exists_of_first? found
  simp only [Signature.ofMethod, Bool.and_eq_true, beq_iff_eq] at accepts
  exact ⟨m, member, accepts⟩

theorem Offers.first? {owner : String} {call : Call} (offers : t.Offers owner call) :
    t.methods.accepted.first? owner (.ofMethod call.name (.accepting call.arity)) ≠ none := by
  obtain ⟨m, member, named, fits⟩ := offers
  intro none
  have other := (Log.first?_eq_none_iff _ _ _).mp none _ member rfl
  simp [Signature.ofMethod, named, fits] at other

/-- What is declared once stays so. -/
theorem Declares.mono {candidates : List String} (declares : t.Declares candidates)
    (more : t.types.accepted <+: t'.types.accepted) : t'.Declares candidates := by
  obtain ⟨candidate, others, d, same, member, named⟩ := declares
  exact ⟨candidate, others, d, same, more.mem member, named⟩

theorem Offers.mono {owner : String} {call : Call} (offers : t.Offers owner call)
    (more : t.methods.accepted <+: t'.methods.accepted) : t'.Offers owner call := by
  obtain ⟨m, member, fits⟩ := offers
  exact ⟨m, more.mem member, fits⟩

end Tables

/-! ## Names that are passed -/

namespace Resolve

def types : Resolve → List (String × List String)
  | .running state => state.inquiry.types
  | .done _ => []

def calls : Resolve → List Call
  | .running state => state.inquiry.calls
  | .done _ => []

/-- Before the end, the names that a resolve has passed are declared. -/
structure Passes (t : Tables) (o : Outline) (resolve : Resolve) : Prop where
  types : t.types.registry.ended = false → ∃ settled,
    (Inquiry.ofOutline o).types = settled ++ resolve.types ∧ ∀ entry ∈ settled, t.Declares entry.2
  calls : t.methods.registry.ended = false → ∃ settled,
    o.tree.calls = settled ++ resolve.calls ∧ ∀ call ∈ settled, t.Offers o.owner call

variable {t t' : Tables} {o : Outline}

theorem Passes.start (o : Outline) (t : Tables) : Passes t o (.running (.start o)) := by
  have normal : (Inquiry.ofOutline o).Normal := Inquiry.normal_of_suffix (List.nil_append _).symm
  have same : (Resolving.start o).inquiry = Inquiry.ofOutline o := Inquiry.normalize_of_normal normal
  refine ⟨fun _ => ⟨[], ?_, by simp⟩, fun _ => ⟨[], ?_, by simp⟩⟩
  · rw [Resolve.types, same, List.nil_append]
  · rw [Resolve.calls, same, List.nil_append]
    rfl

theorem Passes.change {s : Session} (orderly : s.Orderly) {resolve : Resolve}
    (passes : Passes s.tables o resolve) (change : s.tables.Change t') : Passes t' o resolve := by
  obtain ⟨soundTypes, grownTypes⟩ := change.1.sound orderly.types
  obtain ⟨soundMethods, grownMethods⟩ := change.2.sound orderly.methods
  refine ⟨fun live => ?_, fun live => ?_⟩
  · have before : s.tables.types.registry.ended = false := by
      rw [← Bool.not_eq_true] at live ⊢
      exact fun ended => live (grownTypes.ended orderly.types soundTypes ended).1
    obtain ⟨settled, whole, declared⟩ := passes.types before
    exact ⟨settled, whole, fun entry member => (declared entry member).mono grownTypes.accepted⟩
  · have before : s.tables.methods.registry.ended = false := by
      rw [← Bool.not_eq_true] at live ⊢
      exact fun ended => live (grownMethods.ended orderly.methods soundMethods ended).1
    obtain ⟨settled, whole, offered⟩ := passes.calls before
    exact ⟨settled, whole, fun call member => (offered call member).mono grownMethods.accepted⟩

/-- A name is passed when its lookup has found it; before the end nothing else settles a lookup. -/
theorem Passes.next {s : Session} (orderly : s.Orderly) {state next : Resolving}
    (course : state.OnCourse s.tables.accepted s.tables)
    (passes : Passes s.tables state.outline (.running state))
    (move : state.Move s.tables (.continuing next) t') :
    Passes t' state.outline (.running next) := by
  cases move with
  | askType candidate question free => exact ⟨passes.types, passes.calls⟩
  | askMethod call question free => exact ⟨passes.types, passes.calls⟩
  | hearType candidate question index asked l there found settled =>
    have answer := (orderly.types.settles (.refl _)).found there settled
      (course.seeks index _ asked question)
    refine ⟨fun live => ?_, fun live => ?_⟩
    · obtain ⟨before, whole, declared⟩ := passes.types live
      obtain ⟨name, others, rest, types⟩ := Inquiry.types_of_question question
      rw [Resolve.types, types, List.append_cons] at whole
      cases found with
      | none =>
        have known := orderly.types.informed index l there
        rw [settled] at known
        rw [orderly.types.ended.mpr known.1] at live
        contradiction
      | some d =>
        have answered : state.inquiry.answerType (some d) = Inquiry.normalize
            { state.inquiry with
              types := rest
              known := { state.inquiry.known with
                types := state.inquiry.known.types ++ [(name, some (.named d.qualifiedName))] } } := by
          simp [Inquiry.answerType, types]
        rw [answered, Inquiry.normalize_of_normal (Inquiry.normal_of_suffix whole)]
        refine ⟨_, whole, fun entry member => ?_⟩
        rcases List.mem_append.mp member with old | new
        · exact declared entry old
        · rw [List.mem_singleton.mp new]
          exact .of_first? answer.symm
    · obtain ⟨before, whole, offered⟩ := passes.calls live
      exact ⟨before, by rw [whole, Resolve.calls, Resolve.calls, Inquiry.answerType_calls], offered⟩
  | hearMethod call question index asked l there found settled =>
    have answer := (orderly.methods.settles (.refl _)).found there settled
      (course.seeks index _ asked question)
    obtain ⟨rest, calls⟩ := Inquiry.calls_of_question question
    have answered : state.inquiry.answerMethod found = { state.inquiry with
        calls := rest
        known := { state.inquiry.known with
          methods := state.inquiry.known.methods ++ [(call, found)] } } := by
      simp [Inquiry.answerMethod, calls]
    refine ⟨fun live => ?_, fun live => ?_⟩
    · rw [answered]
      exact passes.types live
    · obtain ⟨before, whole, offered⟩ := passes.calls live
      rw [Resolve.calls, calls, List.append_cons] at whole
      rw [answered]
      cases found with
      | none =>
        have known := orderly.methods.informed index l there
        rw [settled] at known
        rw [orderly.methods.ended.mpr known.1] at live
        contradiction
      | some m =>
        refine ⟨_, whole, fun other member => ?_⟩
        rcases List.mem_append.mp member with old | new
        · exact offered other old
        · rw [List.mem_singleton.mp new]
          exact .of_first? answer.symm

theorem Passes.done {state : Resolving} {references : References} (normal : state.inquiry.Normal)
    (passes : Passes t o (.running state)) (move : state.Move t (.finished references) t')
    (result : Except DeclareError DeclaredUnit) : Passes t o (.done result) := by
  cases move with
  | done question =>
    obtain ⟨types, calls⟩ := state.inquiry.left_of_question normal question
    refine ⟨fun live => ?_, fun live => ?_⟩
    · obtain ⟨settled, whole, declared⟩ := passes.types live
      exact ⟨settled, by rw [whole, Resolve.types, types]; rfl, declared⟩
    · obtain ⟨settled, whole, offered⟩ := passes.calls live
      exact ⟨settled, by rw [whole, Resolve.calls, calls]; rfl, offered⟩

end Resolve

/-! ## Lookups that wait -/

inductive Spot where
  | type (lookup : Nat)
  | method (lookup : Nat)
  deriving DecidableEq, Repr

/-- The lookup that a resolve has started and not heard of yet. -/
def Resolve.spot? : Resolve → Option Spot
  | .running state =>
    match state.inquiry.question?, state.asked with
    | some (.type _), some lookup => some (.type lookup)
    | some (.method _), some lookup => some (.method lookup)
    | _, _ => none
  | .done _ => none

def Table.waiting {α : Type} [Named α] (t : Table α) : List Nat :=
  (List.range t.lookups.length).filter fun lookup => (t.lookups[lookup]?).any (·.phase.listens)

namespace Tables

def Has (t : Tables) : Spot → Prop
  | .type lookup => lookup < t.types.lookups.length
  | .method lookup => lookup < t.methods.lookups.length

def Unanswered (t : Tables) : Spot → Prop
  | .type lookup => ∃ l, t.types.lookups[lookup]? = some l ∧ l.phase.answer? = none
  | .method lookup => ∃ l, t.methods.lookups[lookup]? = some l ∧ l.phase.answer? = none

def waiting (t : Tables) : List Spot :=
  t.types.waiting.map .type ++ t.methods.waiting.map .method

end Tables

namespace Session

variable {s : Session}

def spots (s : Session) : List Spot := s.resolves.filterMap Resolve.spot?

/-- Each lookup without an answer is that of one resolve. -/
structure Watched (s : Session) : Prop where
  there : ∀ spot ∈ s.spots, s.tables.Has spot
  distinct : s.spots.Nodup
  covered : ∀ spot, s.tables.Unanswered spot → spot ∈ s.spots

theorem Watched.change (orderly : s.Orderly) (watched : s.Watched) {tables : Tables}
    (change : s.tables.Change tables) {declaring : Option Registering}
    {declared : Except DeclareError Outline} :
    Watched { s with tables, declaring, declared } := by
  have types : tables.types.lookups.length = s.tables.types.lookups.length := by
    simpa [Table.sought] using congrArg List.length change.1.sought
  have methods : tables.methods.lookups.length = s.tables.methods.lookups.length := by
    simpa [Table.sought] using congrArg List.length change.2.sought
  refine ⟨fun spot member => ?_, watched.distinct, fun spot waits => watched.covered spot ?_⟩
  · have before := watched.there spot member
    cases spot with
    | type lookup => exact Nat.lt_of_lt_of_eq before types.symm
    | method lookup => exact Nat.lt_of_lt_of_eq before methods.symm
  · cases spot with
    | type lookup =>
      obtain ⟨l, there, unanswered⟩ := waits
      exact change.1.unanswered orderly.types orderly.pairedTypes there unanswered
    | method lookup =>
      obtain ⟨l, there, unanswered⟩ := waits
      exact change.2.unanswered orderly.methods orderly.pairedMethods there unanswered

/-- A resolve without a lookup starts one behind all others. -/
theorem Watched.ask (watched : s.Watched) {index : Nat} {old new : Resolve}
    (there : s.resolves[index]? = some old) (free : old.spot? = none) {spot : Spot}
    (asks : new.spot? = some spot) {tables : Tables} (fresh : ¬ s.tables.Has spot)
    (has : ∀ other, tables.Has other ↔ s.tables.Has other ∨ other = spot)
    (waits : ∀ other, tables.Unanswered other → s.tables.Unanswered other ∨ other = spot) :
    Watched ({ s with tables }.setResolve index new) := by
  have moved : (({ s with tables }.setResolve index new).spots).Perm (s.spots ++ [spot]) := by
    have perm := filterMap_set_perm Resolve.spot? there free new
    rwa [asks] at perm
  refine ⟨fun other member => ?_, ?_, fun other unanswered => ?_⟩
  · rcases List.mem_append.mp (moved.mem_iff.mp member) with before | now
    · exact (has other).mpr (.inl (watched.there other before))
    · exact (has other).mpr (.inr (List.mem_singleton.mp now))
  · rw [moved.nodup_iff, List.nodup_append]
    refine ⟨watched.distinct, by simp, fun one member two now same => ?_⟩
    rw [same, List.mem_singleton.mp now] at member
    exact fresh (watched.there spot member)
  · rw [moved.mem_iff]
    rcases waits other unanswered with before | rfl
    · exact List.mem_append_left _ (watched.covered other before)
    · simp

/-- A resolve is done with its lookup, if it has one, once that has an answer. -/
theorem Watched.leave (watched : s.Watched) {index : Nat} {old new : Resolve}
    (there : s.resolves[index]? = some old) (idle : new.spot? = none)
    (answered : ∀ spot, old.spot? = some spot → ¬ s.tables.Unanswered spot)
    {resolves : List Resolve} (same : resolves = s.resolves.set index new) {instances : Nat}
    {diagnostics : List Diagnostic} :
    Watched { s with resolves, instances, diagnostics } := by
  subst same
  -- Putting the old resolve back in its place brings its lookup back.
  have back : s.spots.Perm ((s.resolves.set index new).filterMap Resolve.spot? ++ old.spot?.toList) := by
    obtain ⟨inside, here⟩ := List.getElem?_eq_some_iff.mp there
    have place : (s.resolves.set index new)[index]? = some new := by
      rw [getElem?_set_of_some there, if_pos rfl]
    have perm := filterMap_set_perm Resolve.spot? place idle old
    rwa [List.set_set, ← here, List.set_getElem_self, here] at perm
  refine ⟨fun spot member => ?_, ?_, fun spot unanswered => ?_⟩
  · exact watched.there spot (back.mem_iff.mpr (List.mem_append_left _ member))
  · exact (List.nodup_append.mp (back.nodup_iff.mp watched.distinct)).1
  · rcases List.mem_append.mp (back.mem_iff.mp (watched.covered spot unanswered)) with kept | left
    · exact kept
    · exact absurd unanswered (answered spot (Option.mem_toList.mp left))

/-- A resolve goes on: it starts a lookup, or it hears of one. -/
theorem Watched.next (watched : s.Watched) {index : Nat} {state next : Resolving}
    (there : s.resolves[index]? = some (.running state)) {tables : Tables}
    (move : state.Move s.tables (.continuing next) tables) :
    Watched ({ s with tables }.setResolve index (.running next)) := by
  cases move with
  | askType candidate question free =>
    refine watched.ask there (by simp [Resolve.spot?, question, free])
      (by simp [Resolve.spot?, question]; rfl) (Nat.lt_irrefl _) (fun other => ?_) fun other waits => ?_
    · cases other with
      | type lookup =>
        rw [Tables.Has, Tables.Has, Table.seek, List.length_append, List.length_singleton,
          Spot.type.injEq]
        omega
      | method lookup => simp [Tables.Has]
    · cases other with
      | type lookup =>
        obtain ⟨l, found, unanswered⟩ := waits
        rcases getElem?_snoc found with old | ⟨rfl, -⟩
        · exact .inl ⟨l, old, unanswered⟩
        · exact .inr rfl
      | method lookup => exact .inl waits
  | askMethod call question free =>
    refine watched.ask there (by simp [Resolve.spot?, question, free])
      (by simp [Resolve.spot?, question]; rfl) (Nat.lt_irrefl _) (fun other => ?_) fun other waits => ?_
    · cases other with
      | type lookup => simp [Tables.Has]
      | method lookup =>
        rw [Tables.Has, Tables.Has, Table.seek, List.length_append, List.length_singleton,
          Spot.method.injEq]
        omega
    · cases other with
      | type lookup => exact .inl waits
      | method lookup =>
        obtain ⟨l, found, unanswered⟩ := waits
        rcases getElem?_snoc found with old | ⟨rfl, -⟩
        · exact .inl ⟨l, old, unanswered⟩
        · exact .inr rfl
  | hearType candidate question lookup asked l found answer settled =>
    refine watched.leave there (by simp [Resolve.spot?]) (fun spot own => ?_) rfl
    obtain rfl : .type lookup = spot := by simpa [Resolve.spot?, question, asked] using own
    rintro ⟨l', found', unanswered⟩
    obtain rfl := Option.some.inj (found.symm.trans found')
    simp [settled, Phase.answer?] at unanswered
  | hearMethod call question lookup asked l found answer settled =>
    refine watched.leave there (by simp [Resolve.spot?]) (fun spot own => ?_) rfl
    obtain rfl : .method lookup = spot := by simpa [Resolve.spot?, question, asked] using own
    rintro ⟨l', found', unanswered⟩
    obtain rfl := Option.some.inj (found.symm.trans found')
    simp [settled, Phase.answer?] at unanswered

end Session

namespace Translation

variable {t t' : Translation}

def Passed (t : Translation) : Prop :=
  ∀ (index : Nat) (o : Outline) (resolve : Resolve), t.started[index]? = some o →
    t.session.resolves[index]? = some resolve → resolve.Passes t.session.tables o

theorem Passed.move (orderly : t.session.Orderly) (foreseen : t.Foreseen) (passed : t.Passed)
    (move : Move t t') : t'.Passed := by
  have recorded := foreseen.recorded
  have course := foreseen.course _ orderly.accepted_plain (.refl _)
  intro place o resolve outline found
  cases move with
  | aside tables change => exact (passed place o resolve outline found).change orderly change
  | start unit own read =>
    have outside {β : Type} {list : List β} {item : β} (size : list.length = t.started.length) :
        list[t.started.length]? ≠ some item := by
      simp [← size]
    rcases getElem?_snoc found with old | ⟨rfl, rfl⟩
    · rcases getElem?_snoc outline with before | ⟨rfl, -⟩
      · exact passed place o resolve before old
      · exact absurd old (outside recorded.length)
    · rw [recorded.length] at outline
      rcases getElem?_snoc outline with before | ⟨-, rfl⟩
      · exact absurd before (outside rfl)
      · exact .start o t.session.tables
  | resume index state next there tables move =>
    have here := (getElem?_set_of_some there (Resolve.running next) place).symm.trans found
    split at here
    · next same =>
      subst same
      cases here
      obtain rfl := Option.some.inj ((recorded.running index state there).symm.trans outline)
      exact (passed index _ _ outline there).next orderly (course index state there) move
    · have before := passed place o resolve outline here
      cases move <;> exact ⟨before.types, before.calls⟩
  | conclude index state there references move unit diagnostics instances emitted =>
    have here := (getElem?_set_of_some there (Resolve.done (.ok unit)) place).symm.trans found
    split at here
    · next same =>
      subst same
      cases here
      exact (passed index _ _ outline there).done (course index state there).normal move _
    · exact passed place o resolve outline here

theorem watched_move (orderly : t.session.Orderly) (watched : t.session.Watched) (move : Move t t') :
    t'.session.Watched := by
  cases move with
  | aside tables change => exact watched.change orderly change
  | start unit o read =>
    have same : (t.session.resolves ++ [Resolve.running (.start o)]).filterMap Resolve.spot? =
        t.session.spots := by
      apply filterMap_snoc_none
      simp [Resolve.spot?, Resolving.start]
    refine ⟨fun spot member => ?_, ?_, fun spot waits => ?_⟩
    · rw [Session.spots, same] at member
      exact watched.there spot member
    · rw [Session.spots, same]
      exact watched.distinct
    · rw [Session.spots, same]
      exact watched.covered spot waits
  | resume index state next there tables move => exact watched.next there move
  | conclude index state there references move unit diagnostics instances emitted =>
    refine watched.leave there rfl (fun spot own => ?_) rfl
    cases move with
    | done question => simp [Resolve.spot?, question] at own

structure Kept (t : Translation) : Prop where
  foreseen : t.Foreseen
  passed : t.Passed
  watched : t.session.Watched

theorem Kept.move (orderly : t.session.Orderly) (kept : t.Kept) (move : Move t t') : t'.Kept where
  foreseen := kept.foreseen.move orderly move
  passed := kept.passed.move orderly kept.foreseen move
  watched := watched_move orderly kept.watched move

/-- What every schedule leads to. -/
theorem execute_kept (capacity number : Nat) {schedule : List Turn}
    (reached : execute { session := .standard capacity number } schedule = some t) :
    t.session.Orderly ∧ t.Kept := by
  refine execute_induction (fun orderly kept move => kept.move orderly move)
    (Session.standard_orderly capacity number) ?_ reached
  refine ⟨⟨⟨rfl, by simp [Session.standard], by simp, ?_, by simp, by simp, rfl⟩, ?_, by simp⟩,
    by simp [Passed], ?_⟩
  · simp [Session.standard]
  · simp [Session.standard]
  · refine ⟨by simp [Session.spots, Session.standard], by simp [Session.spots, Session.standard], ?_⟩
    rintro (lookup | lookup) ⟨l, there, -⟩ <;>
      simp [Session.standard, Tables.withCapacity, Table.withCapacity] at there

end Translation

end UnitCompiler
