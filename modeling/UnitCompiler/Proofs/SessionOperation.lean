import Mathlib.Data.List.Induction
import UnitCompiler.Proofs.SessionProvenance
import UnitCompiler.Proofs.SessionRegistration
import UnitCompiler.Proofs.SessionRest

/-! Sequences of operations on a session. Each operation waits until the session is at rest again, so that
a sequence of them is one of the schedules; what it registers is the units that it declares before the
end, in order. -/

namespace UnitCompiler

/-! ## Tables that have ended -/

namespace Tables

def Ended (t : Tables) : Prop := t.types.registry.ended = true ∧ t.methods.registry.ended = true

end Tables

namespace Translation

variable {t t' : Translation}

/-- After the end nothing is registered any more. -/
theorem Move.ended (orderly : t.session.Orderly) (ended : t.session.tables.Ended) (move : Move t t') :
    t'.session.tables.Ended ∧ t'.session.tables.accepted = t.session.tables.accepted := by
  cases move with
  | aside tables change =>
    obtain ⟨soundTypes, grownTypes⟩ := change.1.sound orderly.types
    obtain ⟨soundMethods, grownMethods⟩ := change.2.sound orderly.methods
    obtain ⟨endedTypes, types⟩ := grownTypes.ended orderly.types soundTypes ended.1
    obtain ⟨endedMethods, methods⟩ := grownMethods.ended orderly.methods soundMethods ended.2
    exact ⟨⟨endedTypes, endedMethods⟩, by simp only [Tables.accepted, types, methods]⟩
  | start unit o read => exact ⟨ended, rfl⟩
  | resume index state next there tables move => cases move <;> exact ⟨ended, rfl⟩
  | conclude => exact ⟨ended, rfl⟩

theorem execute_ended {schedule : List Turn} (orderly : t.session.Orderly)
    (ended : t.session.tables.Ended) (executed : t.execute schedule = some t') :
    t'.session.tables.Ended ∧ t'.session.tables.accepted = t.session.tables.accepted := by
  apply (execute_induction _ orderly (P := fun u => u.session.tables.Ended ∧
    u.session.tables.accepted = t.session.tables.accepted) ⟨ended, rfl⟩ executed).2
  intro u u' orderly kept move
  obtain ⟨still, same⟩ := move.ended orderly kept.1
  exact ⟨still, same.trans kept.2⟩

/-! ## One operation -/

/-- A schedule of some units leads to a session at rest, with some resolves added. -/
def Rests (t : Translation) (units : List SourceUnit) (s : Session) (more : List Outline)
    (t' : Translation) : Prop :=
  ∃ schedule, t.execute schedule = some t' ∧ (∀ turn ∈ schedule, turn.Within units) ∧
    t'.session = s ∧ t'.started = t.started ++ more ∧ t'.session.AtRest

theorem settle_rests (orderly : t.session.Orderly) : ∃ t', t.Rests [] t.session.settle [] t' ∧
    t'.session.Orderly ∧ ∀ (endTypes endMethods : Bool) (catalogue : Catalogue),
      t.session.Files endTypes endMethods catalogue → t'.session.Files endTypes endMethods catalogue := by
  obtain ⟨leads, rest⟩ := settle_leads orderly
  have keeps (endTypes endMethods : Bool) (catalogue : Catalogue)
      (files : t.session.Files endTypes endMethods catalogue) :
      t.session.settle.Files endTypes endMethods catalogue :=
    leads.keeps (P := fun s => s.Files endTypes endMethods catalogue)
      (fun orderly files performed => files.perform orderly performed) orderly files
  obtain ⟨actions, t', executed, same, started, kept⟩ := leads
  rw [← same] at rest keeps
  exact ⟨t', ⟨_, executed, by simp [Turn.Within], same, by rw [started, List.append_nil],
    (Session.next?_eq_none_iff _).mp rest⟩, kept, keeps⟩

/-- A turn, and then everything comes to rest. -/
theorem turn_rests (orderly : t.session.Orderly) (units : List SourceUnit) (turn : Turn)
    (own : turn.Within units) (s : Session) (more : List Outline)
    (taken : ∃ next, t.turn turn = some next ∧ next.session = s ∧ next.started = t.started ++ more) :
    ∃ t', t.Rests units s.settle more t' ∧ t'.session.Orderly ∧
      ∀ (endTypes endMethods : Bool) (catalogue : Catalogue),
        s.Files endTypes endMethods catalogue → t'.session.Files endTypes endMethods catalogue := by
  obtain ⟨next, taken, rfl, started⟩ := taken
  obtain ⟨t', ⟨schedule, executed, within, same, past, rest⟩, kept, keeps⟩ :=
    settle_rests ((turn_move orderly taken).orderly orderly)
  refine ⟨t', ⟨turn :: schedule, by simp [taken, executed], ?_, same,
    by rw [past, started, List.append_nil], rest⟩, kept, keeps⟩
  exact List.forall_mem_cons.mpr ⟨own, fun turn member => (within turn member).mono (List.nil_subset _)⟩

theorem declare_rests (orderly : t.session.Orderly) (rest : t.session.AtRest) (unit : SourceUnit) :
    ∃ t', t.Rests [unit] (t.session.declare unit).2 [] t' ∧ t'.session.Orderly ∧
      ∀ units, t.session.Files false false (Toolchain.standard.catalogue units) →
        t'.session.Files false false (Toolchain.standard.catalogue (units ++ [unit])) := by
  have idle := rest.declaring orderly
  have grammar := orderly.grammar
  cases read : Outline.read Toolchain.standard.grammar unit with
  | error failure =>
    refine ⟨t, ⟨[], rfl, nofun, ?_, (List.append_nil _).symm, rest⟩, orderly, fun units files => ?_⟩
    · simp [Session.declare, grammar, read]
    · simpa [Toolchain.catalogue, Plan.ofUnit, read] using files
  | ok o =>
    have own : Outline.read t.session.grammar unit = .ok o := by rw [grammar, read]
    obtain ⟨t', rests, kept, keeps⟩ := turn_rests orderly [unit] (.declare unit) List.mem_cons_self
      { t.session with declaring := some { outline := o } } []
      ⟨{ t with session := { t.session with declaring := some { outline := o } } },
        by simp only [turn, idle, own], rfl, (List.append_nil _).symm⟩
    refine ⟨t', by simpa only [Session.declare, own] using rests, kept, fun units files => ?_⟩
    apply keeps
    obtain ⟨types, methods⟩ := files
    rw [idle] at types methods
    simpa [Toolchain.catalogue, Plan.ofUnit, read] using
      (⟨types.start o, methods.start o⟩ : Session.Files _ false false ⟨_, _⟩)

theorem resolve_rests (orderly : t.session.Orderly) {unit : SourceUnit} {o : Outline}
    (read : Outline.read Toolchain.standard.grammar unit = .ok o) :
    ∃ t', t.Rests [unit] (t.session.resolve o) [o] t' ∧ t'.session.Orderly ∧
      ∀ catalogue, t.session.Files false false catalogue →
        t'.session.Files false false catalogue := by
  have own : Outline.read t.session.grammar unit = .ok o := by rw [orderly.grammar, read]
  obtain ⟨t', rests, kept, keeps⟩ := turn_rests orderly [unit] (.resolve unit) List.mem_cons_self
    { t.session with resolves := t.session.resolves ++ [.running (.start o)] } [o]
    ⟨_, by simp only [turn, own]; rfl, rfl, rfl⟩
  exact ⟨t', rests, kept, fun _ files => keeps _ _ _ ⟨files.types, files.methods⟩⟩

theorem finish_rests (orderly : t.session.Orderly) (rest : t.session.AtRest) :
    ∃ t', t.Rests [] t.session.finish [] t' ∧ t'.session.Orderly ∧
      ∀ catalogue, t.session.Files false false catalogue →
        t'.session.Files true true catalogue := by
  obtain ⟨first, ⟨one, executed, own, same, started, quiet⟩, kept, keeps⟩ :=
    turn_rests orderly [] .endTypes trivial
    { t.session with tables := { t.session.tables with
      types := t.session.tables.types.post Session.ender .finish } } []
    ⟨_, rfl, rfl, (List.append_nil _).symm⟩
  obtain ⟨t', ⟨two, again, own', last, past, quiet'⟩, kept', keeps'⟩ :=
    turn_rests kept [] .endMethods trivial
    { first.session with tables := { first.session.tables with
      methods := first.session.tables.methods.post Session.ender .finish } } []
    ⟨_, rfl, rfl, (List.append_nil _).symm⟩
  refine ⟨t', ⟨one ++ two, by simp [execute_append, executed, again],
    List.forall_mem_append.mpr ⟨own, own'⟩, ?_, ?_, quiet'⟩, kept', ?_⟩
  · rw [last, same]
    rfl
  · rw [past, started, List.append_nil]
  · intro catalogue files
    have idle := rest.declaring orderly
    obtain ⟨types, methods⟩ := files
    rw [idle] at types methods
    obtain ⟨ending, still⟩ := keeps true false catalogue
      ⟨by rw [idle]; exact types.finish orderly.types, by rw [idle]; exact methods⟩
    have idle' := quiet.declaring kept
    rw [idle'] at ending still
    exact keeps' _ _ _ ⟨by rw [idle']; exact ending, by rw [idle']; exact still.finish kept.methods⟩

end Translation

/-- At rest the tables hold what they were to hold. -/
theorem Session.Files.rested {s : Session} {endTypes endMethods : Bool} {catalogue : Catalogue}
    (files : s.Files endTypes endMethods catalogue) (orderly : s.Orderly) (rest : s.AtRest) :
    s.tables.accepted = catalogue ∧ s.tables.types.registry.ended = endTypes ∧
      s.tables.methods.registry.ended = endMethods := by
  obtain ⟨types, methods⟩ := files
  rw [rest.declaring orderly] at types methods
  obtain ⟨sameTypes, endedTypes⟩ := types.rested rest.types
  obtain ⟨sameMethods, endedMethods⟩ := methods.rested rest.methods
  refine ⟨?_, endedTypes, endedMethods⟩
  rw [Tables.accepted, sameTypes, sameMethods]

/-! ## Sequences of operations -/

def Resolve.declared? : Resolve → Option DeclaredUnit
  | .done (.ok declared) => some declared
  | .done (.error _) | .running _ => none

theorem Resolve.declared?_eq_some_iff {resolve : Resolve} {declared : DeclaredUnit} :
    resolve.declared? = some declared ↔ resolve = .done (.ok declared) := by
  cases resolve with
  | running state => simp [declared?]
  | done result => cases result <;> simp [declared?]

theorem Session.exists_declared {s : Session} {α : Type} {view : DeclaredUnit → α} {shown : α}
    (done : s.resolves.map (fun resolve => resolve.declared?.map view) = [some shown]) :
    ∃ declared, s.resolves = [.done (.ok declared)] ∧ view declared = shown := by
  obtain ⟨resolve, single, viewed⟩ := List.map_eq_singleton_iff.mp done
  obtain ⟨declared, known, same⟩ := Option.map_eq_some_iff.mp viewed
  rw [Resolve.declared?_eq_some_iff.mp known] at single
  exact ⟨declared, single, same⟩

namespace Session

inductive Operation where
  | declare (unit : SourceUnit)
  | resolve (unit : SourceUnit)
  | finish

/-- What cannot be read is neither declared nor resolved. -/
def operate (s : Session) : Operation → Session
  | .declare unit => (s.declare unit).2
  | .resolve unit =>
    match Outline.read s.grammar unit with
    | .ok o => s.resolve o
    | .error _ => s
  | .finish => s.finish

def operateAll (s : Session) (operations : List Operation) : Session := operations.foldl operate s

namespace Operation

def declared : List Operation → List SourceUnit
  | [] => []
  | .declare unit :: rest => unit :: declared rest
  | .resolve _ :: rest => declared rest
  | .finish :: _ => []

def units : Operation → List SourceUnit
  | .declare unit | .resolve unit => [unit]
  | .finish => []

/-- All units are declared, the end comes, and then one of them is resolved. -/
def last (units : List SourceUnit) (unit : SourceUnit) : List Operation :=
  units.map .declare ++ [.finish, .resolve unit]

def outline? : Operation → Option Outline
  | .resolve unit => Toolchain.standard.outline? unit
  | _ => none

def isResolve : Operation → Bool
  | .resolve _ => true
  | _ => false

/-- The same units are declared in the same order, nothing is resolved, and the end comes. -/
def unresolved (operations : List Operation) : List Operation :=
  operations.filter (fun operation => !operation.isResolve) ++ [.finish]

theorem declared_unresolved (operations : List Operation) :
    declared (unresolved operations) = declared operations := by
  induction operations with
  | nil => rfl
  | cons operation rest ih =>
    cases operation with
    | declare unit => exact congrArg (unit :: ·) ih
    | resolve unit => exact ih
    | finish => rfl

theorem declared_append {operations : List Operation} (live : .finish ∉ operations)
    (more : List Operation) : declared (operations ++ more) = declared operations ++ declared more := by
  induction operations with
  | nil => rfl
  | cons operation rest ih =>
    have tail := ih fun member => live (List.mem_cons_of_mem _ member)
    cases operation with
    | declare unit => exact congrArg (unit :: ·) tail
    | resolve unit => exact tail
    | finish => exact absurd List.mem_cons_self live

theorem declared_of_mem {operations : List Operation} (ended : .finish ∈ operations)
    (more : List Operation) : declared (operations ++ more) = declared operations := by
  induction operations with
  | nil => contradiction
  | cons operation rest ih =>
    cases operation with
    | declare unit => exact congrArg (unit :: ·) (ih (by simpa using ended))
    | resolve unit => exact ih (by simpa using ended)
    | finish => rfl

theorem declared_last (units : List SourceUnit) (unit : SourceUnit) :
    declared (last units unit) = units := by
  unfold last
  induction units with
  | nil => rfl
  | cons first others ih => exact congrArg (first :: ·) ih

theorem units_last {list : List SourceUnit} {unit : SourceUnit} (member : unit ∈ list) :
    (last list unit).flatMap units ⊆ list := by
  intro other inside
  obtain ⟨operation, among, own⟩ := List.mem_flatMap.mp inside
  rcases List.mem_append.mp among with declares | after
  · obtain ⟨declared, there, rfl⟩ := List.mem_map.mp declares
    rwa [List.mem_singleton.mp own]
  · rcases List.mem_cons.mp after with rfl | resolves
    · contradiction
    · rw [List.mem_singleton.mp resolves] at own
      rwa [List.mem_singleton.mp own]

end Operation

end Session

namespace Translation

open Session (Operation)

variable {t : Translation} {operations : List Operation}

structure Conducted (t : Translation) (operations : List Operation) : Prop where
  orderly : t.session.Orderly
  rest : t.session.AtRest
  started : t.started = operations.filterMap Operation.outline?
  live : .finish ∉ operations →
    t.session.Files false false (Toolchain.standard.catalogue (Operation.declared operations))
  ended : .finish ∈ operations → t.session.tables.Ended ∧
    t.session.tables.accepted = Toolchain.standard.catalogue (Operation.declared operations)

theorem Conducted.accepted (conducted : t.Conducted operations) : t.session.tables.accepted =
    Toolchain.standard.catalogue (Operation.declared operations) := by
  by_cases ended : .finish ∈ operations
  · exact (conducted.ended ended).2
  · exact ((conducted.live ended).rested conducted.orderly conducted.rest).1

/-- One more operation, of which it is known what it registers while the end has not come. -/
theorem Conducted.snoc (conducted : t.Conducted operations) {operation : Operation} {s : Session}
    {units : List SourceUnit} {t' : Translation}
    (rests : t.Rests units s operation.outline?.toList t') (orderly : t'.session.Orderly)
    (ending : Bool) (last : ending = true ↔ operation = .finish)
    (files : .finish ∉ operations → t'.session.Files ending ending
      (Toolchain.standard.catalogue (Operation.declared (operations ++ [operation])))) :
    t'.Conducted (operations ++ [operation]) := by
  obtain ⟨schedule, executed, -, -, started, rest⟩ := rests
  refine ⟨orderly, rest, ?_, fun live => ?_, fun ended => ?_⟩
  · rw [started, conducted.started, List.filterMap_append, List.append_cancel_left_eq]
    cases outline : operation.outline? <;> simp [outline]
  · rw [List.mem_append, List.mem_singleton, not_or] at live
    have continues : ending = false := by
      rw [← Bool.not_eq_true, last]
      exact Ne.symm live.2
    exact continues ▸ files live.1
  · by_cases before : .finish ∈ operations
    · rw [Operation.declared_of_mem before, ← (conducted.ended before).2]
      exact execute_ended conducted.orderly (conducted.ended before).1 executed
    · have closes : ending = true := by
        rw [last]
        simpa [before, eq_comm] using ended
      obtain ⟨accepted, types, methods⟩ := (files before).rested orderly rest
      exact ⟨⟨types.trans closes, methods.trans closes⟩, accepted⟩

theorem Conducted.operate (conducted : t.Conducted operations) (operation : Operation) :
    ∃ t', t.Rests operation.units (t.session.operate operation) operation.outline?.toList t' ∧
      t'.Conducted (operations ++ [operation]) := by
  have orderly := conducted.orderly
  cases operation with
  | declare unit =>
    obtain ⟨t', rests, kept, files⟩ := declare_rests orderly conducted.rest unit
    refine ⟨t', rests, conducted.snoc rests kept false (by simp) fun live => ?_⟩
    rw [Operation.declared_append live]
    exact files _ (conducted.live live)
  | finish =>
    obtain ⟨t', rests, kept, files⟩ := finish_rests orderly conducted.rest
    refine ⟨t', rests, conducted.snoc rests kept true (by simp) fun live => ?_⟩
    rw [Operation.declared_append live, Operation.declared, List.append_nil]
    exact files _ (conducted.live live)
  | resolve unit =>
    have same : Operation.declared [.resolve unit] = [] := rfl
    cases read : Outline.read Toolchain.standard.grammar unit with
    | error failure =>
      have unread : (Operation.resolve unit).outline? = none := by
        simp [Operation.outline?, Toolchain.outline?, read, Except.toOption]
      have rests : t.Rests [unit] (t.session.operate (.resolve unit))
          (Operation.resolve unit).outline?.toList t := by
        refine ⟨[], rfl, by simp, ?_, by rw [unread]; exact (List.append_nil _).symm, conducted.rest⟩
        simp [Session.operate, orderly.grammar, read]
      refine ⟨t, rests, conducted.snoc rests orderly false (by simp) fun live => ?_⟩
      rw [Operation.declared_append live, same, List.append_nil]
      exact conducted.live live
    | ok o =>
      have own : (Operation.resolve unit).outline? = some o :=
        Toolchain.standard.outline?_eq_some_iff.mpr read
      obtain ⟨t', rests, kept, files⟩ := resolve_rests orderly read
      have operates : t.session.operate (.resolve unit) = t.session.resolve o := by
        simp [Session.operate, orderly.grammar, read]
      rw [operates, own]
      refine ⟨t', rests, conducted.snoc (by rw [own]; exact rests) kept false (by simp)
        fun live => ?_⟩
      rw [Operation.declared_append live, same, List.append_nil]
      exact files _ (conducted.live live)

/-- Every sequence of operations is one of the schedules, and has come to rest. -/
theorem operateAll_conducted (capacity number : Nat) (operations : List Operation) :
    ∃ schedule t, execute { session := .standard capacity number } schedule = some t ∧
      (∀ turn ∈ schedule, turn.Within (operations.flatMap Operation.units)) ∧
      t.session = (Session.standard capacity number).operateAll operations ∧
      t.Conducted operations := by
  induction operations using List.reverseRecOn with
  | nil =>
    refine ⟨[], _, rfl, nofun, rfl, Session.standard_orderly capacity number, ?_, rfl, fun _ => ?_, by simp⟩
    · exact (Session.next?_eq_none_iff _).mp rfl
    · exact Session.standard_files capacity number
  | append_singleton operations operation ih =>
    obtain ⟨schedule, t, executed, within, same, conducted⟩ := ih
    obtain ⟨t', ⟨more, later, own, session, -⟩, kept⟩ := conducted.operate operation
    refine ⟨schedule ++ more, t', by simp [execute_append, executed, later], ?_, ?_, kept⟩
    · rw [List.flatMap_append, List.flatMap_singleton, List.forall_mem_append]
      exact ⟨fun turn member => (within turn member).mono (List.subset_append_left _ _),
        fun turn member => (own turn member).mono (List.subset_append_right _ _)⟩
    · rw [session, same, Session.operateAll, Session.operateAll, List.foldl_append]
      rfl

/-- Where there was one resolve, it is what the schedule has concluded. -/
theorem operateAll_single (capacity number : Nat) {operations : List Operation} {declared : DeclaredUnit}
    (single : ((Session.standard capacity number).operateAll operations).resolves =
      [.done (.ok declared)]) :
    ∃ schedule t c, execute { session := .standard capacity number } schedule = some t ∧
      (∀ turn ∈ schedule, turn.Within (operations.flatMap Operation.units)) ∧
      t.session = (Session.standard capacity number).operateAll operations ∧ t.Conducted operations ∧
      c ∈ t.conclusions ∧ c.result = .ok declared ∧ t.session.diagnostics = c.reports := by
  obtain ⟨schedule, t, reached, within, same, conducted⟩ := operateAll_conducted capacity number operations
  have recorded := (execute_kept capacity number reached).2.foreseen.recorded
  obtain ⟨c, only, result, reports⟩ := recorded.single (same ▸ single)
  exact ⟨schedule, t, c, reached, within, same, conducted, by simp [only], result, reports⟩

end Translation

end UnitCompiler
