import UnitCompiler.Proofs.OutlineRegistration
import UnitCompiler.Proofs.TableSteps
import UnitCompiler.Session

/-! Sessions under any interleaving. Units are declared one after another, resolves are started and the
tables are ended at any point, and in between the tables, the declaration and the resolves take their
steps in any order. What a step can do is said once; each invariant follows from it. -/

namespace UnitCompiler

structure Conclusion where
  index : Nat
  outline : Outline
  result : Except DeclareError DeclaredUnit
  reports : List Diagnostic

/-- A session together with its past. -/
structure Translation where
  session : Session
  /-- The outlines of all resolves, in the order in which they were started. -/
  started : List Outline := []
  /-- In the order in which resolves were done. -/
  conclusions : List Conclusion := []

def Session.standard (capacity number : Nat) : Session where
  grammar := Toolchain.standard.grammar
  inliner := Toolchain.standard.inliner
  tables := .withCapacity capacity
  instances := number

/-- What a step makes of a resolve, if it is done by it. -/
def Session.concludes? (s next : Session) : Session.Action → Option Conclusion
  | .resolve index =>
    match s.resolves[index]?, next.resolves[index]? with
    | some (.running state), some (.done result) =>
      some ⟨index, state.outline, result, next.diagnostics.drop s.diagnostics.length⟩
    | _, _ => none
  | _ => none

namespace Translation

inductive Turn where
  | declare (unit : SourceUnit)
  | resolve (unit : SourceUnit)
  | endTypes
  | endMethods
  | step (action : Session.Action)

/-- One unit is declared at a time, and only what can be read is resolved. Everything else is free. -/
def turn (t : Translation) : Turn → Option Translation
  | .declare unit =>
    match t.session.declaring, Outline.read t.session.grammar unit with
    | none, .ok outline => some { t with session := { t.session with declaring := some { outline } } }
    | none, .error _ => some t
    | some _, _ => none
  | .resolve unit =>
    match Outline.read t.session.grammar unit with
    | .ok o =>
      let resolves := t.session.resolves ++ [.running (.start o)]
      some { t with session := { t.session with resolves }, started := t.started ++ [o] }
    | .error _ => none
  | .endTypes =>
    let types := t.session.tables.types.post Session.ender .finish
    some { t with session := { t.session with tables := { t.session.tables with types } } }
  | .endMethods =>
    let methods := t.session.tables.methods.post Session.ender .finish
    some { t with session := { t.session with tables := { t.session.tables with methods } } }
  | .step action =>
    (t.session.perform action).map fun session =>
      { t with
        session
        conclusions := t.conclusions ++ (t.session.concludes? session action).toList }

def execute (t : Translation) (schedule : List Turn) : Option Translation := runSchedule turn t schedule

@[simp] theorem execute_nil (t : Translation) : t.execute [] = some t := rfl

@[simp] theorem execute_cons (t : Translation) (turn : Turn) (schedule : List Turn) :
    t.execute (turn :: schedule) = (t.turn turn).bind fun next => next.execute schedule := rfl

end Translation

/-! ## What a turn can do -/

def Request.Plain : Request MethodDeclaration → Prop
  | .register _ d => ∀ p ∈ d.parameters, ∀ default, p.default = some default → default.Plain
  | _ => True

def Tables.Change (t t' : Tables) : Prop :=
  t.types.Change (fun _ => True) t'.types ∧ t.methods.Change Request.Plain t'.methods

theorem Tables.perform_change {t t' : Tables} {action : Action}
    (performed : t.perform action = some t') : t.Change t' := by
  rcases perform_step performed with ⟨types, step, rfl⟩ | ⟨methods, step, rfl⟩
  · exact ⟨step.change, .idle⟩
  · exact ⟨.idle, step.change⟩

namespace Table

variable {α : Type} [Named α] {t t' : Table α} {caller : Nat}

/-- A caller will get an answer, or has one. -/
def Owes (t : Table α) (caller : Nat) : Prop :=
  t.calls caller ≠ [] ∨ t.answers caller ≠ []

theorem Owes.transfer (owes : t.Owes caller) (calls : t'.calls caller = t.calls caller)
    (answers : t'.answers caller = t.answers caller) : t'.Owes caller := by
  rwa [Owes, calls, answers]

theorem Owes.post (owes : t.Owes caller) (sound : t.Sound) (other : Nat) (request : Request α) :
    (t.post other request).Owes caller := by
  rcases owes with called | answered
  · exact .inl (by rw [calls_post t sound.running]; simp [called])
  · exact .inr (by rwa [answers, replies_post t sound.running])

theorem owes_post (sound : t.Sound) (caller : Nat) (request : Request α) :
    (t.post caller request).Owes caller :=
  .inl (by rw [calls_post t sound.running]; simp)

theorem Owes.step (owes : t.Owes caller) (step : t.Step t') : t'.Owes caller := by
  cases step with
  | serve t' served =>
    rcases serve_frame served with
      ⟨other, request, rest, first, rfl⟩ | ⟨letter, rest, lookups, first, silent, rfl, -⟩
    · have calls := calls_answered t other caller request rest first
      have answers := answers_answered t other caller request rest
      by_cases own : other = caller
      · exact .inr (by rw [answers, if_pos own]; simp)
      · rw [if_neg own] at calls answers
        exact owes.transfer (by rw [calls, List.nil_append]) (by rw [answers, List.append_nil])
    · exact owes.transfer (by simp [calls, outstanding, first, silent]) rfl
  | advance index t' advanced =>
    obtain ⟨phase, letters, rfl, silent⟩ := advance_frame advanced
    exact owes.transfer (by simp [calls, outstanding, silent]) rfl

end Table

namespace Registering

variable {r : Registering} {caller : Nat} {t t' : Tables}

structure Attended (r : Registering) (caller : Nat) (t : Tables) : Prop where
  type : r.posted = true → r.confirmed = 0 → t.types.Owes caller
  method : r.posted = true → r.confirmed ≠ 0 → t.methods.Owes caller

theorem Attended.perform (attended : r.Attended caller t) {action : Tables.Action}
    (performed : t.perform action = some t') : r.Attended caller t' := by
  rcases Tables.perform_step performed with ⟨types, step, rfl⟩ | ⟨methods, step, rfl⟩
  · exact ⟨fun posted first => (attended.type posted first).step step, attended.method⟩
  · exact ⟨attended.type, fun posted later => (attended.method posted later).step step⟩

/-- A task that goes on has just asked, or is about to. -/
theorem Attended.continuing {next : Registering} (types : t.types.Sound) (methods : t.methods.Sound)
    (step : r.step? caller t = some (.continuing next, t')) : next.Attended caller t' := by
  unfold step? at step
  split at step
  · next first free =>
    cases step
    exact ⟨fun _ _ => Table.owes_post types caller _, fun _ later => absurd first later⟩
  · obtain ⟨⟨reply, types⟩, -, heeded⟩ := Option.map_eq_some_iff.mp step
    obtain ⟨-, rfl⟩ := heed_continuing (Prod.mk.inj heeded).1
    exact ⟨nofun, nofun⟩
  · next n later free =>
    split at step
    · simp at step
    · cases step
      exact ⟨fun _ first => absurd (later.symm.trans first) (Nat.succ_ne_zero n),
        fun _ _ => Table.owes_post methods caller _⟩
  · obtain ⟨⟨reply, methods⟩, -, heeded⟩ := Option.map_eq_some_iff.mp step
    obtain ⟨-, rfl⟩ := heed_continuing (Prod.mk.inj heeded).1
    exact ⟨nofun, nofun⟩

structure Ready (r : Registering) : Prop where
  valid : r.Valid
  read : ∃ unit, Outline.read Toolchain.standard.grammar unit = .ok r.outline

/-- What a turn of a task does to a table. -/
theorem Turn.change {α : Type} [Named α] {plan : Plan α} {allowed : Request α → Prop}
    {table table' : Table α} (turn : r.Turn plan caller table table')
    (fine : ∀ owner declaration, plan r.outline r.confirmed = some (owner, declaration) →
      allowed (.register owner declaration)) : table.Change allowed table' := by
  cases turn with
  | elsewhere absent => exact .idle
  | ask owner declaration planned free => exact .post caller _ (fine owner declaration planned)
  | hear owner declaration planned waiting _ taken => exact .take caller _ _ taken

/-- A task that fails has taken an answer. -/
theorem step_took {error : DeclareError} (step : r.step? caller t = some (.failed error, t')) :
    (∃ reply types, t.types.takeReply? caller = some (reply, types) ∧ t' = { t with types }) ∨
    ∃ reply methods, t.methods.takeReply? caller = some (reply, methods) ∧ t' = { t with methods } := by
  unfold step? at step
  split at step
  · simp at step
  · obtain ⟨⟨reply, types⟩, taken, heeded⟩ := Option.map_eq_some_iff.mp step
    exact .inl ⟨reply, types, taken, (Prod.mk.inj heeded).2.symm⟩
  · split at step <;> simp at step
  · obtain ⟨⟨reply, methods⟩, taken, heeded⟩ := Option.map_eq_some_iff.mp step
    exact .inr ⟨reply, methods, taken, (Prod.mk.inj heeded).2.symm⟩

theorem failed_change {error : DeclareError} (step : r.step? caller t = some (.failed error, t')) :
    t.Change t' := by
  rcases step_took step with ⟨reply, types, taken, rfl⟩ | ⟨reply, methods, taken, rfl⟩
  · exact ⟨.take caller reply types taken, .idle⟩
  · exact ⟨.idle, .take caller reply methods taken⟩

theorem continuing_change {next : Registering} (ready : r.Ready)
    (step : r.step? caller t = some (.continuing next, t')) : t.Change t' ∧ next.Ready := by
  obtain ⟨rfl, unfinished, types, methods⟩ := step_continuing ready.valid step
  obtain ⟨unit, read⟩ := ready.read
  refine ⟨⟨types.change fun _ _ _ => trivial, methods.change ?_⟩,
    next_valid ready.valid unfinished, unit, by rw [read, next_outline]⟩
  intro owner declaration planned
  cases confirmed : r.confirmed with
  | zero => simp [confirmed, Outline.methodPlan] at planned
  | succ n =>
    rw [confirmed, Outline.methodPlan, Option.map_eq_some_iff] at planned
    obtain ⟨declaration, there, same⟩ := planned
    obtain ⟨rfl, rfl⟩ := Prod.mk.inj same
    exact Outline.methods_plain read declaration (List.mem_of_getElem? there)

end Registering

namespace Session

/-- The tables are sound, and what is declared in them was read. -/
structure Orderly (s : Session) : Prop where
  grammar : s.grammar = Toolchain.standard.grammar
  inliner : s.inliner = Toolchain.standard.inliner
  types : s.tables.types.Sound
  methods : s.tables.methods.Sound
  pairedTypes : s.tables.types.Paired
  pairedMethods : s.tables.methods.Paired
  plain : s.tables.methods.Registers Request.Plain
  ready : ∀ r, s.declaring = some r → r.Ready
  attended : ∀ r, s.declaring = some r → r.Attended declarer s.tables

theorem standard_orderly (capacity number : Nat) : (standard capacity number).Orderly where
  grammar := rfl
  inliner := rfl
  types := Table.withCapacity_sound capacity
  methods := Table.withCapacity_sound capacity
  pairedTypes := Table.withCapacity_paired capacity
  pairedMethods := Table.withCapacity_paired capacity
  plain := Table.withCapacity_registers capacity
  ready _ declares := by contradiction
  attended _ declares := by contradiction

theorem Orderly.change {s : Session} (orderly : s.Orderly) {tables : Tables}
    (change : s.tables.Change tables) {declaring : Option Registering}
    {declared : Except DeclareError Outline} (ready : ∀ r, declaring = some r → r.Ready)
    (attended : ∀ r, declaring = some r → r.Attended declarer tables) :
    Orderly { s with tables, declaring, declared } where
  grammar := orderly.grammar
  inliner := orderly.inliner
  types := (change.1.sound orderly.types).1
  methods := (change.2.sound orderly.methods).1
  pairedTypes := change.1.paired orderly.types orderly.pairedTypes
  pairedMethods := change.2.paired orderly.methods orderly.pairedMethods
  plain := change.2.registers orderly.methods orderly.plain
  ready := ready
  attended := attended

inductive Resumes (s : Session) (index : Nat) : Session → Prop where
  | continues (state next : Resolving) (there : s.resolves[index]? = some (.running state))
      (tables : Tables) (move : state.Move s.tables (.continuing next) tables) :
      Resumes s index ({ s with tables }.setResolve index (.running next))
  | concludes (state : Resolving) (there : s.resolves[index]? = some (.running state))
      (references : References) (move : state.Move s.tables (.finished references) s.tables)
      (unit : DeclaredUnit) (diagnostics : List Diagnostic) (instances : Nat)
      (emitted : state.outline.emit s.inliner s.instances references =
        (unit, diagnostics, instances)) :
      Resumes s index ({ s with
        instances
        diagnostics := s.diagnostics ++ diagnostics }.setResolve index (.done (.ok unit)))

theorem resolve_resumes {s s' : Session} (orderly : s.Orderly) {index : Nat}
    (performed : s.perform (.resolve index) = some s') : s.Resumes index s' := by
  match there : s.resolves[index]? with
  | none => simp [perform, there] at performed
  | some (.done result) => simp [perform, there] at performed
  | some (.running state) =>
    simp only [perform, there] at performed
    obtain ⟨⟨progress, tables⟩, step, rfl⟩ := Option.map_eq_some_iff.mp performed
    have move := Resolving.step_move orderly.types orderly.methods step
    cases progress with
    | continuing next => exact .continues state next there tables move
    | finished references =>
      obtain rfl : tables = s.tables := by
        cases move
        rfl
      obtain ⟨unit, diagnostics, instances, emitted⟩ : ∃ unit diagnostics instances,
          state.outline.emit s.inliner s.instances references =
            (unit, diagnostics, instances) := ⟨_, _, _, rfl⟩
      simp only [finishResolve, emitted]
      exact .concludes state there references move unit diagnostics instances emitted
    | failed error => cases move

inductive Declares (s : Session) : Session → Prop where
  | continues (r : Registering) (declares : s.declaring = some r) (tables : Tables)
      (step : r.step? declarer s.tables = some (.continuing r.next, tables)) :
      Declares s { s with tables, declaring := some r.next }
  | concludes (r : Registering) (declares : s.declaring = some r) (free : r.posted = false)
      (all : r.confirmed = r.outline.size) :
      Declares s { s with declaring := none, declared := .ok r.outline }
  | fails (r : Registering) (declares : s.declaring = some r) (error : DeclareError) (tables : Tables)
      (step : r.step? declarer s.tables = some (.failed error, tables)) :
      Declares s { s with tables, declaring := none, declared := .error error }

theorem declare_declares {s s' : Session} (orderly : s.Orderly)
    (performed : s.perform .declare = some s') : s.Declares s' := by
  match declares : s.declaring with
  | none => simp [perform, declares] at performed
  | some r =>
    have valid := (orderly.ready r declares).valid
    simp only [perform, declares] at performed
    obtain ⟨⟨progress, tables⟩, step, rfl⟩ := Option.map_eq_some_iff.mp performed
    cases progress with
    | continuing next =>
      obtain ⟨rfl, -⟩ := Registering.step_continuing valid step
      exact .continues r declares tables step
    | finished o =>
      obtain ⟨rfl, rfl, free, all⟩ := Registering.step_finished valid step
      exact .concludes r declares free all
    | failed error => exact .fails r declares error tables step

end Session

namespace Translation

/-- What a turn does: something aside from the resolves, or something with one of them. -/
inductive Move (t : Translation) : Translation → Prop where
  | aside (tables : Tables) (change : t.session.tables.Change tables)
      (declaring : Option Registering) (declared : Except DeclareError Outline)
      (ready : ∀ r, declaring = some r → r.Ready)
      (attended : ∀ r, declaring = some r → r.Attended Session.declarer tables) :
      Move t { t with session := { t.session with tables, declaring, declared } }
  | start (unit : SourceUnit) (o : Outline)
      (read : Outline.read Toolchain.standard.grammar unit = .ok o) :
      Move t { t with
        session := { t.session with resolves := t.session.resolves ++ [.running (.start o)] }
        started := t.started ++ [o] }
  | resume (index : Nat) (state next : Resolving)
      (there : t.session.resolves[index]? = some (.running state)) (tables : Tables)
      (move : state.Move t.session.tables (.continuing next) tables) :
      Move t { t with session := { t.session with tables }.setResolve index (.running next) }
  | conclude (index : Nat) (state : Resolving)
      (there : t.session.resolves[index]? = some (.running state)) (references : References)
      (move : state.Move t.session.tables (.finished references) t.session.tables)
      (unit : DeclaredUnit) (diagnostics : List Diagnostic) (instances : Nat)
      (emitted : state.outline.emit t.session.inliner t.session.instances references =
        (unit, diagnostics, instances)) :
      Move t { t with
        session := { t.session with
          instances
          diagnostics := t.session.diagnostics ++ diagnostics }.setResolve index (.done (.ok unit))
        conclusions := t.conclusions ++ [⟨index, state.outline, .ok unit, diagnostics⟩] }

variable {t t' : Translation}

/-- A step of a resolve goes on or comes to a conclusion. -/
theorem resolve_move (orderly : t.session.Orderly) {index : Nat} {session : Session}
    (performed : t.session.perform (.resolve index) = some session) :
    Move t { t with
      session
      conclusions := t.conclusions ++ (t.session.concludes? session (.resolve index)).toList } := by
  cases Session.resolve_resumes orderly performed with
  | continues state next there tables move =>
    have goes : t.session.concludes? ({ t.session with tables }.setResolve index (.running next))
        (.resolve index) = none := by
      simp [Session.concludes?, there, Session.setResolve, getElem?_set_of_some there]
    rw [goes, Option.toList_none, List.append_nil]
    exact .resume index state next there tables move
  | concludes state there references move unit diagnostics instances emitted =>
    have concludes : t.session.concludes? ({ t.session with
          instances
          diagnostics := t.session.diagnostics ++ diagnostics }.setResolve index
            (.done (.ok unit))) (.resolve index) =
        some ⟨index, state.outline, .ok unit, diagnostics⟩ := by
      simp [Session.concludes?, there, Session.setResolve, getElem?_set_of_some there]
    rw [concludes]
    exact .conclude index state there references move unit diagnostics instances emitted

theorem declare_move (orderly : t.session.Orderly) {session : Session}
    (performed : t.session.perform .declare = some session) : Move t { t with session } := by
  cases Session.declare_declares orderly performed with
  | continues r declares tables step =>
    obtain ⟨change, later⟩ := Registering.continuing_change (orderly.ready r declares) step
    have attended := Registering.Attended.continuing orderly.types orderly.methods step
    exact .aside tables change (some r.next) _ (fun _ same => Option.some.inj same ▸ later)
      fun _ same => Option.some.inj same ▸ attended
  | concludes r => exact .aside t.session.tables ⟨.idle, .idle⟩ none _ (by simp) (by simp)
  | fails r declares error tables step =>
    exact .aside tables (Registering.failed_change step) none _ (by simp) (by simp)

/-- Every turn of an orderly session is one of the moves. -/
theorem turn_move (orderly : t.session.Orderly) {turn : Turn} (taken : t.turn turn = some t') :
    Move t t' := by
  cases turn with
  | declare unit =>
    unfold Translation.turn at taken
    dsimp only at taken
    split at taken
    · next outline idle read =>
      cases taken
      rw [orderly.grammar] at read
      refine .aside t.session.tables ⟨.idle, .idle⟩ (some { outline }) t.session.declared ?_ ?_
      · rintro r same
        obtain rfl := Option.some.inj same
        exact ⟨⟨Nat.zero_le _, by simp⟩, unit, read⟩
      · rintro r same
        obtain rfl := Option.some.inj same
        exact ⟨nofun, nofun⟩
    · cases taken
      exact .aside t.session.tables ⟨.idle, .idle⟩ t.session.declaring t.session.declared
        orderly.ready orderly.attended
    · contradiction
  | resolve unit =>
    unfold Translation.turn at taken
    dsimp only at taken
    split at taken
    · next o read =>
      cases taken
      rw [orderly.grammar] at read
      exact .start unit o read
    · contradiction
  | endTypes =>
    cases taken
    have change : t.session.tables.Change { t.session.tables with
        types := t.session.tables.types.post Session.ender .finish } :=
      ⟨.post _ _ trivial, .idle⟩
    refine .aside _ change t.session.declaring t.session.declared orderly.ready fun r declares => ?_
    have before := orderly.attended r declares
    exact ⟨fun posted first => (before.type posted first).post orderly.types _ _, before.method⟩
  | endMethods =>
    cases taken
    have change : t.session.tables.Change { t.session.tables with
        methods := t.session.tables.methods.post Session.ender .finish } :=
      ⟨.idle, .post _ _ trivial⟩
    refine .aside _ change t.session.declaring t.session.declared orderly.ready fun r declares => ?_
    have before := orderly.attended r declares
    exact ⟨before.type, fun posted later => (before.method posted later).post orderly.methods _ _⟩
  | step action =>
    obtain ⟨session, performed, rfl⟩ := Option.map_eq_some_iff.mp taken
    cases action with
    | tables action =>
      obtain ⟨tables, moved, rfl⟩ := Option.map_eq_some_iff.mp performed
      simp only [Session.concludes?, Option.toList_none, List.append_nil]
      exact .aside tables (Tables.perform_change moved) t.session.declaring t.session.declared
        orderly.ready fun r declares => (orderly.attended r declares).perform moved
    | declare =>
      simp only [Session.concludes?, Option.toList_none, List.append_nil]
      exact declare_move orderly performed
    | resolve index => exact resolve_move orderly performed

theorem Move.orderly (move : Move t t') (orderly : t.session.Orderly) : t'.session.Orderly := by
  cases move with
  | aside tables change declaring declared ready attended =>
    exact orderly.change change ready attended
  | start unit o read => exact { orderly with }
  | resume index state next there tables move =>
    cases move with
    | askType candidate question free =>
      exact { orderly with
        types := orderly.types.seek _ _
        pairedTypes := orderly.pairedTypes.seek _ _
        attended := fun r declares => { orderly.attended r declares with } }
    | askMethod call question free =>
      exact { orderly with
        methods := orderly.methods.seek _ _
        pairedMethods := orderly.pairedMethods.seek _ _
        plain := ⟨orderly.plain.accepted, orderly.plain.outstanding⟩
        attended := fun r declares => { orderly.attended r declares with } }
    | hearType | hearMethod => exact { orderly with }
  | conclude index state there references move unit diagnostics instances emitted =>
    exact { orderly with }

/-- What every move keeps holds after every schedule. -/
theorem execute_induction {P : Translation → Prop}
    (step : ∀ {t t' : Translation}, t.session.Orderly → P t → Move t t' → P t') {schedule : List Turn}
    (orderly : t.session.Orderly) (start : P t) (executed : t.execute schedule = some t') :
    t'.session.Orderly ∧ P t' := by
  refine runSchedule_induction (P := fun _ u => u.session.Orderly ∧ P u) ⟨orderly, start⟩ ?_ executed
  rintro past u turn next ⟨orderly, kept⟩ taken
  have move := turn_move orderly taken
  exact ⟨move.orderly orderly, step orderly kept move⟩

theorem execute_append {first second : List Turn} :
    t.execute (first ++ second) = (t.execute first).bind fun next => next.execute second :=
  runSchedule_append t first second

end Translation

end UnitCompiler
