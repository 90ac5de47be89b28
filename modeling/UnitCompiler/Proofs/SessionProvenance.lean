import UnitCompiler.Proofs.SessionSchedule

/-! Where declared methods come from. If the units that are declared and resolved have different names,
the methods that a unit finds under its own name are its own, however the session is interleaved. -/

namespace UnitCompiler

/-- A turn that brings in a unit takes one of the given units. -/
def Translation.Turn.Within (units : List SourceUnit) : Translation.Turn → Prop
  | .declare unit | .resolve unit => unit ∈ units
  | .endTypes | .endMethods | .step _ => True

theorem Translation.Turn.Within.mono {units more : List SourceUnit} (subset : units ⊆ more)
    {turn : Translation.Turn} (within : turn.Within units) : turn.Within more := by
  cases turn with
  | declare unit | resolve unit => exact subset within
  | endTypes | endMethods | step action => trivial

namespace Outline

def From (units : List SourceUnit) (o : Outline) : Prop :=
  ∃ unit ∈ units, Outline.read Toolchain.standard.grammar unit = .ok o

variable {units : List SourceUnit} {o other : Outline}

/-- Units with different names have outlines with different owners. -/
theorem From.eq_of_owner (distinct : (units.map SourceUnit.qualifiedName).Nodup) (one : o.From units)
    (two : other.From units) (same : o.owner = other.owner) : o = other := by
  obtain ⟨unit, inside, read⟩ := one
  obtain ⟨unit', inside', read'⟩ := two
  have name : unit.qualifiedName = unit'.qualifiedName := by
    obtain ⟨_, _, -, -, rfl⟩ := Outline.read_ok read
    obtain ⟨_, _, -, -, rfl⟩ := Outline.read_ok read'
    exact same
  obtain rfl := List.inj_on_of_nodup_map distinct inside inside' name
  exact Except.ok.inj (read.symm.trans read')

end Outline

/-- Only methods of the given units are registered, each under the name of its unit. -/
def Request.Sourced (units : List SourceUnit) : Request MethodDeclaration → Prop
  | .register owner m => ∃ o : Outline, o.From units ∧ o.owner = owner ∧ m ∈ o.methods
  | _ => True

namespace Session

variable {s s' : Session} {units : List SourceUnit}

structure Sourced (units : List SourceUnit) (s : Session) : Prop where
  methods : s.tables.methods.Registers (Request.Sourced units)
  declaring : ∀ r, s.declaring = some r → r.outline.From units

theorem standard_sourced (capacity number : Nat) : (standard capacity number).Sourced units where
  methods := Table.withCapacity_registers capacity
  declaring _ declares := by contradiction

theorem Sourced.change (sourced : s.Sourced units) (orderly : s.Orderly) {tables : Tables}
    (change : s.tables.methods.Change (Request.Sourced units) tables.methods)
    {declaring : Option Registering} {declared : Except DeclareError Outline}
    (origin : ∀ r, declaring = some r → r.outline.From units) :
    Sourced units { s with tables, declaring, declared } :=
  ⟨change.registers orderly.methods sourced.methods, origin⟩

/-- What a task asks the table of methods for is a method of its outline. -/
theorem methodPlan_sourced {o : Outline} (origin : o.From units) {place : Nat} {owner : String}
    {m : MethodDeclaration} (planned : Outline.methodPlan o place = some (owner, m)) :
    Request.Sourced units (.register owner m) := by
  cases place with
  | zero => contradiction
  | succ n =>
    obtain ⟨_, there, same⟩ := Option.map_eq_some_iff.mp planned
    obtain ⟨rfl, rfl⟩ := Prod.mk.inj same
    exact ⟨o, origin, rfl, List.mem_of_getElem? there⟩

theorem Sourced.declare (sourced : s.Sourced units) (orderly : s.Orderly)
    (performed : s.perform .declare = some s') : s'.Sourced units := by
  cases declare_declares orderly performed with
  | continues r declares tables step =>
    obtain ⟨-, -, -, turn⟩ := Registering.step_continuing (orderly.ready r declares).valid step
    have origin := sourced.declaring r declares
    refine sourced.change orderly (turn.change fun _ _ => methodPlan_sourced origin) ?_
    rintro _ ⟨⟩
    rwa [Registering.next_outline]
  | concludes r => exact sourced.change orderly .idle (by simp)
  | fails r declares error tables step =>
    refine sourced.change orderly ?_ (by simp)
    rcases Registering.step_took step with ⟨reply, types, -, rfl⟩ | ⟨reply, methods, taken, rfl⟩
    · exact .idle
    · exact .take declarer reply methods taken

theorem Sourced.resolve (sourced : s.Sourced units) (orderly : s.Orderly) {index : Nat}
    (performed : s.perform (.resolve index) = some s') : s'.Sourced units := by
  cases resolve_resumes orderly performed with
  | continues state next there tables move =>
    cases move with
    | askMethod call question free =>
      exact ⟨⟨sourced.methods.accepted, sourced.methods.outstanding⟩, sourced.declaring⟩
    | askType | hearType | hearMethod => exact ⟨sourced.methods, sourced.declaring⟩
  | concludes => exact ⟨sourced.methods, sourced.declaring⟩

theorem Sourced.perform (sourced : s.Sourced units) (orderly : s.Orderly) {action : Action}
    (performed : s.perform action = some s') : s'.Sourced units := by
  cases action with
  | tables action =>
    obtain ⟨tables, moved, rfl⟩ := Option.map_eq_some_iff.mp performed
    rcases Tables.perform_step moved with ⟨types, -, rfl⟩ | ⟨methods, step, rfl⟩
    · exact ⟨sourced.methods, sourced.declaring⟩
    · exact ⟨step.change.registers orderly.methods sourced.methods, sourced.declaring⟩
  | declare => exact sourced.declare orderly performed
  | resolve index => exact sourced.resolve orderly performed

theorem Sourced.origin (sourced : s.Sourced units) {owner : String} {m : MethodDeclaration}
    (registered : (owner, m) ∈ s.tables.methods.accepted) :
    ∃ o : Outline, o.From units ∧ o.owner = owner ∧ m ∈ o.methods :=
  sourced.methods.accepted (owner, m) registered

/-- A method that is registered under the name of a unit is one of its own. -/
theorem Sourced.own (sourced : s.Sourced units)
    (distinct : (units.map SourceUnit.qualifiedName).Nodup) {o : Outline} (source : o.From units)
    {m : MethodDeclaration} (registered : (o.owner, m) ∈ s.tables.methods.accepted) :
    m ∈ o.methods := by
  obtain ⟨other, origin, owner, member⟩ := sourced.origin registered
  obtain rfl := source.eq_of_owner distinct origin owner.symm
  exact member

end Session

namespace Translation

variable {t t' : Translation} {units : List SourceUnit}

structure Sourced (units : List SourceUnit) (t : Translation) : Prop where
  session : t.session.Sourced units
  started : ∀ o ∈ t.started, o.From units

theorem Sourced.turn (sourced : t.Sourced units) (orderly : t.session.Orderly) {turn : Turn}
    (within : turn.Within units) (taken : t.turn turn = some t') : t'.Sourced units := by
  obtain ⟨session, started⟩ := sourced
  cases turn with
  | declare unit =>
    unfold Translation.turn at taken
    dsimp only at taken
    split at taken
    · next outline idle read =>
      cases taken
      rw [orderly.grammar] at read
      refine ⟨⟨session.methods, ?_⟩, started⟩
      rintro _ ⟨⟩
      exact ⟨unit, within, read⟩
    · cases taken
      exact ⟨session, started⟩
    · contradiction
  | resolve unit =>
    unfold Translation.turn at taken
    dsimp only at taken
    split at taken
    · next o read =>
      cases taken
      rw [orderly.grammar] at read
      refine ⟨⟨session.methods, session.declaring⟩, fun other member => ?_⟩
      rcases List.mem_append.mp member with old | new
      · exact started other old
      · rw [List.mem_singleton.mp new]
        exact ⟨unit, within, read⟩
    · contradiction
  | endTypes =>
    cases taken
    exact ⟨⟨session.methods, session.declaring⟩, started⟩
  | endMethods =>
    cases taken
    exact ⟨session.change orderly (.post Session.ender .finish trivial) session.declaring, started⟩
  | step action =>
    obtain ⟨_, performed, rfl⟩ := Option.map_eq_some_iff.mp taken
    exact ⟨session.perform orderly performed, started⟩

theorem execute_sourced {schedule : List Turn} (orderly : t.session.Orderly) (sourced : t.Sourced units)
    (within : ∀ turn ∈ schedule, turn.Within units) (executed : t.execute schedule = some t') :
    t'.Sourced units := by
  refine (runSchedule_induction (P := fun past u => (∀ turn ∈ past, turn.Within units) →
    u.session.Orderly ∧ u.Sourced units) (fun _ => ⟨orderly, sourced⟩) ?_ executed within).2
  intro past u turn next kept taken within
  rw [List.forall_mem_append, List.forall_mem_singleton] at within
  obtain ⟨orderly, sourced⟩ := kept within.1
  exact ⟨(turn_move orderly taken).orderly orderly, sourced.turn orderly within.2 taken⟩

end Translation

end UnitCompiler
