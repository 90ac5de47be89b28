import Mathlib.Data.List.Perm.Subperm
import UnitCompiler.Proofs.SessionSchedule

/-! What a resolve comes to is settled before it is done. Every catalogue that the tables may still
come to gives a running resolve the references it is on its way to, so that what it declares and
reports is what a resolve after the end declares and reports. -/

namespace UnitCompiler

namespace Tables

def Admits (t : Tables) (catalogue : Catalogue) : Prop :=
  t.types.Admits catalogue.types ∧ t.methods.Admits catalogue.methods

def accepted (t : Tables) : Catalogue := ⟨t.types.accepted, t.methods.accepted⟩

theorem Admits.refl (t : Tables) : t.Admits t.accepted :=
  ⟨Table.Admits.refl _, Table.Admits.refl _⟩

theorem Change.extends {t t' : Tables} (change : t.Change t') : t.Extends t' :=
  .of_eq change.1.sought change.2.sought

end Tables

namespace Session

variable {s : Session}

theorem Orderly.accepted_plain (orderly : s.Orderly) : s.tables.accepted.Plain :=
  fun entry member => orderly.plain.accepted entry member

/-- What the tables may come to after a change was possible before. -/
theorem Orderly.back (orderly : s.Orderly) {tables : Tables} (change : s.tables.Change tables)
    {catalogue : Catalogue} (admits : tables.Admits catalogue) : s.tables.Admits catalogue := by
  obtain ⟨types, grownTypes⟩ := change.1.sound orderly.types
  obtain ⟨methods, grownMethods⟩ := change.2.sound orderly.methods
  exact ⟨admits.1.back orderly.types grownTypes types,
    admits.2.back orderly.methods grownMethods methods⟩

end Session

namespace Translation

variable {t t' : Translation}

structure Recorded (t : Translation) : Prop where
  length : t.session.resolves.length = t.started.length
  running : ∀ (index : Nat) (state : Resolving),
    t.session.resolves[index]? = some (.running state) → t.started[index]? = some state.outline
  read : ∀ o ∈ t.started, ∃ unit, Outline.read Toolchain.standard.grammar unit = .ok o
  done : ∀ (index : Nat) (result : Except DeclareError DeclaredUnit),
    t.session.resolves[index]? = some (.done result) ↔
      ∃ c ∈ t.conclusions, c.index = index ∧ c.result = result
  concluded : ∀ c ∈ t.conclusions, t.started[c.index]? = some c.outline
  once : (t.conclusions.map Conclusion.index).Nodup
  diagnostics : t.session.diagnostics = t.conclusions.flatMap Conclusion.reports

theorem Recorded.start (recorded : t.Recorded) {unit : SourceUnit} {o : Outline}
    (own : Outline.read Toolchain.standard.grammar unit = .ok o) :
    Recorded { t with
      session := { t.session with resolves := t.session.resolves ++ [.running (.start o)] }
      started := t.started ++ [o] } := by
  obtain ⟨length, running, read, done, concluded, once, diagnosed⟩ := recorded
  refine ⟨by simp [length], fun index state there => ?_, fun other member => ?_, fun index result => ?_,
    fun c member => getElem?_append_of_some (concluded c member) _, once, diagnosed⟩
  · rcases getElem?_snoc there with old | ⟨rfl, new⟩
    · exact getElem?_append_of_some (running index state old) _
    · cases new
      simp [length, Resolving.start]
  · rcases List.mem_append.mp member with old | new
    · exact read other old
    · rw [List.mem_singleton.mp new]
      exact ⟨unit, own⟩
  · rw [← done index result]
    refine ⟨fun there => ?_, fun there => ?_⟩
    · rcases getElem?_snoc there with old | ⟨-, new⟩
      · exact old
      · contradiction
    · exact getElem?_append_of_some there _

theorem Recorded.resume (recorded : t.Recorded) {index : Nat} {state next : Resolving}
    (there : t.session.resolves[index]? = some (.running state)) (outline : next.outline = state.outline)
    (tables : Tables) :
    Recorded { t with session := { t.session with tables }.setResolve index (.running next) } := by
  obtain ⟨length, running, read, done, concluded, once, diagnosed⟩ := recorded
  have now := getElem?_set_of_some there (Resolve.running next)
  refine ⟨by simp [Session.setResolve, length], fun place other found => ?_, read,
    fun place result => ?_, concluded, once, diagnosed⟩
  · have found := (now place).symm.trans found
    split at found
    · next same =>
      cases found
      rw [outline, ← same]
      exact running index state there
    · exact running place other found
  · rw [← done place result]
    change (t.session.resolves.set index _)[place]? = _ ↔ _
    rw [now]
    split
    · next same =>
      subst same
      simp [there]
    · rfl

theorem Recorded.conclude (recorded : t.Recorded) {index : Nat} {state : Resolving}
    (there : t.session.resolves[index]? = some (.running state)) (unit : DeclaredUnit)
    (diagnostics : List Diagnostic) (instances : Nat) :
    Recorded { t with
      session := { t.session with
        instances
        diagnostics := t.session.diagnostics ++ diagnostics }.setResolve index (.done (.ok unit))
      conclusions := t.conclusions ++ [⟨index, state.outline, .ok unit, diagnostics⟩] } := by
  obtain ⟨length, running, read, done, concluded, once, diagnosed⟩ := recorded
  have now := getElem?_set_of_some there (Resolve.done (.ok unit))
  -- No earlier conclusion is about this resolve, which was running.
  have first (c : Conclusion) (member : c ∈ t.conclusions) : c.index ≠ index := by
    intro about
    have ended := (done index c.result).mpr ⟨c, member, about, rfl⟩
    rw [there] at ended
    cases ended
  refine ⟨by simp [Session.setResolve, length], fun place other found => ?_, read,
    fun place result => ?_, fun c member => ?_, ?_, by simp [Session.setResolve, diagnosed]⟩
  · have found := (now place).symm.trans found
    split at found
    · cases found
    · exact running place other found
  · change (t.session.resolves.set index _)[place]? = _ ↔ _
    rw [now]
    split
    · next same =>
      subst same
      constructor
      · intro same
        cases same
        exact ⟨⟨index, state.outline, .ok unit, diagnostics⟩, by simp, rfl, rfl⟩
      · rintro ⟨c, member, about, rfl⟩
        rcases List.mem_append.mp member with old | new
        · exact absurd about (first c old)
        · rw [List.mem_singleton.mp new]
    · next other =>
      rw [done place result]
      constructor
      · rintro ⟨c, member, about⟩
        exact ⟨c, List.mem_append_left _ member, about⟩
      · rintro ⟨c, member, about, same⟩
        rcases List.mem_append.mp member with old | new
        · exact ⟨c, old, about, same⟩
        · rw [List.mem_singleton.mp new] at about
          exact absurd about other
  · rcases List.mem_append.mp member with old | new
    · exact concluded c old
    · rw [List.mem_singleton.mp new]
      exact running index state there
  · rw [List.map_append, List.nodup_append]
    refine ⟨once, by simp, ?_⟩
    rintro place member other last rfl
    obtain ⟨c, inside, about⟩ := List.mem_map.mp member
    exact first c inside (about.trans (by simpa using last))

theorem Recorded.move (recorded : t.Recorded) (move : Move t t') : t'.Recorded := by
  cases move with
  | aside => exact { recorded with }
  | start unit o read => exact recorded.start read
  | resume index state next there tables move =>
    exact recorded.resume there (by cases move <;> rfl) tables
  | conclude index state there references move unit diagnostics instances emitted =>
    exact recorded.conclude there unit diagnostics instances

/-- One resolve that is done has one conclusion, and everything that is reported comes from it. -/
theorem Recorded.single (recorded : t.Recorded) {result : Except DeclareError DeclaredUnit}
    (single : t.session.resolves = [.done result]) :
    ∃ c, t.conclusions = [c] ∧ c.result = result ∧ t.session.diagnostics = c.reports := by
  have first : t.conclusions.map Conclusion.index ⊆ [0] := by
    intro index member
    obtain ⟨c, inside, rfl⟩ := List.mem_map.mp member
    have bound := (List.getElem?_eq_some_iff.mp (recorded.concluded c inside)).1
    rw [← recorded.length, single] at bound
    exact List.mem_singleton.mpr (Nat.lt_one_iff.mp bound)
  have few : t.conclusions.length ≤ 1 := by simpa using (List.subperm_of_subset recorded.once first).length_le
  obtain ⟨c, member, -, own⟩ := (recorded.done 0 result).mp (by rw [single]; rfl)
  have only : t.conclusions = [c] := by
    have some := List.length_pos_of_mem member
    obtain ⟨other, same⟩ := List.length_eq_one_iff.mp (show t.conclusions.length = 1 by omega)
    rw [same, List.mem_singleton] at member
    rw [same, member]
  exact ⟨c, only, own, by rw [recorded.diagnostics, only, List.flatMap_singleton]⟩

/-- Every catalogue that the tables may come to gives the running resolves their references, and has
given them to those that are done. -/
structure Foreseen (t : Translation) : Prop where
  recorded : t.Recorded
  course : ∀ catalogue : Catalogue, catalogue.Plain → t.session.tables.Admits catalogue →
    ∀ (index : Nat) (state : Resolving), t.session.resolves[index]? = some (.running state) →
      state.OnCourse catalogue t.session.tables
  declared : ∀ catalogue : Catalogue, catalogue.Plain → t.session.tables.Admits catalogue →
    ∀ c ∈ t.conclusions, c.result = .ok (Toolchain.standard.declaration catalogue c.outline).1 ∧
      c.reports = (Toolchain.standard.declaration catalogue c.outline).2

theorem Foreseen.move (orderly : t.session.Orderly) (foreseen : t.Foreseen) (move : Move t t') :
    t'.Foreseen := by
  refine ⟨foreseen.recorded.move move, ?_, ?_⟩
  · intro catalogue plain admits place other found
    cases move with
    | aside tables change =>
      have before := orderly.back change admits
      exact (foreseen.course catalogue plain before place other found).extend change.extends
    | start unit o read =>
      rcases getElem?_snoc found with old | ⟨-, new⟩
      · exact foreseen.course catalogue plain admits place other old
      · cases new
        exact .start o t.session.tables
    | resume index state next there tables move =>
      have before : t.session.tables.Admits catalogue := by cases move <;> exact admits
      obtain ⟨later, more⟩ := (foreseen.course catalogue plain before index state there).next
        (orderly.types.settles before.1) (orderly.methods.settles before.2) move
      have found := (getElem?_set_of_some there (Resolve.running next) place).symm.trans found
      split at found
      · cases found
        exact later
      · exact (foreseen.course catalogue plain before place other found).extend more
    | conclude index state there references move unit diagnostics instances emitted =>
      have found := (getElem?_set_of_some there (Resolve.done (.ok unit)) place).symm.trans found
      split at found
      · cases found
      · exact foreseen.course catalogue plain admits place other found
  · intro catalogue plain admits c member
    cases move with
    | aside tables change =>
      exact foreseen.declared catalogue plain (orderly.back change admits) c member
    | start unit o read => exact foreseen.declared catalogue plain admits c member
    | resume index state next there tables move =>
      have before : t.session.tables.Admits catalogue := by cases move <;> exact admits
      exact foreseen.declared catalogue plain before c member
    | conclude index state there references move unit diagnostics instances emitted =>
      rcases List.mem_append.mp member with old | new
      · exact foreseen.declared catalogue plain admits c old
      · rw [List.mem_singleton.mp new]
        obtain ⟨rfl, -⟩ := (foreseen.course catalogue plain admits index state there).done move
        have started := List.mem_of_getElem? (foreseen.recorded.running index state there)
        obtain ⟨source, read⟩ := foreseen.recorded.read state.outline started
        obtain ⟨_, expected⟩ := Toolchain.emit_standard plain read t.session.instances
        rw [← orderly.inliner, emitted, Prod.mk.injEq, Prod.mk.injEq] at expected
        exact ⟨by rw [expected.1], expected.2.1⟩

end Translation

end UnitCompiler
