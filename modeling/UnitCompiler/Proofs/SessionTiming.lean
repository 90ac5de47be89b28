import UnitCompiler.Proofs.SessionOperation

/-! When a resolve runs makes no difference. Whatever was declared when it started, and whatever is
declared while it runs, it comes to what a resolve after the end comes to, so long as the same things are
registered in the same order. Until the end it waits for just those names that are not declared, and
after the end for none. -/

namespace UnitCompiler

/-- What a resolve that is started now comes to: its result and its reports. -/
def Session.Concludes (s : Session) (o : Outline) (result : Except DeclareError DeclaredUnit)
    (reports : List Diagnostic) : Prop :=
  (s.resolve o).resolves = s.resolves ++ [.done result] ∧
    (s.resolve o).diagnostics = s.diagnostics ++ reports

namespace Translation

variable {t t' late : Translation}

theorem execute_conclusions {schedule : List Turn} (orderly : t.session.Orderly)
    (executed : t.execute schedule = some t') : t.conclusions <+: t'.conclusions := by
  apply (execute_induction (P := fun u => t.conclusions <+: u.conclusions) _ orderly
    (List.prefix_refl _) executed).2
  intro u u' _ before move
  cases move with
  | aside | start | resume => exact before
  | conclude => exact before.trans (List.prefix_append _ _)

/-- At rest after the end there is a conclusion for every resolve. -/
theorem Kept.concluded (orderly : t.session.Orderly) (kept : t.Kept) (rest : t.session.AtRest)
    (ended : t.session.tables.Ended) {index : Nat} (inside : index < t.started.length) :
    ∃ c ∈ t.conclusions, c.index = index ∧ t.session.resolves[index]? = some (.done c.result) := by
  rw [← kept.foreseen.recorded.length] at inside
  obtain ⟨unit, done⟩ := kept.done_of_ended orderly rest ended.1 ended.2 _ (List.getElem_mem inside)
  have there : t.session.resolves[index]? = some (.done (.ok unit)) := by
    rw [List.getElem?_eq_getElem inside, done]
  obtain ⟨c, member, about, result⟩ := (kept.foreseen.recorded.done index _).mp there
  exact ⟨c, member, about, by rw [result, there]⟩

theorem Recorded.index_lt (recorded : t.Recorded) {c : Conclusion} (member : c ∈ t.conclusions) :
    c.index < t.started.length :=
  (List.getElem?_eq_some_iff.mp (recorded.concluded c member)).1

/-- A resolve that is started at rest after the end comes to a conclusion, and nothing else happens. -/
theorem Kept.resolve (orderly : late.session.Orderly) (kept : late.Kept) (rest : late.session.AtRest)
    (ended : late.session.tables.Ended) {s : Session} {o : Outline} {units : List SourceUnit}
    (rests : late.Rests units s [o] t')
    (orderly' : t'.session.Orderly) (kept' : t'.Kept) :
    ∃ c, c.outline = o ∧ t'.conclusions = late.conclusions ++ [c] ∧
      t'.session.resolves = late.session.resolves ++ [.done c.result] := by
  obtain ⟨schedule, executed, -, -, started, rest'⟩ := rests
  have ended' := (execute_ended orderly ended executed).1
  have recorded := kept.foreseen.recorded
  have recorded' := kept'.foreseen.recorded
  have size : t'.started.length = late.started.length + 1 := by simp [started]
  obtain ⟨extra, whole⟩ := execute_conclusions orderly executed
  -- Whatever is concluded now is about the new resolve, since the others were done before.
  have last (c : Conclusion) (member : c ∈ extra) : c.index = late.started.length := by
    have now : c ∈ t'.conclusions := by simp [← whole, member]
    have bound := recorded'.index_lt now
    by_contra other
    obtain ⟨earlier, old, same, -⟩ := kept.concluded orderly rest ended
      (show c.index < late.started.length by omega)
    have once := recorded'.once
    rw [← whole, List.map_append, List.nodup_append] at once
    exact once.2.2 _ (List.mem_map_of_mem old) _ (List.mem_map_of_mem member) same
  obtain ⟨c, member, about, there⟩ := kept'.concluded orderly' rest' ended'
    (show late.started.length < t'.started.length by omega)
  have fresh : c ∈ extra := by
    rw [← whole] at member
    rcases List.mem_append.mp member with old | new
    · have bound := recorded.index_lt old
      omega
    · exact new
  have only : extra = [c] := by
    have once := recorded'.once
    rw [← whole, List.map_append, List.nodup_append] at once
    match extra, fresh, last, once.2.1 with
    | [single], fresh, _, _ => rw [List.mem_singleton.mp fresh]
    | one :: two :: more, _, last, distinct =>
      have same : one.index = two.index :=
        (last one List.mem_cons_self).trans (last two (by simp)).symm
      simp [same] at distinct
  rw [only] at whole
  refine ⟨c, ?_, whole.symm, ?_⟩
  · have outline := recorded'.concluded c member
    simpa [about, started] using outline.symm
  · apply List.ext_getElem?
    intro place
    rcases Nat.lt_trichotomy place late.started.length with before | rfl | behind
    · obtain ⟨old, inside, rfl, done⟩ := kept.concluded orderly rest ended before
      have kept : t'.session.resolves[old.index]? = some (.done old.result) :=
        (recorded'.done _ _).mpr ⟨old, by simp [← whole, inside], rfl, rfl⟩
      rw [kept, getElem?_append_of_some done]
    · rw [there, ← recorded.length, List.getElem?_concat_length]
    · rw [List.getElem?_eq_none, List.getElem?_eq_none]
      · simp [recorded.length]
        omega
      · rw [recorded'.length]
        omega

/-- Both conclusions are what everything registered in the end gives. -/
theorem Kept.concludes (kept : t.Kept) {capacity number : Nat} {schedule : List Turn}
    (reached : execute { session := .standard capacity number } schedule = some late)
    (rest : late.session.AtRest) (ended : late.session.tables.Ended)
    (admits : t.session.tables.Admits late.session.tables.accepted) {c : Conclusion}
    (member : c ∈ t.conclusions) : late.session.Concludes c.outline c.result c.reports := by
  obtain ⟨orderly, latest⟩ := execute_kept capacity number reached
  have started := List.mem_of_getElem? (kept.foreseen.recorded.concluded c member)
  obtain ⟨unit, read⟩ := kept.foreseen.recorded.read c.outline started
  obtain ⟨t', rests, orderly', -⟩ := resolve_rests orderly read
  have ⟨more, executed, _, session, _⟩ := rests
  have again : execute { session := .standard capacity number } (schedule ++ more) = some t' := by
    simp [execute_append, reached, executed]
  have kept' := (execute_kept capacity number again).2
  obtain ⟨own, outline, conclusions, resolves⟩ := latest.resolve orderly rest ended rests orderly' kept'
  have same := (execute_ended orderly ended executed).2
  have early := kept.foreseen.declared _ orderly.accepted_plain admits c member
  have final := kept'.foreseen.declared _ orderly'.accepted_plain (.refl _) own (by simp [conclusions])
  rw [same, outline] at final
  rw [Session.Concludes, ← session, resolves, kept'.foreseen.recorded.diagnostics, conclusions,
    latest.foreseen.recorded.diagnostics]
  simp [early, final]

open Session (Operation)

/-- A resolve that is done has come to what a resolve after the end comes to, in any run that registers
the same in the same order. At rest before the end it is done just if all that its unit refers to is
declared; otherwise one lookup waits for it. After the end all are done. Rest is reached within the
budget, and sequences of operations are among the runs. -/
theorem resolve_independent_of_time (capacity number : Nat) :
    (∀ (schedule : List Turn) (t : Translation),
      execute { session := .standard capacity number } schedule = some t →
      t.Recorded ∧
      (∀ (capacity' number' : Nat) (schedule' : List Turn) (late : Translation),
        execute { session := .standard capacity' number' } schedule' = some late →
        late.session.AtRest → late.session.tables.Ended →
        t.session.tables.Admits late.session.tables.accepted →
        ∀ c ∈ t.conclusions, late.session.Concludes c.outline c.result c.reports) ∧
      (t.session.AtRest →
        (t.session.tables.types.registry.ended = false →
          t.session.tables.methods.registry.ended = false →
          ∀ (index : Nat) (o : Outline) (resolve : Resolve), t.started[index]? = some o →
            t.session.resolves[index]? = some resolve →
            ((∃ result, resolve = .done result) ↔ o.Answerable t.session.tables)) ∧
        (∀ (index : Nat) (state : Resolving), t.session.resolves[index]? = some (.running state) →
          ∃ spot ∈ t.session.tables.waiting, (Resolve.running state).spot? = some spot) ∧
        t.session.spots.Perm t.session.tables.waiting ∧
        t.session.pending.1 + t.session.pending.2 = t.session.resolves.countP Resolve.isRunning ∧
        (t.session.tables.Ended →
          ∀ resolve ∈ t.session.resolves, ∃ unit, resolve = .done (.ok unit))) ∧
      t.Leads t.session.settle ∧ t.session.settle.AtRest ∧
      ∀ (actions : List Session.Action) (t' : Translation),
        t.execute (actions.map .step) = some t' → actions.length ≤ t.session.budget) ∧
    ∀ operations : List Operation, ∃ (schedule : List Turn) (t : Translation),
      execute { session := .standard capacity number } schedule = some t ∧
      t.session = (Session.standard capacity number).operateAll operations ∧
      t.started = operations.filterMap Operation.outline? ∧
      t.session.AtRest ∧
      t.session.tables.accepted = Toolchain.standard.catalogue (Operation.declared operations) ∧
      (.finish ∈ operations → t.session.tables.Ended) ∧
      (.finish ∉ operations → t.session.tables.types.registry.ended = false ∧
        t.session.tables.methods.registry.ended = false) ∧
      ∀ c ∈ t.conclusions,
        ((Session.standard capacity number).operateAll (Operation.unresolved operations)).Concludes
          c.outline c.result c.reports := by
  refine ⟨fun schedule t reached => ?_, fun operations => ?_⟩
  · obtain ⟨orderly, kept⟩ := execute_kept capacity number reached
    obtain ⟨leads, stuck⟩ := settle_leads orderly
    refine ⟨kept.foreseen.recorded, ?_, fun rest => ⟨?_, ?_, ?_, ?_, ?_⟩, leads, ?_, ?_⟩
    · intro capacity' number' schedule' late reached' rest ended admits c member
      exact kept.concludes reached' rest ended admits member
    · intro types methods index o resolve outline there
      exact kept.done_iff orderly rest types methods outline there
    · intro index state there
      obtain ⟨spot, waits⟩ := kept.waits orderly rest there
      refine ⟨spot, ?_, waits.own⟩
      rw [Tables.mem_waiting orderly.types orderly.methods rest.types rest.methods]
      exact waits.unanswered
    · exact kept.spots_perm orderly rest
    · exact kept.pending orderly rest
    · exact fun ended => kept.done_of_ended orderly rest ended.1 ended.2
    · exact (Session.next?_eq_none_iff _).mp stuck
    · intro actions t' executed
      have load := execute_load orderly (Nat.le_refl _) executed
      have budget := t.session.load_le_budget
      omega
  · obtain ⟨schedule, t, reached, -, session, conducted⟩ := operateAll_conducted capacity number operations
    obtain ⟨schedule', late, reached', -, same, conducted'⟩ :=
      operateAll_conducted capacity number (Operation.unresolved operations)
    have kept := (execute_kept capacity number reached).2
    obtain ⟨ended, accepted⟩ := conducted'.ended (by simp [Operation.unresolved])
    refine ⟨schedule, t, reached, session, conducted.started, conducted.rest, conducted.accepted,
      fun finished => (conducted.ended finished).1,
      fun live => ((conducted.live live).rested conducted.orderly conducted.rest).2, fun c member => ?_⟩
    rw [← same]
    refine kept.concludes reached' conducted'.rest ended ?_ member
    -- The same units are declared before the end in both.
    rw [accepted, Operation.declared_unresolved, ← conducted.accepted]
    exact .refl _

/-- A unit is resolved before the type that it names is declared, another one calls a function that is
never declared. -/
def eager : List Operation :=
  let first : SourceUnit :=
    { fileName := "A.firefly", relativePath := "m", content := .text "fn f(x: B) {}\nf(1)" }
  let second : SourceUnit :=
    { fileName := "B.firefly", relativePath := "m", content := .text "g(1)" }
  [.declare first, .resolve first, .declare second, .resolve second, .finish]

theorem eager_independent_of_time :
    ((Session.standard 1 1).operateAll (eager.take 2)).pending = (1, 0) ∧
    ((Session.standard 1 1).operateAll (eager.take 4)).pending = (0, 1) ∧
    ∃ (schedule : List Turn) (t : Translation),
      execute { session := .standard 1 1 } schedule = some t ∧
      t.session = (Session.standard 1 1).operateAll eager ∧
      t.session.pending.1 + t.session.pending.2 = 0 ∧
      (t.conclusions.flatMap Conclusion.reports).map Diagnostic.message =
        ["Could not resolve the function 'g'"] ∧
      ∀ index < 2, ∃ c ∈ t.conclusions, c.index = index ∧
        ((Session.standard 1 1).operateAll (Operation.unresolved eager)).Concludes
          c.outline c.result c.reports := by
  have early : ((Session.standard 1 1).operateAll (eager.take 2)).pending = (1, 0) ∧
      ((Session.standard 1 1).operateAll (eager.take 4)).pending = (0, 1) := by
    decide +kernel
  have told : ((Session.standard 1 1).operateAll eager).diagnostics.map Diagnostic.message =
      ["Could not resolve the function 'g'"] := by
    decide +kernel
  have all : ((Session.standard 1 1).operateAll eager).resolves.length = 2 ∧
      ((Session.standard 1 1).operateAll eager).resolves.countP Resolve.isRunning = 0 := by
    decide +kernel
  obtain ⟨runs, operations⟩ := resolve_independent_of_time 1 1
  obtain ⟨schedule, t, reached, session, -, rest, -, -, -, concludes⟩ := operations eager
  obtain ⟨recorded, -, rested, -⟩ := runs schedule t reached
  obtain ⟨-, -, -, pending, -⟩ := rested rest
  rw [← session] at told all
  refine ⟨early.1, early.2, schedule, t, reached, session, by rw [pending, all.2], ?_, ?_⟩
  · rw [← recorded.diagnostics]
    exact told
  · intro index inside
    rw [← all.1] at inside
    have none := List.countP_eq_zero.mp all.2 _ (List.getElem_mem inside)
    cases resolve : t.session.resolves[index] with
    | running state => simp [resolve, Resolve.isRunning] at none
    | done result =>
      have there : t.session.resolves[index]? = some (.done result) := by
        rw [List.getElem?_eq_getElem inside, resolve]
      obtain ⟨c, member, about, -⟩ := (recorded.done index result).mp there
      exact ⟨c, member, about, concludes c member⟩

end Translation

end UnitCompiler
