import UnitCompiler.Proofs.SessionWaiting

/-! Sessions at rest. Nothing is declared any more, every resolve that still runs waits for one lookup,
and what that lookup needs is not there. -/

namespace UnitCompiler

namespace Table

variable {α : Type} [Named α] {t : Table α}

theorem mem_waiting (lookup : Nat) :
    lookup ∈ t.waiting ↔ ∃ l, t.lookups[lookup]? = some l ∧ l.phase.listens = true := by
  rw [waiting, List.mem_filter, List.mem_range, Option.any_eq_true]
  constructor
  · rintro ⟨-, l, there, listens⟩
    exact ⟨l, there, listens⟩
  · rintro ⟨l, there, listens⟩
    exact ⟨(List.getElem?_eq_some_iff.mp there).1, l, there, listens⟩

theorem waiting_nodup (t : Table α) : t.waiting.Nodup := List.Nodup.filter _ List.nodup_range

theorem length_waiting (t : Table α) : t.waiting.length = t.pending := length_places _ _

end Table

def Resolve.isRunning : Resolve → Bool
  | .running _ => true
  | .done _ => false

namespace Tables

variable {t : Tables}

theorem waiting_nodup (t : Tables) : t.waiting.Nodup := by
  rw [waiting, List.nodup_append]
  refine ⟨t.types.waiting_nodup.map fun _ _ => Spot.type.inj,
    t.methods.waiting_nodup.map fun _ _ => Spot.method.inj, ?_⟩
  rintro one first two second rfl
  obtain ⟨_, -, rfl⟩ := List.mem_map.mp first
  simp at second

/-- Tables that cannot go on have nothing to serve and nothing to look up. -/
theorem quiescent (rest : ∀ action, t.perform action = none) :
    t.types.Quiescent ∧ t.methods.Quiescent := by
  constructor
  · refine ⟨(Table.serve?_eq_none_iff _).mp ?_, fun lookup => ?_⟩
    · simpa [perform] using rest .serveTypes
    · simpa [perform] using rest (.advanceType lookup)
  · refine ⟨(Table.serve?_eq_none_iff _).mp ?_, fun lookup => ?_⟩
    · simpa [perform] using rest .serveMethods
    · simpa [perform] using rest (.advanceMethod lookup)

/-- In tables at rest the lookups that listen are those without an answer. -/
theorem mem_waiting (types : t.types.Sound) (methods : t.methods.Sound)
    (quietTypes : t.types.Quiescent) (quietMethods : t.methods.Quiescent) (spot : Spot) :
    spot ∈ t.waiting ↔ t.Unanswered spot := by
  cases spot with
  | type lookup =>
    simp only [waiting, List.mem_append, List.mem_map, Spot.type.injEq, exists_eq_right, reduceCtorEq,
      and_false, exists_false, or_false, Table.mem_waiting, Unanswered]
    apply exists_congr
    intro l
    apply and_congr_right
    intro there
    rw [(types.rested quietTypes lookup l there).2, Option.isNone_iff_eq_none]
  | method lookup =>
    simp only [waiting, List.mem_append, List.mem_map, Spot.method.injEq, exists_eq_right, reduceCtorEq,
      and_false, exists_false, false_or, Table.mem_waiting, Unanswered]
    apply exists_congr
    intro l
    apply and_congr_right
    intro there
    rw [(methods.rested quietMethods lookup l there).2, Option.isNone_iff_eq_none]

end Tables

inductive Resolving.Waits (r : Resolving) (t : Tables) : Spot → Prop where
  | type (candidate : String) (question : r.inquiry.question? = some (.type candidate))
      (lookup : Nat) (asked : r.asked = some lookup) (unanswered : t.Unanswered (.type lookup))
      (live : t.types.registry.ended = false)
      (unmatched : t.types.accepted.first? candidate (.ofType candidate) = none) :
      Waits r t (.type lookup)
  | method (call : Call) (question : r.inquiry.question? = some (.method call))
      (lookup : Nat) (asked : r.asked = some lookup) (unanswered : t.Unanswered (.method lookup))
      (live : t.methods.registry.ended = false)
      (unmatched : t.methods.accepted.first? r.outline.owner
        (.ofMethod call.name (.accepting call.arity)) = none) :
      Waits r t (.method lookup)

namespace Resolving

variable {r : Resolving} {t : Tables} {spot : Spot}

theorem Waits.own (waits : r.Waits t spot) : (Resolve.running r).spot? = some spot := by
  cases waits with
  | type candidate question lookup asked => simp [Resolve.spot?, question, asked]
  | method call question lookup asked => simp [Resolve.spot?, question, asked]

theorem Waits.unanswered (waits : r.Waits t spot) : t.Unanswered spot := by
  cases waits <;> assumption

/-- Somebody waits only as long as something can come. -/
theorem Waits.live (waits : r.Waits t spot) :
    t.types.registry.ended = false ∨ t.methods.registry.ended = false := by
  cases waits with
  | type _ _ _ _ _ live => exact .inl live
  | method _ _ _ _ _ live => exact .inr live

/-- A lookup at rest that its resolve has not heard of. -/
theorem rested_lookup {α : Type} [Named α] {table : Table α} (sound : table.Sound)
    (quiet : table.Quiescent) {lookup : Nat} {owner : String} {signature : Signature α}
    (sought : table.sought[lookup]? = some (owner, signature)) (answer : Option α → Inquiry)
    (unheard : ∀ l, table.lookups[lookup]? = some l → r.heed? answer l.phase = none) :
    (∃ l, table.lookups[lookup]? = some l ∧ l.phase.answer? = none) ∧
      table.registry.ended = false ∧ table.accepted.first? owner signature = none := by
  rw [Table.sought, List.getElem?_map, Option.map_eq_some_iff] at sought
  obtain ⟨l, there, same⟩ := sought
  obtain ⟨rfl, rfl⟩ := Prod.mk.inj same
  have none : l.phase.answer? = none := by
    have silent := unheard l there
    revert silent
    cases l.phase <;> simp [heed?, Phase.answer?]
  have verdict := (sound.rested quiet lookup l there).1
  rw [none] at verdict
  obtain ⟨live, unmatched⟩ := (Log.verdict_eq_none_iff _ _ _ _).mp verdict.symm
  exact ⟨⟨l, there, none⟩, live, (Log.first?_eq_none_iff _ _ _).mpr unmatched⟩

/-- A resolve that cannot go on, with tables at rest, waits. -/
theorem Poses.waits (poses : r.Poses t) (types : t.types.Sound) (methods : t.methods.Sound)
    (quietTypes : t.types.Quiescent) (quietMethods : t.methods.Quiescent) (stuck : r.step? t = none) :
    ∃ spot, r.Waits t spot := by
  unfold step? at stuck
  split at stuck
  · contradiction
  · contradiction
  · contradiction
  · next candidate lookup question asked =>
    have sought := poses lookup _ asked question
    obtain ⟨unanswered, live, unmatched⟩ := rested_lookup types quietTypes sought
      r.inquiry.answerType fun l there => by simpa [there] using stuck
    exact ⟨_, .type candidate question lookup asked unanswered live unmatched⟩
  · next call lookup question asked =>
    have sought := poses lookup _ asked question
    obtain ⟨unanswered, live, unmatched⟩ := rested_lookup methods quietMethods sought
      r.inquiry.answerMethod fun l there => by simpa [there] using stuck
    exact ⟨_, .method call question lookup asked unanswered live unmatched⟩

/-- What a resolve waits for is something that its unit refers to. -/
theorem Waits.unanswerable (waits : r.Waits t spot)
    (passes : Resolve.Passes t r.outline (.running r)) : ¬ r.outline.Answerable t := by
  rintro ⟨types, calls⟩
  cases waits with
  | type candidate question lookup asked unanswered live unmatched =>
    obtain ⟨settled, whole, -⟩ := passes.types live
    obtain ⟨name, others, rest, left⟩ := Inquiry.types_of_question question
    rw [Resolve.types, left] at whole
    have asked : (name, candidate :: others) ∈ (Inquiry.ofOutline r.outline).types := by simp [whole]
    obtain ⟨named, member, same⟩ := List.mem_map.mp asked
    have declares := types named member
    rw [(Prod.mk.inj same).2] at declares
    exact declares.first? unmatched
  | method call question lookup asked unanswered live unmatched =>
    obtain ⟨settled, whole, -⟩ := passes.calls live
    obtain ⟨rest, left⟩ := Inquiry.calls_of_question question
    rw [Resolve.calls, left] at whole
    exact (calls call (by simp [whole])).first? unmatched

end Resolving

/-- Before the end a resolve is only done when everything is declared. -/
theorem Resolve.Passes.answerable {t : Tables} {o : Outline}
    {result : Except DeclareError DeclaredUnit} (passes : Passes t o (.done result))
    (types : t.types.registry.ended = false) (methods : t.methods.registry.ended = false) :
    o.Answerable t := by
  obtain ⟨passed, whole, declared⟩ := passes.types types
  obtain ⟨called, all, offered⟩ := passes.calls methods
  rw [Resolve.types, List.append_nil] at whole
  rw [Resolve.calls, List.append_nil] at all
  refine ⟨fun name member => ?_, fun call member => offered call (all ▸ member)⟩
  apply declared (name, Import.typeCandidates o.tree.importTable o.unit.packageName name)
  rw [← whole]
  exact List.mem_map_of_mem member

namespace Session

variable {s : Session}

def AtRest (s : Session) : Prop := ∀ action, s.perform action = none

theorem next?_eq_none_iff (s : Session) : s.next? = none ↔ s.AtRest := by
  rw [next?, List.findSome?_eq_none_iff]
  constructor
  · intro listed action
    -- What is not listed is about a lookup or a resolve that does not exist.
    cases action with
    | declare => exact listed .declare (by simp [actions])
    | resolve index =>
      by_cases inside : index < s.resolves.length
      · exact listed (.resolve index) (by simp [actions, inside])
      · simp [perform, List.getElem?_eq_none (Nat.le_of_not_lt inside)]
    | tables action =>
      cases action with
      | serveTypes | serveMethods => exact listed _ (by simp [actions, Tables.actions])
      | advanceType lookup =>
        by_cases inside : lookup < s.tables.types.lookups.length
        · exact listed (.tables (.advanceType lookup)) (by simp [actions, Tables.actions, inside])
        · simp [perform, Tables.perform, Table.advance?,
            List.getElem?_eq_none (Nat.le_of_not_lt inside)]
      | advanceMethod lookup =>
        by_cases inside : lookup < s.tables.methods.lookups.length
        · exact listed (.tables (.advanceMethod lookup)) (by simp [actions, Tables.actions, inside])
        · simp [perform, Tables.perform, Table.advance?,
            List.getElem?_eq_none (Nat.le_of_not_lt inside)]
  · intro rest action _
    exact rest action

theorem AtRest.quiescent (rest : s.AtRest) :
    s.tables.types.Quiescent ∧ s.tables.methods.Quiescent :=
  Tables.quiescent fun action => Option.map_eq_none_iff.mp (rest (.tables action))

theorem AtRest.types (rest : s.AtRest) : s.tables.types.Quiescent := rest.quiescent.1

theorem AtRest.methods (rest : s.AtRest) : s.tables.methods.Quiescent := rest.quiescent.2

/-- A declaration is never left on its way. -/
theorem AtRest.declaring (rest : s.AtRest) (orderly : s.Orderly) : s.declaring = none := by
  cases declares : s.declaring with
  | none => rfl
  | some r =>
    have attended := orderly.attended r declares
    have stuck : r.step? declarer s.tables = none := by
      simpa [perform, declares] using rest .declare
    -- With an empty mailbox what is owed has come, so that it can be taken.
    have taken {α : Type} [Named α] {t : Table α} (quiet : t.Quiescent) (owes : t.Owes declarer) :
        t.takeReply? declarer ≠ none := by
      intro none
      have answered : t.answers declarer ≠ [] := by
        rcases owes with called | answered
        · simp [Table.calls, Table.outstanding, quiet.1] at called
        · exact answered
      obtain ⟨reply, t', taken⟩ := Table.exists_takeReply answered
      simp [none] at taken
    unfold Registering.step? at stuck
    split at stuck
    · contradiction
    · next first posted =>
      exact absurd (Option.map_eq_none_iff.mp stuck) (taken rest.types (attended.type posted first))
    · split at stuck <;> contradiction
    · next n later posted =>
      have again : r.confirmed ≠ 0 := by omega
      exact absurd (Option.map_eq_none_iff.mp stuck) (taken rest.methods (attended.method posted again))

end Session

namespace Translation

variable {t : Translation}

/-- At rest, what still runs waits. -/
theorem Kept.waits (orderly : t.session.Orderly) (kept : t.Kept) (rest : t.session.AtRest)
    {index : Nat} {state : Resolving} (there : t.session.resolves[index]? = some (.running state)) :
    ∃ spot, state.Waits t.session.tables spot := by
  have course := kept.foreseen.course _ orderly.accepted_plain (.refl _) index state there
  apply Resolving.Poses.waits course.seeks orderly.types orderly.methods rest.types rest.methods
  simpa [Session.perform, there] using rest (.resolve index)

/-- A resolve whose tables have ended is done, and never with an error. -/
theorem Kept.done_of_ended (orderly : t.session.Orderly) (kept : t.Kept) (rest : t.session.AtRest)
    (types : t.session.tables.types.registry.ended = true)
    (methods : t.session.tables.methods.registry.ended = true) (resolve : Resolve)
    (member : resolve ∈ t.session.resolves) : ∃ unit, resolve = .done (.ok unit) := by
  obtain ⟨index, there⟩ := List.mem_iff_getElem?.mp member
  cases resolve with
  | running state =>
    obtain ⟨spot, waits⟩ := kept.waits orderly rest there
    simpa [types, methods] using waits.live
  | done result =>
    obtain ⟨c, concluded, -, rfl⟩ := (kept.foreseen.recorded.done index result).mp there
    have declared := kept.foreseen.declared _ orderly.accepted_plain (.refl _) c concluded
    rw [declared.1]
    exact ⟨_, rfl⟩

/-- At rest before the end a resolve is done just if everything that its unit refers to is declared. -/
theorem Kept.done_iff (orderly : t.session.Orderly) (kept : t.Kept) (rest : t.session.AtRest)
    (types : t.session.tables.types.registry.ended = false)
    (methods : t.session.tables.methods.registry.ended = false) {index : Nat} {o : Outline}
    {resolve : Resolve} (outline : t.started[index]? = some o)
    (there : t.session.resolves[index]? = some resolve) :
    (∃ result, resolve = .done result) ↔ o.Answerable t.session.tables := by
  have passes := kept.passed index o resolve outline there
  cases resolve with
  | done result => exact iff_of_true ⟨result, rfl⟩ (passes.answerable types methods)
  | running state =>
    obtain rfl := Option.some.inj ((kept.foreseen.recorded.running index state there).symm.trans outline)
    obtain ⟨spot, waits⟩ := kept.waits orderly rest there
    exact iff_of_false (by simp) (waits.unanswerable passes)

/-- At rest the lookups that listen are those of the resolves that run, one for each. -/
theorem Kept.spots_perm (orderly : t.session.Orderly) (kept : t.Kept) (rest : t.session.AtRest) :
    t.session.spots.Perm t.session.tables.waiting := by
  rw [List.perm_ext_iff_of_nodup kept.watched.distinct (Tables.waiting_nodup _)]
  intro spot
  rw [Tables.mem_waiting orderly.types orderly.methods rest.types rest.methods]
  constructor
  · intro member
    obtain ⟨resolve, found, own⟩ := List.mem_filterMap.mp member
    obtain ⟨index, there⟩ := List.mem_iff_getElem?.mp found
    cases resolve with
    | done result => simp [Resolve.spot?] at own
    | running state =>
      obtain ⟨other, waits⟩ := kept.waits orderly rest there
      obtain rfl := Option.some.inj (waits.own.symm.trans own)
      exact waits.unanswered
  · exact kept.watched.covered spot

theorem Kept.pending (orderly : t.session.Orderly) (kept : t.Kept) (rest : t.session.AtRest) :
    t.session.pending.1 + t.session.pending.2 = t.session.resolves.countP Resolve.isRunning := by
  have waiting := (kept.spots_perm orderly rest).length_eq
  rw [Tables.waiting, List.length_append, List.length_map, List.length_map, Table.length_waiting,
    Table.length_waiting, Session.spots, List.length_filterMap_eq_countP] at waiting
  refine waiting.symm.trans (List.countP_congr fun resolve member => ?_)
  obtain ⟨index, there⟩ := List.mem_iff_getElem?.mp member
  cases resolve with
  | done result => simp [Resolve.spot?, Resolve.isRunning]
  | running state =>
    obtain ⟨spot, waits⟩ := kept.waits orderly rest there
    simp [waits.own, Resolve.isRunning]

end Translation

end UnitCompiler
