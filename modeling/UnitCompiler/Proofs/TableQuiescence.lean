import UnitCompiler.Proofs.TableLookup

/-! Tables at rest. A lookup that can take no step has missed nothing: neither a registration between
its first check and its subscription nor one that was dropped before it could be heard is lost. What a
table at rest has answered depends on the requests put to it and on their order alone. -/

namespace UnitCompiler

variable {α : Type} [Named α]

def Phase.answer? : Phase α → Option (Option α)
  | .settled answer => some answer
  | _ => none

/-- What a lookup has to answer when everything registered is known: the first match, nothing if there
is none after the end, and before the end no answer at all. -/
def Log.verdict (log : Log α) (ended : Bool) (owner : String) (signature : Signature α) :
    Option (Option α) :=
  match log.first? owner signature with
  | some declaration => some (some declaration)
  | none => if ended then some none else none

theorem Log.verdict_eq_none_iff (log : Log α) (ended : Bool) (owner : String)
    (signature : Signature α) :
    log.verdict ended owner signature = none ↔ ended = false ∧
      ∀ entry ∈ log, entry.1 = owner → signature.accepts entry.2 = false := by
  rw [← Log.first?_eq_none_iff, Log.verdict]
  cases log.first? owner signature <;> cases ended <;> simp

namespace Table

/-- No letter is left and no lookup can go on. -/
def Quiescent (t : Table α) : Prop :=
  t.mailbox = [] ∧ ∀ index, t.advance? index = none

theorem serve?_eq_none_iff (t : Table α) : t.serve? = none ↔ t.mailbox = [] := by
  constructor
  · intro stuck
    unfold serve? at stuck
    split at stuck
    · assumption
    · contradiction
    · dsimp only at stuck
      split at stuck <;> contradiction
    · contradiction
  · intro empty
    simp [serve?, empty]

/-- Only a lookup that was started can go on. -/
theorem advance?_eq_none_iff (t : Table α) : (∀ index, t.advance? index = none) ↔
    ∀ index < t.lookups.length, t.advance? index = none := by
  refine ⟨fun all index _ => all index, fun inside index => ?_⟩
  by_cases bound : index < t.lookups.length
  · exact inside index bound
  · simp [advance?, List.getElem?_eq_none (Nat.le_of_not_lt bound)]

/-- A table takes its own steps until it is at rest. -/
theorem next?_eq_none_iff (t : Table α) : t.next? = none ↔ t.Quiescent := by
  rw [Quiescent, ← serve?_eq_none_iff, advance?_eq_none_iff, next?]
  cases t.serve? with
  | some next => simp
  | none => simp

/-- A waiting lookup with nothing to hear has heard everything. -/
theorem Sound.blocked {t : Table α} (sound : t.Sound) (index : Nat) (l : Lookup α) (cursor : Nat)
    (there : t.lookups[index]? = some l) (waiting : l.phase = .waiting cursor)
    (blocked : t.advance? index = none) :
    t.registry.ended = false ∧ t.accepted.first? l.owner l.signature = none := by
  have known := sound.informed index l there
  rw [waiting] at known
  obtain ⟨bound, unended, unmatched⟩ := known
  have passed : t.events.length ≤ cursor := by
    simp only [advance?, there, waiting, hear?] at blocked
    split at blocked
    · contradiction
    · split at blocked
      · next past => exact List.getElem?_eq_none_iff.mp past
      · contradiction
      · split at blocked <;> contradiction
  rw [List.take_of_length_le passed] at unended unmatched
  refine ⟨?_, unmatched⟩
  rw [← Bool.not_eq_true, sound.ended]
  exact unended

/-- At rest every lookup has given the answer that the whole log calls for, or waits. -/
theorem Sound.rested {t : Table α} (sound : t.Sound) (rest : t.Quiescent) (index : Nat)
    (l : Lookup α) (there : t.lookups[index]? = some l) :
    l.phase.answer? = t.accepted.verdict t.registry.ended l.owner l.signature ∧
      l.phase.listens = l.phase.answer?.isNone := by
  obtain ⟨empty, stuck⟩ := rest
  have known := sound.informed index l there
  have unsent (letter : Letter α) : l.phase.awaited index ≠ some letter := by
    intro awaits
    simpa [empty] using sound.letters index l there letter awaits
  have blocked := stuck index
  cases phase : l.phase with
  | starting | missed | listening cursor | dismissed cursor =>
    simp [advance?, there, phase] at blocked
  | opening | subscribing | confirming cursor | closing cursor =>
    rw [phase] at unsent
    exact absurd rfl (unsent _)
  | waiting cursor =>
    obtain ⟨live, unmatched⟩ := sound.blocked index l cursor there phase blocked
    simp [Phase.answer?, Phase.listens, Log.verdict, live, unmatched]
  | settled answer =>
    rw [phase] at known
    cases answer with
    | some declaration =>
      have first : t.accepted.first? l.owner l.signature = some declaration := known
      simp [Phase.answer?, Phase.listens, Log.verdict, first]
    | none =>
      have none : t.accepted.first? l.owner l.signature = none := known.2
      simp [Phase.answer?, Phase.listens, Log.verdict, none, sound.ended.mpr known.1]
  | closed | cancelled =>
    rw [phase] at known
    exact known.elim

/-! ## The requests of a run -/

def Action.request? : Action α → Option (Request α)
  | .post _ request => some request
  | _ => none

def Action.sought? : Action α → Option (String × Signature α)
  | .seek owner signature => some (owner, signature)
  | _ => none

/-- A registry and its announcements after some further requests. -/
def replay : List (Request α) → Registry α × List (Event α) → Registry α × List (Event α)
  | [], state => state
  | request :: rest, (registry, events) =>
    replay rest ((registry.serve request).2,
      events ++ announcements request (registry.serve request).1)

theorem replay_append (first second : List (Request α)) (state : Registry α × List (Event α)) :
    replay (first ++ second) state = replay second (replay first state) := by
  induction first generalizing state with
  | nil => rfl
  | cons request rest ih => exact ih _

/-- Once everything in the mailbox is served, the table will be where the requests alone lead. -/
structure Follows (t : Table α) (requests : List (Request α))
    (sought : List (String × Signature α)) : Prop where
  running : t.running = true
  replayed : replay (t.outstanding.map Prod.snd) (t.registry, t.events) = replay requests ({}, [])
  sought : t.sought = sought

theorem withCapacity_follows (capacity : Nat) :
    (withCapacity capacity : Table α).Follows [] [] := ⟨rfl, rfl, rfl⟩

theorem Follows.perform {t t' : Table α} {requests : List (Request α)}
    {sought : List (String × Signature α)} (follows : t.Follows requests sought)
    (action : Action α) (performed : t.perform action = some t') :
    t'.Follows (requests ++ action.request?.toList) (sought ++ action.sought?.toList) := by
  obtain ⟨running, replayed, looked⟩ := follows
  cases action with
  | post caller request =>
    cases performed
    refine ⟨by simp [post, running, send], ?_, ?_⟩
    · rw [outstanding_post t running, List.map_append, replay_append]
      simp only [post, if_pos running, send, replayed, Action.request?, Option.toList_some,
        replay_append]
      rfl
    · simpa [post, running, send, Table.sought, Action.sought?] using looked
  | seek owner signature =>
    cases performed
    refine ⟨running, ?_, ?_⟩
    · simp only [Action.request?, Option.toList_none, List.append_nil]
      exact replayed
    · simp [seek, Table.sought, Action.sought?, ← looked]
  | serve =>
    simp only [Action.request?, Action.sought?, Option.toList_none, List.append_nil]
    rcases serve_frame performed with
      ⟨caller, request, rest, first, rfl⟩ | ⟨letter, rest, lookups, first, other, rfl, same⟩
    · refine ⟨running, ?_, looked⟩
      rw [← replayed]
      simp only [outstanding, first, List.filterMap_cons, Letter.call?, answered]
      rfl
    · refine ⟨running, ?_, same.trans looked⟩
      rw [← replayed]
      simp only [outstanding, first, List.filterMap_cons, other]
  | advance index =>
    simp only [Action.request?, Action.sought?, Option.toList_none, List.append_nil]
    obtain ⟨phase, letters, rfl, silent⟩ := advance_frame performed
    refine ⟨running, ?_, (sought_setPhase t index phase).trans looked⟩
    rw [← replayed]
    simp only [outstanding, List.filterMap_append, silent, List.append_nil]
    rfl

theorem Follows.execute {t t' : Table α} {requests : List (Request α)}
    {sought : List (String × Signature α)} (follows : t.Follows requests sought)
    (schedule : List (Action α)) (executed : t.execute schedule = some t') :
    t'.Follows (requests ++ schedule.filterMap Action.request?)
      (sought ++ schedule.filterMap Action.sought?) := by
  refine runSchedule_induction (P := fun past u => u.Follows (requests ++ past.filterMap Action.request?)
    (sought ++ past.filterMap Action.sought?)) (by simpa using follows) ?_ executed
  intro past u action next kept performed
  have later := kept.perform action performed
  cases request : action.request? <;> cases seeking : action.sought? <;>
    simpa [request, seeking] using later

/-- The registry at rest depends on the requests alone. -/
theorem Follows.rested {t : Table α} {requests : List (Request α)}
    {sought : List (String × Signature α)} (follows : t.Follows requests sought)
    (rest : t.Quiescent) : (t.registry, t.events) = replay requests ({}, []) := by
  rw [← follows.replayed, outstanding, rest.1]
  rfl

/-! ## No wakeup is lost -/

/-- A lookup that is blocked is blocked for good reason: nothing accepted matches it and the end has
not come. So at rest exactly the lookups without a match wait, none of them after the end, and the
answers are those of any other run of the same requests and lookups, at any capacity. -/
theorem blocked_only_without_match (capacity : Nat) (schedule : List (Action α)) (t : Table α)
    (reached : (withCapacity capacity).execute schedule = some t) :
    (∀ (index : Nat) (l : Lookup α) (cursor : Nat), t.lookups[index]? = some l →
      l.phase = .waiting cursor → t.advance? index = none →
      t.registry.ended = false ∧
        ∀ entry ∈ t.accepted, entry.1 = l.owner → l.signature.accepts entry.2 = false) ∧
    (t.Quiescent →
      (∀ l ∈ t.lookups, l.phase.answer? = none ↔ t.registry.ended = false ∧
        ∀ entry ∈ t.accepted, entry.1 = l.owner → l.signature.accepts entry.2 = false) ∧
      (t.registry.ended = true → ∀ l ∈ t.lookups, l.phase.answer? ≠ none) ∧
      t.pending = t.lookups.countP (·.phase.answer?.isNone) ∧
      ∀ (capacity' : Nat) (schedule' : List (Action α)) (t' : Table α),
        (withCapacity capacity').execute schedule' = some t' → t'.Quiescent →
        schedule'.filterMap Action.request? = schedule.filterMap Action.request? →
        schedule'.filterMap Action.sought? = schedule.filterMap Action.sought? →
        t'.lookups.map (fun l => (l.owner, l.signature, l.phase.answer?)) =
          t.lookups.map (fun l => (l.owner, l.signature, l.phase.answer?))) := by
  have sound := ((withCapacity_sound capacity).execute schedule reached).1
  refine ⟨?_, fun rest => ?_⟩
  · intro index l cursor there waiting blocked
    obtain ⟨live, unmatched⟩ := sound.blocked index l cursor there waiting blocked
    exact ⟨live, (Log.first?_eq_none_iff _ _ _).mp unmatched⟩
  have unsettled : ∀ l ∈ t.lookups, l.phase.answer? = none ↔ t.registry.ended = false ∧
      ∀ entry ∈ t.accepted, entry.1 = l.owner → l.signature.accepts entry.2 = false := by
    intro l member
    obtain ⟨index, there⟩ := List.mem_iff_getElem?.mp member
    rw [(sound.rested rest index l there).1]
    exact Log.verdict_eq_none_iff _ _ _ _
  refine ⟨unsettled, ?_, ?_, ?_⟩
  · intro ended l member waiting
    have live := ((unsettled l member).mp waiting).1
    rw [ended] at live
    contradiction
  · apply List.countP_congr
    intro l member
    obtain ⟨index, there⟩ := List.mem_iff_getElem?.mp member
    rw [(sound.rested rest index l there).2]
  · intro capacity' schedule' t' reached' rest' sameRequests sameSought
    have sound' := ((withCapacity_sound capacity').execute schedule' reached').1
    have follows := (withCapacity_follows capacity).execute schedule reached
    have follows' := (withCapacity_follows capacity').execute schedule' reached'
    rw [sameRequests, sameSought] at follows'
    have sameState : (t'.registry, t'.events) = (t.registry, t.events) :=
      (follows'.rested rest').trans (follows.rested rest).symm
    obtain ⟨sameRegistry, sameEvents⟩ := Prod.mk.inj sameState
    have answers {u : Table α} (sound : u.Sound) (rest : u.Quiescent) :
        u.lookups.map (fun l => (l.owner, l.signature, l.phase.answer?)) =
          u.sought.map fun q => (q.1, q.2, u.accepted.verdict u.registry.ended q.1 q.2) := by
      rw [sought, List.map_map]
      apply List.map_congr_left
      intro l member
      obtain ⟨index, there⟩ := List.mem_iff_getElem?.mp member
      simp only [Function.comp_apply, (sound.rested rest index l there).1]
    rw [answers sound' rest', answers sound rest, follows'.sought, follows.sought, accepted, accepted,
      sameRegistry, sameEvents]

/-- A second lookup that nothing answers, behind one that fell behind. -/
def laggingTwice : List (Action MethodDeclaration) :=
  lagging ++ ([.seek "app.C" (.ofMethod "h" (.exact 0)), .advance 1, .serve, .advance 1, .serve,
    .advance 1, .serve] : List (Action MethodDeclaration))

/-- The same lookups and registrations in a table where everything is registered at once. -/
def prompt : List (Action MethodDeclaration) :=
  [.seek "app.A" (.ofMethod "f" (.exact 0)), .seek "app.C" (.ofMethod "h" (.exact 0)),
    .post 7 (.register "app.A" (bare "g")), .post 7 (.register "app.B" (bare "f")),
    .post 7 (.register "app.A" (bare "f")), .serve, .serve, .serve, .advance 0, .serve,
    .advance 1, .serve, .advance 1, .serve, .advance 1, .serve]

theorem lagging_answers_as_prompt :
    ∃ t t' : Table MethodDeclaration,
      (withCapacity 1).execute laggingTwice = some t ∧ t.Quiescent ∧
      (withCapacity 4).execute prompt = some t' ∧ t'.Quiescent ∧
      t.lookups.map (·.phase.answer?) = [some (some (bare "f")), none] ∧
      t.pending = t.lookups.countP (·.phase.answer?.isNone) ∧
      t'.lookups.map (fun l => (l.owner, l.signature, l.phase.answer?)) =
        t.lookups.map (fun l => (l.owner, l.signature, l.phase.answer?)) := by
  have run : ∃ t t' : Table MethodDeclaration,
      (withCapacity 1).execute laggingTwice = some t ∧ t.next? = none ∧
      (withCapacity 4).execute prompt = some t' ∧ t'.next? = none ∧
      t.lookups.map (·.phase.answer?) = [some (some (bare "f")), none] :=
    ⟨_, _, rfl, rfl, rfl, rfl, rfl⟩
  obtain ⟨t, t', reached, rest, reached', rest', answers⟩ := run
  rw [next?_eq_none_iff] at rest rest'
  have settled := (blocked_only_without_match 1 laggingTwice t reached).2 rest
  exact ⟨t, t', reached, rest, reached', rest', answers, settled.2.2.1,
    settled.2.2.2 4 prompt t' reached' rest' rfl rfl⟩

end Table

end UnitCompiler
