import UnitCompiler.Proofs.CatalogueReferences
import UnitCompiler.Proofs.TableQuiescence

/-! What one step does to a table, and what it cannot do. A lookup goes from phase to phase along a
few paths; it has a letter in the mailbox just while it awaits one. Whatever is accepted later, a
table that is sound has settled its lookups on what the whole log will say. -/

namespace UnitCompiler

variable {α : Type}

namespace Phase

inductive Next (announced : Nat) : Phase α → Phase α → Prop where
  | opens : Next announced .starting .opening
  | misses : Next announced .opening .missed
  | finds (answer : Option α) : Next announced .opening (.settled answer)
  | subscribes : Next announced .missed .subscribing
  | listens : Next announced .subscribing (.listening announced)
  | confirms (cursor : Nat) : Next announced (.listening cursor) (.confirming cursor)
  | waits (cursor : Nat) : Next announced (.confirming cursor) (.waiting cursor)
  | catches (cursor : Nat) (answer : Option α) :
      Next announced (.confirming cursor) (.settled answer)
  | passes (cursor : Nat) (inside : cursor < announced) :
      Next announced (.waiting cursor) (.waiting (cursor + 1))
  | lags (cursor later : Nat) (behind : cursor < later) (inside : later ≤ announced) :
      Next announced (.waiting cursor) (.listening later)
  | hears (cursor : Nat) (answer : Option α) : Next announced (.waiting cursor) (.settled answer)
  | leaves (cursor : Nat) : Next announced (.waiting cursor) (.dismissed (cursor + 1))
  | closes (cursor : Nat) : Next announced (.dismissed cursor) (.closing cursor)
  | ends (cursor : Nat) (answer : Option α) : Next announced (.closing cursor) (.settled answer)

/-- No path leads away from an answer. -/
theorem Next.unanswered {announced : Nat} {phase later : Phase α} (next : Next announced phase later) :
    phase.answer? = none := by
  cases next <;> rfl

variable [Named α]

/-- What the answer to a check makes of a phase that awaits it. -/
theorem hear_next (r : Registry α) (owner : String) (signature : Signature α) (index announced : Nat)
    (phase : Phase α) (awaits : phase.awaited index = some (.check index)) :
    Next announced phase (phase.hear (r.serve (.check owner signature)).1) ∧
      (phase.hear (r.serve (.check owner signature)).1).awaited index = none := by
  cases found : r.find owner signature with
  | some declaration =>
    simp only [Registry.serve, found]
    cases phase with
    | opening => exact ⟨.finds _, rfl⟩
    | confirming cursor => exact ⟨.catches cursor _, rfl⟩
    | closing cursor => exact ⟨.ends cursor _, rfl⟩
    | starting | missed | subscribing | listening | waiting | dismissed | settled | closed
    | cancelled => simp [awaited] at awaits
  | none =>
    simp only [Registry.serve, found]
    cases phase with
    | opening =>
      cases r.ended with
      | true => exact ⟨.finds _, rfl⟩
      | false => exact ⟨.misses, rfl⟩
    | confirming cursor =>
      cases r.ended with
      | true => exact ⟨.catches cursor _, rfl⟩
      | false => exact ⟨.waits cursor, rfl⟩
    | closing cursor => exact ⟨.ends cursor _, rfl⟩
    | starting | missed | subscribing | listening | waiting | dismissed | settled | closed
    | cancelled => simp [awaited] at awaits

end Phase

namespace Table

variable [Named α] {t t' : Table α}

/-- Every letter about a lookup is the only one, and the lookup awaits it. -/
structure Paired (t : Table α) : Prop where
  awaited : ∀ letter ∈ t.mailbox, ∀ index, letter.lookup? = some index →
    ∃ l, t.lookups[index]? = some l ∧ l.phase.awaited index = some letter
  once : (t.mailbox.filterMap Letter.lookup?).Nodup

theorem withCapacity_paired (capacity : Nat) : (withCapacity capacity : Table α).Paired :=
  ⟨by simp [withCapacity], by simp [withCapacity]⟩

/-- The step of a lookup that waits for no letter. -/
theorem advance_next {index : Nat} (advanced : t.advance? index = some t') :
    ∃ l phase, t.lookups[index]? = some l ∧ l.phase.awaited index = none ∧
      Phase.Next t.events.length l.phase phase ∧
      t' = { t.setPhase index phase with mailbox := t.mailbox ++ (phase.awaited index).toList } := by
  unfold advance? at advanced
  split at advanced
  · contradiction
  next l there =>
  refine ⟨l, ?_⟩
  split at advanced
  · next phase =>
    cases advanced
    exact ⟨.opening, there, by rw [phase]; rfl, by rw [phase]; exact .opens, rfl⟩
  · next phase =>
    cases advanced
    exact ⟨.subscribing, there, by rw [phase]; rfl, by rw [phase]; exact .subscribes, rfl⟩
  · next cursor phase =>
    cases advanced
    exact ⟨.confirming cursor, there, by rw [phase]; rfl, by rw [phase]; exact .confirms cursor, rfl⟩
  · next cursor phase =>
    -- An announcement is heard: nothing is sent.
    have silent (later : Phase α) (none : later.awaited index = none) : t.setPhase index later =
        { t.setPhase index later with mailbox := t.mailbox ++ (later.awaited index).toList } := by
      simp [none, setPhase]
    rw [phase]
    unfold hear? at advanced
    split at advanced
    · next lags =>
      cases advanced
      exact ⟨_, there, rfl, .lags cursor _ (by omega) (by omega), silent _ rfl⟩
    · split at advanced
      · contradiction
      · cases advanced
        exact ⟨_, there, rfl, .leaves cursor, silent _ rfl⟩
      · next owner declaration event =>
        have inside : cursor < t.events.length := (List.getElem?_eq_some_iff.mp event).1
        split at advanced
        · cases advanced
          exact ⟨_, there, rfl, .hears cursor _, silent _ rfl⟩
        · cases advanced
          exact ⟨_, there, rfl, .passes cursor inside, silent _ rfl⟩
  · next cursor phase =>
    cases advanced
    exact ⟨.closing cursor, there, by rw [phase]; rfl, by rw [phase]; exact .closes cursor, rfl⟩
  · contradiction

/-- Serving answers a call, or a lookup gets what it awaits. -/
theorem serve_next (paired : t.Paired) (served : t.serve? = some t') :
    (∃ caller request rest, t.mailbox = .call caller request :: rest ∧
      t' = t.answered caller request rest) ∨
    ∃ letter rest index l phase, t.mailbox = letter :: rest ∧ letter.lookup? = some index ∧
      t.lookups[index]? = some l ∧ Phase.Next t.events.length l.phase phase ∧
      phase.awaited index = none ∧ t' = { t.setPhase index phase with mailbox := rest } := by
  unfold serve? at served
  split at served
  · contradiction
  · next caller request rest first =>
    exact .inl ⟨caller, request, rest, first, (Option.some.inj served).symm⟩
  · next index rest first =>
    obtain ⟨l, there, awaits⟩ := paired.awaited _ (by rw [first]; exact List.mem_cons_self) index rfl
    simp only [there] at served
    cases served
    obtain ⟨next, silent⟩ := Phase.hear_next t.registry l.owner l.signature index t.events.length
      l.phase awaits
    exact .inr ⟨_, rest, index, l, _, first, rfl, there, next, silent, rfl⟩
  · next index rest first =>
    obtain ⟨l, there, awaits⟩ := paired.awaited _ (by rw [first]; exact List.mem_cons_self) index rfl
    cases served
    have phase : l.phase = .subscribing := by
      cases phase : l.phase <;> simp_all [Phase.awaited]
    exact .inr ⟨_, rest, index, l, _, first, rfl, there, by rw [phase]; exact .listens, rfl, rfl⟩

theorem Paired.advance {index : Nat} (paired : t.Paired) (advanced : t.advance? index = some t') :
    t'.Paired := by
  obtain ⟨l, phase, there, silent, -, rfl⟩ := advance_next advanced
  -- There was no letter about this lookup.
  have fresh (letter : Letter α) (member : letter ∈ t.mailbox) : letter.lookup? ≠ some index := by
    intro about
    obtain ⟨same, found, awaits⟩ := paired.awaited letter member index about
    obtain rfl := Option.some.inj (there.symm.trans found)
    simp [silent] at awaits
  refine ⟨fun letter member other about => ?_, ?_⟩
  · rcases List.mem_append.mp member with old | new
    · have apart : index ≠ other := by
        rintro rfl
        exact fresh letter old about
      obtain ⟨l', found, awaits⟩ := paired.awaited letter old other about
      exact ⟨l', by simpa [apart] using found, awaits⟩
    · have awaits : phase.awaited index = some letter := Option.mem_toList.mp new
      obtain rfl : index = other := by
        have own := Phase.lookup_awaited index phase letter awaits
        exact Option.some.inj (own.symm.trans about)
      exact ⟨{ l with phase }, by simp [there], awaits⟩
  · rw [List.filterMap_append, List.nodup_append]
    refine ⟨paired.once, ?_, ?_⟩
    · cases phase.awaited index <;> simp [List.filterMap_cons]
      split <;> simp
    · intro one first two second same
      subst same
      obtain ⟨letter, member, about⟩ := List.mem_filterMap.mp first
      obtain ⟨sent, new, about'⟩ := List.mem_filterMap.mp second
      have own := Phase.lookup_awaited index phase sent (Option.mem_toList.mp new)
      obtain rfl := Option.some.inj (own.symm.trans about')
      exact fresh letter member about

theorem Paired.serve (paired : t.Paired) (served : t.serve? = some t') : t'.Paired := by
  rcases serve_next paired served with
    ⟨caller, request, rest, first, rfl⟩ |
    ⟨letter, rest, index, l, phase, first, about, there, -, -, rfl⟩
  · have once := paired.once
    rw [first, List.filterMap_cons_none rfl] at once
    refine ⟨fun letter member index about => ?_, once⟩
    exact paired.awaited letter (by rw [first]; exact List.mem_cons_of_mem _ member) index about
  · have once := paired.once
    rw [first, List.filterMap_cons_some about, List.nodup_cons] at once
    refine ⟨fun other member place about' => ?_, once.2⟩
    have apart : index ≠ place := by
      rintro rfl
      exact once.1 (List.mem_filterMap.mpr ⟨other, member, about'⟩)
    have inside : other ∈ t.mailbox := by
      rw [first]
      exact List.mem_cons_of_mem _ member
    obtain ⟨l', found, awaits⟩ := paired.awaited other inside place about'
    exact ⟨l', by simpa [apart] using found, awaits⟩

theorem Step.paired (step : t.Step t') (paired : t.Paired) : t'.Paired := by
  cases step with
  | serve t' served => exact paired.serve served
  | advance index t' advanced => exact paired.advance advanced

theorem Paired.seek (paired : t.Paired) (owner : String) (signature : Signature α) :
    (t.seek owner signature).Paired := by
  refine ⟨fun letter member index about => ?_, paired.once⟩
  obtain ⟨l, there, awaits⟩ := paired.awaited letter member index about
  obtain ⟨inside, -⟩ := List.getElem?_eq_some_iff.mp there
  exact ⟨l, by rw [Table.seek, List.getElem?_append_left inside, there], awaits⟩

/-! ## One step -/

/-- What a step does to a table that it starts no lookup in; what is asked of the registry is of some
kind. -/
inductive Change (allowed : Request α → Prop) (t : Table α) : Table α → Prop where
  | idle : Change allowed t t
  | post (caller : Nat) (request : Request α) (fine : allowed request) :
      Change allowed t (t.post caller request)
  | serve (t' : Table α) (served : t.serve? = some t') : Change allowed t t'
  | advance (index : Nat) (t' : Table α) (advanced : t.advance? index = some t') :
      Change allowed t t'
  | take (caller : Nat) (reply : Reply α) (t' : Table α)
      (taken : t.takeReply? caller = some (reply, t')) : Change allowed t t'

variable {allowed : Request α → Prop}

theorem Step.change (step : t.Step t') : t.Change allowed t' := by
  cases step with
  | serve t' served => exact .serve t' served
  | advance index t' advanced => exact .advance index t' advanced

theorem Change.sound (change : t.Change allowed t') (sound : t.Sound) : t'.Sound ∧ t.Grows t' := by
  cases change with
  | idle => exact ⟨sound, .of_eq rfl⟩
  | post caller request fine => exact sound.perform (.post caller request) rfl
  | serve t' served => exact sound.serve served
  | advance index t' advanced => exact sound.advance index advanced
  | take caller reply t' taken =>
    obtain ⟨-, -, replies, rfl⟩ := takeReply_frame taken
    exact ⟨sound.takeReply caller reply taken, .of_eq rfl⟩

theorem Change.paired (change : t.Change allowed t') (sound : t.Sound) (paired : t.Paired) :
    t'.Paired := by
  cases change with
  | idle => exact paired
  | post caller request fine =>
    rw [Table.post, if_pos sound.running]
    refine ⟨fun letter member index about => ?_, ?_⟩
    · rcases List.mem_append.mp member with old | new
      · exact paired.awaited letter old index about
      · rw [List.mem_singleton.mp new] at about
        contradiction
    · rw [send, filterMap_snoc_none _ _ rfl]
      exact paired.once
  | serve t' served => exact paired.serve served
  | advance index t' advanced => exact paired.advance advanced
  | take caller reply t' taken =>
    obtain ⟨-, -, replies, rfl⟩ := takeReply_frame taken
    exact ⟨paired.awaited, paired.once⟩

theorem Change.sought (change : t.Change allowed t') : t'.sought = t.sought := by
  cases change with
  | idle => rfl
  | post caller request fine => exact sought_post t caller request
  | serve t' served => exact sought_serve served
  | advance index t' advanced => exact sought_advance advanced
  | take caller reply t' taken => exact sought_takeReply taken

/-- A lookup without an answer had none before. -/
theorem Change.unanswered (change : t.Change allowed t') (sound : t.Sound) (paired : t.Paired)
    {index : Nat} {l : Lookup α} (there : t'.lookups[index]? = some l)
    (waits : l.phase.answer? = none) :
    ∃ l', t.lookups[index]? = some l' ∧ l'.phase.answer? = none := by
  -- One lookup goes on, which had no answer; the others are as they were.
  have moved (place : Nat) (l' : Lookup α) (phase : Phase α) (found : t.lookups[place]? = some l')
      (next : Phase.Next t.events.length l'.phase phase)
      (there : (t.setPhase place phase).lookups[index]? = some l) :
      ∃ l', t.lookups[index]? = some l' ∧ l'.phase.answer? = none := by
    by_cases same : place = index
    · subst same
      exact ⟨l', found, next.unanswered⟩
    · rw [getElem?_setPhase, if_neg same] at there
      exact ⟨l, there, waits⟩
  cases change with
  | idle => exact ⟨l, there, waits⟩
  | post caller request fine =>
    rw [Table.post, if_pos sound.running] at there
    exact ⟨l, there, waits⟩
  | serve t' served =>
    rcases serve_next paired served with
      ⟨caller, request, rest, -, rfl⟩ | ⟨-, rest, place, l', phase, -, -, found, next, -, rfl⟩
    · exact ⟨l, there, waits⟩
    · exact moved place l' phase found next there
  | advance place t' advanced =>
    obtain ⟨l', phase, found, -, next, rfl⟩ := advance_next advanced
    exact moved place l' phase found next there
  | take caller reply t' taken =>
    obtain ⟨-, -, replies, rfl⟩ := takeReply_frame taken
    exact ⟨l, there, waits⟩

/-! ## What is registered -/

structure Registers (allowed : Request α → Prop) (t : Table α) : Prop where
  accepted : ∀ entry ∈ t.accepted, allowed (.register entry.1 entry.2)
  outstanding : ∀ call ∈ t.outstanding, allowed call.2

theorem withCapacity_registers (capacity : Nat) :
    (withCapacity capacity : Table α).Registers allowed :=
  ⟨by simp [withCapacity, Table.accepted, Event.log], by simp [withCapacity, Table.outstanding]⟩

theorem Change.registers (change : t.Change allowed t') (sound : t.Sound)
    (registers : t.Registers allowed) : t'.Registers allowed := by
  cases change with
  | idle => exact registers
  | post caller request fine =>
    refine ⟨?_, fun call member => ?_⟩
    · rw [Table.post, if_pos sound.running]
      exact registers.accepted
    · rw [outstanding_post t sound.running, List.mem_append, List.mem_singleton] at member
      rcases member with old | rfl
      · exact registers.outstanding call old
      · exact fine
  | serve t' served =>
    rcases serve_frame served with
      ⟨caller, request, rest, first, rfl⟩ | ⟨letter, rest, lookups, first, other, rfl, -⟩
    · have served : t.outstanding = (caller, request) :: (t.answered caller request rest).outstanding := by
        simp [Table.outstanding, first, answered, Letter.call?]
      refine ⟨fun entry member => ?_, fun call member => ?_⟩
      · simp only [Table.accepted, answered, Event.log_append, List.mem_append] at member
        rcases member with old | new
        · exact registers.accepted entry old
        · -- Only a registration is announced with an entry, which is its own.
          have own := registers.outstanding (caller, request) (by rw [served]; exact List.mem_cons_self)
          rcases t.registry.serve_cases request with
            ⟨-, silent⟩ | ⟨owner, declaration, rfl, -, -, news⟩ | ⟨rfl, -, -, news⟩
          · simp [silent, Event.log] at new
          · rw [news, Event.log_registered, List.mem_singleton] at new
            rw [new]
            exact own
          · rw [news, Event.log_ended] at new
            contradiction
      · exact registers.outstanding call (by rw [served]; exact List.mem_cons_of_mem _ member)
    · refine ⟨registers.accepted, fun call member => registers.outstanding call ?_⟩
      rw [Table.outstanding, first, List.filterMap_cons_none other]
      exact member
  | advance index t' advanced =>
    obtain ⟨phase, letters, rfl, silent⟩ := advance_frame advanced
    refine ⟨registers.accepted, fun call member => registers.outstanding call ?_⟩
    simpa [Table.outstanding, silent] using member
  | take caller reply t' taken =>
    obtain ⟨-, -, replies, rfl⟩ := takeReply_frame taken
    exact ⟨registers.accepted, registers.outstanding⟩

/-- A log that the table may come to: it goes on from what is accepted, and not after the end. -/
def Admits (t : Table α) (log : Log α) : Prop :=
  t.accepted <+: log ∧ (t.registry.ended = true → log = t.accepted)

theorem Admits.refl (t : Table α) : t.Admits t.accepted := ⟨List.prefix_refl _, fun _ => rfl⟩

theorem Grows.accepted (grows : t.Grows t') : t.accepted <+: t'.accepted := by
  obtain ⟨news, grown, -⟩ := grows
  rw [Table.accepted, Table.accepted, grown, Event.log_append]
  exact List.prefix_append _ _

/-- A table that has ended stays so, and accepts nothing. -/
theorem Grows.ended (grows : t.Grows t') (sound : t.Sound) (later : t'.Sound)
    (ended : t.registry.ended = true) : t'.registry.ended = true ∧ t'.accepted = t.accepted := by
  obtain ⟨news, grown, last⟩ := grows
  have announced := sound.ended.mp ended
  rw [last announced, List.append_nil] at grown
  exact ⟨later.ended.mpr (grown ▸ announced), by rw [Table.accepted, Table.accepted, grown]⟩

/-- What a table may come to was possible before. -/
theorem Admits.back {log : Log α} (sound : t.Sound) (grows : t.Grows t') (later : t'.Sound)
    (admits : t'.Admits log) : t.Admits log := by
  refine ⟨grows.accepted.trans admits.1, fun ended => ?_⟩
  obtain ⟨state, same⟩ := grows.ended sound later ended
  rw [admits.2 state, same]

/-- Settled lookups have the answer of every log that the table may come to. -/
theorem Sound.settles {log : Log α} (sound : t.Sound) (admits : t.Admits log) : t.Settles log := by
  intro index l found there settled
  have known := sound.informed index l there
  rw [settled] at known
  cases found with
  | some declaration =>
    obtain ⟨more, rfl⟩ := admits.1
    exact (Log.first?_append _ _ _ _ _ known).symm
  | none =>
    rw [admits.2 (sound.ended.mpr known.1)]
    exact known.2.symm

end Table

end UnitCompiler
