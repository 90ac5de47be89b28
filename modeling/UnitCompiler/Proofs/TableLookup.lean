import UnitCompiler.Proofs.RegistryLog
import UnitCompiler.Proofs.Schedule
import UnitCompiler.Proofs.TableRequests

/-! Lookups under any interleaving. Every run is a list of actions; what a lookup knows follows from
its phase and the announcements made so far, whoever else was served in between and however far it
fell behind. A settled lookup holds the first match of the whole run, also of its later part. -/

namespace UnitCompiler

variable {α : Type}

def Event.registration? : Event α → Option (String × α)
  | .registered owner declaration => some (owner, declaration)
  | .ended => none

def Event.log (events : List (Event α)) : Log α :=
  events.filterMap Event.registration?

@[simp] theorem Event.log_append (events more : List (Event α)) :
    Event.log (events ++ more) = Event.log events ++ Event.log more :=
  List.filterMap_append

@[simp] theorem Event.log_registered (owner : String) (declaration : α) :
    Event.log [.registered owner declaration] = [(owner, declaration)] := rfl

@[simp] theorem Event.log_ended : Event.log [(.ended : Event α)] = [] := rfl

variable [Named α]

def Letter.lookup? : Letter α → Option Nat
  | .call _ _ => none
  | .check index => some index
  | .subscribe index => some index

namespace Phase

/-- The letter whose answer a lookup waits for. -/
def awaited (index : Nat) : Phase α → Option (Letter α)
  | .opening | .confirming _ | .closing _ => some (.check index)
  | .subscribing => some (.subscribe index)
  | _ => none

theorem lookup_awaited (index : Nat) (phase : Phase α) (letter : Letter α)
    (awaits : phase.awaited index = some letter) : letter.lookup? = some index := by
  cases phase <;> simp_all [awaited] <;> subst letter <;> rfl

/-- What the phase of a lookup says about the announcements made so far. A waiting lookup has passed
no match and not the end. -/
def Informed (events : List (Event α)) (owner : String) (signature : Signature α) :
    Phase α → Prop
  | .starting | .opening | .missed | .subscribing => True
  | .listening cursor | .confirming cursor => cursor ≤ events.length
  | .waiting cursor => cursor ≤ events.length ∧ .ended ∉ events.take cursor ∧
      (Event.log (events.take cursor)).first? owner signature = none
  | .dismissed _ | .closing _ => .ended ∈ events
  | .settled (some declaration) => (Event.log events).first? owner signature = some declaration
  | .settled none => .ended ∈ events ∧ (Event.log events).first? owner signature = none
  | .closed | .cancelled => False

/-- Further announcements take nothing back. Nothing is announced after the end. -/
theorem Informed.announce {events : List (Event α)} {owner : String} {signature : Signature α}
    {phase : Phase α} (informed : phase.Informed events owner signature) (news : List (Event α))
    (last : .ended ∈ events → news = []) : phase.Informed (events ++ news) owner signature := by
  by_cases live : Event.ended ∈ events
  · rw [last live, List.append_nil]
    exact informed
  cases phase with
  | starting | opening | missed | subscribing => trivial
  | listening cursor | confirming cursor =>
    have bound : cursor ≤ events.length := informed
    simp only [Informed, List.length_append]
    omega
  | waiting cursor =>
    obtain ⟨bound, unended, unmatched⟩ := informed
    simp only [Informed, List.length_append, List.take_append_of_le_length bound]
    exact ⟨by omega, unended, unmatched⟩
  | dismissed cursor | closing cursor => exact List.mem_append_left _ informed
  | settled answer =>
    cases answer with
    | none => exact absurd informed.1 live
    | some declaration =>
      simp only [Informed, Event.log_append]
      exact Log.first?_append _ _ _ _ _ informed
  | closed | cancelled => exact informed

/-- What a lookup makes of a match: it is the first one. -/
theorem Informed.found {events : List (Event α)} {owner : String} {signature : Signature α}
    {phase : Phase α} (informed : phase.Informed events owner signature) (declaration : α)
    (first : (Event.log events).first? owner signature = some declaration) :
    (phase.hear (.found declaration)).Informed events owner signature := by
  cases phase with
  | opening | confirming cursor | closing cursor => exact first
  | starting | missed | subscribing | listening | waiting | dismissed | settled | closed
  | cancelled => exact informed

/-- What a lookup makes of a miss: it settles if the end has been announced, and otherwise it has
missed nothing before it waits. -/
theorem Informed.missing {events : List (Event α)} {owner : String} {signature : Signature α}
    {phase : Phase α} (informed : phase.Informed events owner signature) (ended : Bool)
    (announced : ended = true ↔ .ended ∈ events)
    (unmatched : (Event.log events).first? owner signature = none) :
    (phase.hear (.missing ended)).Informed events owner signature := by
  cases phase with
  | opening =>
    cases ended with
    | true => exact ⟨announced.mp rfl, unmatched⟩
    | false => trivial
  | confirming cursor =>
    cases ended with
    | true => exact ⟨announced.mp rfl, unmatched⟩
    | false =>
      have pending : Event.ended ∉ events := fun member => by simpa using announced.mpr member
      refine ⟨informed, fun member => pending (List.mem_of_mem_take member), ?_⟩
      rw [Log.first?_eq_none_iff] at unmatched ⊢
      intro entry member
      exact unmatched entry (((List.take_sublist cursor events).filterMap _).mem member)
  | closing cursor => exact ⟨informed, unmatched⟩
  | starting | missed | subscribing | listening | waiting | dismissed | settled | closed
  | cancelled => exact informed

end Phase

namespace Table

def accepted (t : Table α) : Log α := Event.log t.events

def execute (t : Table α) (schedule : List (Action α)) : Option (Table α) := runSchedule perform t schedule

/-- The registry is what the announcements say it is, and every lookup knows what its phase says and
waits for nothing that is not on its way. -/
structure Sound (t : Table α) : Prop where
  running : t.running = true
  content : t.registry.Holds t.accepted
  ended : t.registry.ended = true ↔ .ended ∈ t.events
  informed : ∀ (index : Nat) (l : Lookup α), t.lookups[index]? = some l →
    l.phase.Informed t.events l.owner l.signature
  letters : ∀ (index : Nat) (l : Lookup α), t.lookups[index]? = some l →
    ∀ letter, l.phase.awaited index = some letter → letter ∈ t.mailbox

theorem withCapacity_sound (capacity : Nat) : (withCapacity capacity : Table α).Sound where
  running := rfl
  content := Registry.holds_empty
  ended := by simp [withCapacity]
  informed := by simp [withCapacity]
  letters := by simp [withCapacity]

@[simp] theorem getElem?_setPhase (t : Table α) (index other : Nat) (phase : Phase α) :
    (t.setPhase index phase).lookups[other]? =
      if index = other then (t.lookups[other]?).map fun l => { l with phase }
      else t.lookups[other]? := by
  simp only [setPhase, List.getElem?_modify]
  split <;> simp

/-- One lookup moves while letters come and go; all the others keep their phases and letters. -/
theorem Sound.moved {t : Table α} (sound : t.Sound) (index : Nat) (lookups : List (Lookup α))
    (mailbox : List (Letter α))
    (others : ∀ (other : Nat) (l : Lookup α), other ≠ index → lookups[other]? = some l →
      t.lookups[other]? = some l)
    (informed : ∀ l : Lookup α, lookups[index]? = some l →
      l.phase.Informed t.events l.owner l.signature)
    (awaited : ∀ l : Lookup α, lookups[index]? = some l →
      ∀ letter, l.phase.awaited index = some letter → letter ∈ mailbox)
    (kept : ∀ letter ∈ t.mailbox, ∀ other, letter.lookup? = some other → other ≠ index →
      letter ∈ mailbox) :
    Sound { t with lookups, mailbox } where
  running := sound.running
  content := sound.content
  ended := sound.ended
  informed other l there := by
    by_cases same : other = index
    · subst same
      exact informed l there
    · exact sound.informed other l (others other l same there)
  letters other l there letter awaits := by
    by_cases same : other = index
    · subst same
      exact awaited l there letter awaits
    · have waiting := sound.letters other l (others other l same there) letter awaits
      exact kept letter waiting other (Phase.lookup_awaited other l.phase letter awaits) same

theorem Sound.setPhase {t : Table α} (sound : t.Sound) (index : Nat) (phase : Phase α)
    (mailbox : List (Letter α))
    (informed : ∀ l : Lookup α, t.lookups[index]? = some l →
      phase.Informed t.events l.owner l.signature)
    (awaited : ∀ letter, phase.awaited index = some letter → letter ∈ mailbox)
    (kept : ∀ letter ∈ t.mailbox, ∀ other, letter.lookup? = some other → other ≠ index →
      letter ∈ mailbox) :
    Sound { t.setPhase index phase with mailbox } := by
  have there (l : Lookup α) (moved : (t.setPhase index phase).lookups[index]? = some l) :
      l.phase = phase ∧ l.phase.Informed t.events l.owner l.signature := by
    rw [getElem?_setPhase, if_pos rfl, Option.map_eq_some_iff] at moved
    obtain ⟨before, found, rfl⟩ := moved
    exact ⟨rfl, informed before found⟩
  refine sound.moved index _ mailbox ?_ (fun l moved => (there l moved).2) ?_ kept
  · intro other l apart found
    rwa [getElem?_setPhase, if_neg (Ne.symm apart)] at found
  · intro l moved letter awaits
    rw [(there l moved).1] at awaits
    exact awaited letter awaits

/-! ## What each operation keeps -/

theorem Sound.post {t : Table α} (sound : t.Sound) (caller : Nat) (request : Request α) :
    (t.post caller request).Sound := by
  rw [Table.post, if_pos sound.running]
  refine { sound with letters := ?_ }
  intro index l there letter awaits
  exact List.mem_append_left _ (sound.letters index l there letter awaits)

theorem Sound.seek {t : Table α} (sound : t.Sound) (owner : String) (signature : Signature α) :
    (t.seek owner signature).Sound := by
  have split (index : Nat) (l : Lookup α)
      (there : (t.seek owner signature).lookups[index]? = some l) :
      t.lookups[index]? = some l ∨ l.phase = .starting := by
    simp only [Table.seek, if_pos sound.running, List.getElem?_append] at there
    by_cases old : index < t.lookups.length
    · rw [if_pos old] at there
      exact .inl there
    · rw [if_neg old, List.getElem?_singleton] at there
      split at there
      · cases there
        exact .inr rfl
      · contradiction
  refine { sound with informed := ?_, letters := ?_ }
  · intro index l there
    rcases split index l there with old | fresh
    · exact sound.informed index l old
    · rw [fresh]
      trivial
  · intro index l there letter awaits
    rcases split index l there with old | fresh
    · exact sound.letters index l old letter awaits
    · simp [fresh, Phase.awaited] at awaits

/-- Taking an answer touches nothing but the answers. -/
theorem Sound.takeReply {t t' : Table α} (sound : t.Sound) (caller : Nat) (reply : Reply α)
    (taken : t.takeReply? caller = some (reply, t')) : t'.Sound := by
  unfold takeReply? at taken
  split at taken
  · cases taken
    exact { sound with }
  · contradiction

/-- A check of the registry tells a lookup about everything announced so far. -/
theorem Sound.hear {t : Table α} (sound : t.Sound) (index : Nat) (l : Lookup α)
    (there : t.lookups[index]? = some l) :
    (l.phase.hear (t.registry.serve (.check l.owner l.signature)).1).Informed
      t.events l.owner l.signature := by
  have known := sound.informed index l there
  have whole := sound.content.find l.owner l.signature
  cases found : t.registry.find l.owner l.signature with
  | some declaration =>
    simp only [Registry.serve, found]
    exact known.found declaration (whole.symm.trans found)
  | none =>
    simp only [Registry.serve, found]
    exact known.missing t.registry.ended sound.ended (whole.symm.trans found)

/-- Announcements are only ever added, and none after the end. -/
def Grows (t t' : Table α) : Prop :=
  ∃ news, t'.events = t.events ++ news ∧ (.ended ∈ t.events → news = [])

theorem Grows.of_eq {t t' : Table α} (same : t'.events = t.events) : Grows t t' :=
  ⟨[], by simp [same], fun _ => rfl⟩

theorem Grows.trans {t t' t'' : Table α} (first : Grows t t') (second : Grows t' t'') :
    Grows t t'' := by
  obtain ⟨news, here, last⟩ := first
  obtain ⟨more, there, final⟩ := second
  refine ⟨news ++ more, by rw [there, here, List.append_assoc], ?_⟩
  intro ended
  rw [last ended, final (here ▸ List.mem_append_left news ended)]
  rfl

theorem Sound.call {t : Table α} (sound : t.Sound) (caller : Nat) (request : Request α)
    (rest : List (Letter α)) (first : t.mailbox = .call caller request :: rest) :
    (t.answered caller request rest).Sound ∧ t.Grows (t.answered caller request rest) := by
  have kept (index : Nat) (l : Lookup α) (there : t.lookups[index]? = some l)
      (letter : Letter α) (awaits : l.phase.awaited index = some letter) : letter ∈ rest := by
    have waiting := sound.letters index l there letter awaits
    rw [first, List.mem_cons] at waiting
    rcases waiting with rfl | later
    · have impossible := Phase.lookup_awaited index l.phase _ awaits
      simp [Letter.lookup?] at impossible
    · exact later
  have state : t.registry.ended = false ↔ Event.ended ∉ t.events := by
    rw [← Bool.not_eq_true, sound.ended]
  rcases t.registry.serve_cases request with
    ⟨registry, silent⟩ | ⟨owner, declaration, rfl, live, served, news⟩ | ⟨rfl, live, served, news⟩
  · refine ⟨⟨sound.running, ?_, ?_, ?_, kept⟩, .of_eq (by simp [answered, silent])⟩
    · simpa [answered, accepted, registry, silent] using sound.content
    · simpa [answered, registry, silent] using sound.ended
    · simpa [answered, silent] using sound.informed
  · have pending := state.mp live
    refine ⟨⟨sound.running, ?_, ?_, ?_, kept⟩, ?_⟩
    · simp only [answered, accepted, served, announcements, Event.log_append]
      exact sound.content.add owner declaration
    · simp [answered, served, announcements, Registry.add, live, pending]
    · intro index l there
      exact (sound.informed index l there).announce _ fun ended => absurd ended pending
    · exact ⟨_, rfl, fun ended => absurd ended pending⟩
  · have pending := state.mp live
    refine ⟨⟨sound.running, ?_, ?_, ?_, kept⟩, ?_⟩
    · simp only [answered, accepted, served, announcements, Event.log_append]
      rw [Event.log_ended, List.append_nil]
      exact sound.content.finish
    · simp [answered, served, announcements]
    · intro index l there
      exact (sound.informed index l there).announce _ fun ended => absurd ended pending
    · exact ⟨_, rfl, fun ended => absurd ended pending⟩

/-- Letters about one lookup only: those of the others are still there when it is gone. -/
theorem kept_behind {mailbox rest : List (Letter α)} {letter : Letter α} {index : Nat}
    (about : letter.lookup? = some index) (first : mailbox = letter :: rest) :
    ∀ kept ∈ mailbox, ∀ other, kept.lookup? = some other → other ≠ index → kept ∈ rest := by
  intro kept member other owns apart
  rw [first, List.mem_cons] at member
  rcases member with rfl | later
  · rw [about, Option.some.injEq] at owns
    exact absurd owns.symm apart
  · exact later

/-- A lookup that has heard the answer to its check no longer awaits one. -/
theorem awaited_hear (r : Registry α) (owner : String) (signature : Signature α) (index : Nat)
    (phase : Phase α) (letter : Letter α)
    (awaits : (phase.hear (r.serve (.check owner signature)).1).awaited index = some letter) :
    phase.awaited index = some letter ∧ letter = .subscribe index := by
  cases found : r.find owner signature with
  | some declaration =>
    simp only [Registry.serve, found] at awaits
    cases phase <;> simp_all [Phase.hear, Phase.awaited]
  | none =>
    simp only [Registry.serve, found] at awaits
    cases state : r.ended <;> rw [state] at awaits <;>
      cases phase <;> simp_all [Phase.hear, Phase.awaited]

theorem Sound.serve {t t' : Table α} (sound : t.Sound) (served : t.serve? = some t') :
    t'.Sound ∧ t.Grows t' := by
  unfold serve? at served
  split at served
  · contradiction
  · next caller request rest first =>
    cases served
    exact sound.call caller request rest first
  · next index rest first =>
    have kept := kept_behind (show (Letter.check index : Letter α).lookup? = some index from rfl) first
    dsimp only at served
    split at served
    · next missing =>
      cases served
      refine ⟨sound.moved index t.lookups rest (fun _ _ _ there => there) ?_ ?_ kept, .of_eq rfl⟩
      all_goals intro l there; simp [missing] at there
    · next l there =>
      cases served
      refine ⟨sound.setPhase index _ rest ?_ ?_ kept, .of_eq rfl⟩
      · intro same found
        obtain rfl := Option.some.inj (there.symm.trans found)
        exact sound.hear index l there
      · intro letter awaits
        obtain ⟨before, rfl⟩ := awaited_hear t.registry l.owner l.signature index l.phase letter awaits
        simpa [first] using sound.letters index l there _ before
  · next index rest first =>
    cases served
    refine ⟨sound.setPhase index _ rest ?_ ?_ (kept_behind rfl first), .of_eq rfl⟩
    · intro l there
      exact Nat.le_refl _
    · intro letter awaits
      simp [Phase.awaited] at awaits

/-- A waiting lookup that takes an announcement has passed one more, or settles on the first match. -/
theorem Sound.heard {t t' : Table α} (sound : t.Sound) (index : Nat) (l : Lookup α) (cursor : Nat)
    (there : t.lookups[index]? = some l) (waiting : l.phase = .waiting cursor)
    (heard : t.hear? index l cursor = some t') : t'.Sound ∧ t.Grows t' := by
  have known := sound.informed index l there
  rw [waiting] at known
  obtain ⟨bound, unended, unmatched⟩ := known
  have kept : ∀ letter ∈ t.mailbox, ∀ other, letter.lookup? = some other → other ≠ index →
      letter ∈ t.mailbox := fun _ member _ _ _ => member
  unfold hear? at heard
  split at heard
  · cases heard
    refine ⟨sound.setPhase index _ t.mailbox ?_ (by simp [Phase.awaited]) kept, .of_eq rfl⟩
    intro _ _
    exact Nat.sub_le _ _
  · split at heard
    · contradiction
    · next event =>
      cases heard
      refine ⟨sound.setPhase index _ t.mailbox ?_ (by simp [Phase.awaited]) kept, .of_eq rfl⟩
      intro _ _
      exact List.mem_of_getElem? event
    · next owner declaration event =>
      obtain ⟨inside, here⟩ := List.getElem?_eq_some_iff.mp event
      have passed : t.events.take (cursor + 1) =
          t.events.take cursor ++ [.registered owner declaration] := by
        rw [List.take_succ_eq_append_getElem inside, here]
      have answer := Log.first?_snoc _ owner l.owner l.signature declaration unmatched
      rw [← Event.log_registered, ← Event.log_append, ← passed] at answer
      split at heard
      · next matching =>
        cases heard
        refine ⟨sound.setPhase index _ t.mailbox ?_ (by simp [Phase.awaited]) kept, .of_eq rfl⟩
        intro same found
        obtain rfl := Option.some.inj (there.symm.trans found)
        rw [if_pos matching] at answer
        have whole := Log.first?_append _ (Event.log (t.events.drop (cursor + 1))) _ _ _ answer
        rwa [← Event.log_append, List.take_append_drop] at whole
      · next other =>
        cases heard
        refine ⟨sound.setPhase index _ t.mailbox ?_ (by simp [Phase.awaited]) kept, .of_eq rfl⟩
        intro same found
        obtain rfl := Option.some.inj (there.symm.trans found)
        rw [if_neg other] at answer
        refine ⟨inside, ?_, answer⟩
        rw [passed]
        simpa using unended

theorem Sound.advance {t t' : Table α} (sound : t.Sound) (index : Nat)
    (advanced : t.advance? index = some t') : t'.Sound ∧ t.Grows t' := by
  unfold advance? at advanced
  split at advanced
  · contradiction
  next l there =>
  have known := sound.informed index l there
  -- Posting a letter: the phase after it knows what the one before it knew.
  have posted (phase : Phase α) (letter : Letter α) (awaits : phase.awaited index = some letter)
      (informed : phase.Informed t.events l.owner l.signature) :
      ((t.setPhase index phase).send letter).Sound := by
    refine sound.setPhase index phase (t.mailbox ++ [letter]) ?_ ?_ ?_
    · intro same found
      obtain rfl := Option.some.inj (there.symm.trans found)
      exact informed
    · intro other found
      obtain rfl := Option.some.inj (awaits.symm.trans found)
      simp
    · intro other member _ _ _
      exact List.mem_append_left _ member
  split at advanced
  · next phase =>
    cases advanced
    exact ⟨posted .opening _ rfl trivial, .of_eq rfl⟩
  · next phase =>
    cases advanced
    exact ⟨posted .subscribing _ rfl trivial, .of_eq rfl⟩
  · next cursor phase =>
    cases advanced
    rw [phase] at known
    exact ⟨posted (.confirming cursor) _ rfl known, .of_eq rfl⟩
  · next cursor phase => exact sound.heard index l cursor there phase advanced
  · next cursor phase =>
    cases advanced
    rw [phase] at known
    exact ⟨posted (.closing cursor) _ rfl known, .of_eq rfl⟩
  · contradiction

theorem Sound.perform {t t' : Table α} (sound : t.Sound) (action : Action α)
    (performed : t.perform action = some t') : t'.Sound ∧ t.Grows t' := by
  cases action with
  | post caller request =>
    cases performed
    refine ⟨sound.post caller request, .of_eq ?_⟩
    rw [Table.post, if_pos sound.running]
    rfl
  | seek owner signature =>
    cases performed
    exact ⟨sound.seek owner signature, .of_eq rfl⟩
  | serve => exact sound.serve performed
  | advance index => exact sound.advance index performed

/-- Every finite schedule keeps a table sound. -/
theorem Sound.execute {t t' : Table α} (sound : t.Sound) (schedule : List (Action α))
    (executed : t.execute schedule = some t') : t'.Sound ∧ t.Grows t' := by
  refine runSchedule_induction (P := fun _ u => u.Sound ∧ t.Grows u) ⟨sound, .of_eq rfl⟩ ?_ executed
  rintro past u action next ⟨sound, grows⟩ performed
  obtain ⟨sound, more⟩ := sound.perform action performed
  exact ⟨sound, grows.trans more⟩

/-! ## Answers -/

/-- Whatever the interleaving, a lookup that settles on a declaration has the earliest match of the
whole run, and one that settles on nothing does so after the end, when nothing has matched and nothing
will. -/
theorem settled_on_first_match (capacity : Nat) (before after : List (Action α)) (t t' : Table α)
    (reached : (withCapacity capacity).execute before = some t)
    (continued : t.execute after = some t') (index : Nat) (l : Lookup α)
    (there : t.lookups[index]? = some l) (answer : Option α) (settled : l.phase = .settled answer) :
    match answer with
    | some declaration => ∃ earlier later,
        t'.accepted = earlier ++ (l.owner, declaration) :: later ∧
        l.signature.accepts declaration = true ∧
        ∀ entry ∈ earlier, entry.1 = l.owner → l.signature.accepts entry.2 = false
    | none => t.registry.ended = true ∧ t'.registry.ended = true ∧
        ∀ entry ∈ t'.accepted, entry.1 = l.owner → l.signature.accepts entry.2 = false := by
  have sound := ((withCapacity_sound capacity).execute before reached).1
  obtain ⟨later, news, grown, closed⟩ := sound.execute after continued
  have known := sound.informed index l there
  have final := known.announce news closed
  rw [settled] at known final
  rw [← grown] at final
  cases answer with
  | some declaration => exact (Log.first?_eq_some_iff _ _ _ _).mp final
  | none =>
    exact ⟨sound.ended.mpr known.1, later.ended.mpr final.1, (Log.first?_eq_none_iff _ _ _).mp final.2⟩

def bare (name : String) : MethodDeclaration := { name, parameters := [], returnType := .void }

/-- A lookup waits, falls behind two announcements in a table that keeps one, and checks again behind
the registration it needs. -/
def lagging : List (Action MethodDeclaration) :=
  [.seek "app.A" (.ofMethod "f" (.exact 0)), .advance 0, .serve, .advance 0, .serve, .advance 0,
    .serve, .post 7 (.register "app.A" (bare "g")), .serve, .post 7 (.register "app.B" (bare "f")),
    .serve, .advance 0, .post 7 (.register "app.A" (bare "f")), .advance 0, .serve, .serve]

/-- A later overload of the same name. -/
def overloading : List (Action MethodDeclaration) :=
  [.post 8 (.register "app.A" { bare "f" with returnType := .int }), .serve]

theorem lagging_lookup_settled :
    ∃ (t t' : Table MethodDeclaration) (l : Lookup MethodDeclaration),
      (withCapacity 1).execute lagging = some t ∧ t.execute overloading = some t' ∧
      t.lookups[0]? = some l ∧ l.phase = .settled (some (bare "f")) ∧
      ∃ earlier later, t'.accepted = earlier ++ (l.owner, bare "f") :: later ∧
        l.signature.accepts (bare "f") = true ∧
        ∀ entry ∈ earlier, entry.1 = l.owner → l.signature.accepts entry.2 = false := by
  have run : ∃ (t t' : Table MethodDeclaration) (l : Lookup MethodDeclaration),
      (withCapacity 1).execute lagging = some t ∧ t.execute overloading = some t' ∧
      t.lookups[0]? = some l ∧ l.phase = .settled (some (bare "f")) :=
    ⟨_, _, _, rfl, rfl, rfl, rfl⟩
  obtain ⟨t, t', l, reached, continued, there, settled⟩ := run
  exact ⟨t, t', l, reached, continued, there, settled,
    settled_on_first_match 1 lagging overloading t t' reached continued 0 l there _ settled⟩

end Table

end UnitCompiler
