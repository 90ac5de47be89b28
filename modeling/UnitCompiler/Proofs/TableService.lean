import Mathlib.Logic.Function.Basic
import UnitCompiler.Proofs.TableLookup

/-! A table and its callers. Every caller has at most one request with the table, which is either
still to be served or answered already; the accepted registrations are an interleaving of what the
callers have registered, each in its own order. -/

namespace UnitCompiler

variable {α : Type}

/-- Registrations together with who made them. -/
abbrev History (α : Type) := List (Nat × String × α)

/-- What one caller has registered, in order. -/
def History.made (history : History α) (caller : Nat) : Log α :=
  (history.filter (·.1 == caller)).map Prod.snd

theorem History.made_snoc (history : History α) (caller other : Nat) (entries : Log α) :
    made (history ++ entries.map (caller, ·)) other =
      history.made other ++ if caller = other then entries else [] := by
  simp only [made, List.filter_append, List.map_append, List.filter_map, List.map_map]
  by_cases same : caller = other <;> simp [same, Function.comp_def]

variable [Named α]

def Request.entries : Request α → Log α
  | .register owner declaration => [(owner, declaration)]
  | _ => []

namespace Registry

/-- A request that is not refused is announced with all that it registers. -/
theorem log_announcements (r : Registry α) (request : Request α)
    (live : ∀ owner declaration, request = .register owner declaration → r.ended = false) :
    Event.log (Table.announcements request (r.serve request).1) = request.entries := by
  cases request with
  | register owner declaration =>
    simp [serve, live owner declaration rfl, Table.announcements, Request.entries]
  | finish => cases state : r.ended <;> simp only [serve, state] <;> rfl
  | check owner signature => rfl
  | containsOwner | named | snapshot => rfl

theorem ended_serve (r : Registry α) (request : Request α) :
    (r.serve request).2.ended = true ↔ r.ended = true ∨ request = .finish := by
  cases request with
  | register owner declaration => cases state : r.ended <;> simp [serve, state, add]
  | finish => simp [serve]
  | check owner signature => cases found : r.find owner signature <;> simp [serve, found]
  | containsOwner | named | snapshot => simp [serve]

theorem serve_registered (r : Registry α) (owner : String) (declaration : α)
    (live : r.ended = false) : (r.serve (.register owner declaration)).1 = .registered := by
  simp [serve, live]

end Registry

namespace Table

inductive Standing (t : Table α) (caller : Nat) (made confirmed : Log α) :
    Option (Request α) → Prop where
  | idle (calls : t.calls caller = []) (answers : t.answers caller = [])
      (same : made = confirmed) : Standing t caller made confirmed none
  | asked (request : Request α) (calls : t.calls caller = [request])
      (answers : t.answers caller = []) (same : made = confirmed) :
      Standing t caller made confirmed (some request)
  /-- A registration is never refused, and the end has come once it is confirmed. -/
  | answered (request : Request α) (reply : Reply α) (calls : t.calls caller = [])
      (answers : t.answers caller = [reply]) (same : made = confirmed ++ request.entries)
      (registered : ∀ owner declaration, request = .register owner declaration →
        reply = .registered)
      (finished : request = .finish → t.registry.ended = true) :
      Standing t caller made confirmed (some request)

/-- The table serves callers whose requests are on an agenda and who know some registrations to be
confirmed. -/
def Serves (t : Table α) (agenda : Nat → Option (Request α)) (confirmed : Nat → Log α) : Prop :=
  ∃ history : History α, history.map Prod.snd = t.accepted ∧
    ∀ caller, t.Standing caller (history.made caller) (confirmed caller) (agenda caller)

theorem withCapacity_serves (capacity : Nat) :
    (withCapacity capacity : Table α).Serves (fun _ => none) (fun _ => []) :=
  ⟨[], rfl, fun _ => .idle rfl rfl rfl⟩

/-- A table in which nothing changed for a caller. -/
theorem Standing.transfer {t t' : Table α} {caller : Nat} {made confirmed : Log α}
    {request : Option (Request α)} (standing : t.Standing caller made confirmed request)
    (calls : t'.calls caller = t.calls caller) (answers : t'.answers caller = t.answers caller)
    (ended : t.registry.ended = true → t'.registry.ended = true) :
    t'.Standing caller made confirmed request := by
  cases standing with
  | idle noCalls noAnswers same => exact .idle (calls.trans noCalls) (answers.trans noAnswers) same
  | asked request one noAnswers same =>
    exact .asked request (calls.trans one) (answers.trans noAnswers) same
  | answered request reply noCalls one same registered finished =>
    exact .answered request reply (calls.trans noCalls) (answers.trans one) same registered
      fun last => ended (finished last)

/-- Operations that touch neither callers nor registrations. -/
theorem Serves.transfer {t t' : Table α} {agenda : Nat → Option (Request α)}
    {confirmed : Nat → Log α} (serves : t.Serves agenda confirmed)
    (outstanding : t'.outstanding = t.outstanding) (replies : t'.replies = t.replies)
    (events : t'.events = t.events) (registry : t'.registry = t.registry) :
    t'.Serves agenda confirmed := by
  obtain ⟨history, whole, standings⟩ := serves
  refine ⟨history, by rw [whole, accepted, accepted, events], fun caller => ?_⟩
  apply (standings caller).transfer
  · rw [calls, calls, outstanding]
  · rw [answers, answers, replies]
  · rw [registry]
    exact id

theorem Serves.seek {t : Table α} {agenda : Nat → Option (Request α)} {confirmed : Nat → Log α}
    (serves : t.Serves agenda confirmed) (owner : String) (signature : Signature α) :
    (t.seek owner signature).Serves agenda confirmed :=
  serves.transfer rfl rfl rfl rfl

theorem Serves.advance {t t' : Table α} {agenda : Nat → Option (Request α)}
    {confirmed : Nat → Log α} (serves : t.Serves agenda confirmed) {index : Nat}
    (advanced : t.advance? index = some t') :
    t'.Serves agenda confirmed ∧ t'.registry = t.registry := by
  obtain ⟨phase, letters, rfl, silent⟩ := advance_frame advanced
  refine ⟨serves.transfer ?_ rfl rfl rfl, rfl⟩
  simp [outstanding, silent]

/-- A caller without a request puts one to the table. -/
theorem Serves.post {t : Table α} {agenda : Nat → Option (Request α)} {confirmed : Nat → Log α}
    (serves : t.Serves agenda confirmed) (running : t.running = true) (caller : Nat)
    (request : Request α) (free : agenda caller = none) :
    (t.post caller request).Serves (Function.update agenda caller (some request)) confirmed := by
  obtain ⟨history, whole, standings⟩ := serves
  have events : (t.post caller request).events = t.events := by simp [Table.post, running, send]
  have registry : (t.post caller request).registry = t.registry := by
    simp [Table.post, running, send]
  have replies : (t.post caller request).replies = t.replies := replies_post t running _ _
  refine ⟨history, by rw [whole, accepted, accepted, events], fun other => ?_⟩
  have before := standings other
  have calls := calls_post t running caller other request
  by_cases same : caller = other
  · subst same
    rw [free] at before
    cases before with
    | idle noCalls noAnswers made =>
      rw [Function.update_self]
      refine .asked request ?_ ?_ made
      · simpa [noCalls] using calls
      · simpa [answers, replies] using noAnswers
  · rw [Function.update_of_ne (Ne.symm same)]
    apply before.transfer
    · simpa [same] using calls
    · rw [answers, answers, replies]
    · rw [registry]
      exact id

/-- A caller takes the answer to its request, which a registration has confirmed. -/
theorem Serves.take {t t' : Table α} {agenda : Nat → Option (Request α)}
    {confirmed : Nat → Log α} (serves : t.Serves agenda confirmed) {caller : Nat}
    {reply : Reply α} {request : Request α} (asked : agenda caller = some request)
    (taken : t.takeReply? caller = some (reply, t')) :
    t'.Serves (Function.update agenda caller none)
        (Function.update confirmed caller (confirmed caller ++ request.entries)) ∧
      t'.registry = t.registry ∧
      (∀ owner declaration, request = .register owner declaration → reply = .registered) ∧
      (request = .finish → t.registry.ended = true) := by
  obtain ⟨history, whole, standings⟩ := serves
  obtain ⟨own, others, replies, rfl⟩ := takeReply_frame taken
  have before := standings caller
  rw [asked] at before
  cases before with
  | asked request calls answers same => simp [answers] at own
  | answered request found calls answers same registered finished =>
    obtain ⟨rfl, rest⟩ := List.cons.inj (answers.symm.trans own)
    refine ⟨⟨history, whole, fun other => ?_⟩, rfl, registered, finished⟩
    by_cases here : other = caller
    · subst here
      rw [Function.update_self, Function.update_self]
      exact .idle calls rest.symm same
    · rw [Function.update_of_ne here, Function.update_of_ne here]
      exact (standings other).transfer rfl (others other here) id

theorem calls_answered (t : Table α) (caller other : Nat) (request : Request α)
    (rest : List (Letter α)) (first : t.mailbox = .call caller request :: rest) :
    t.calls other =
      (if caller = other then [request] else []) ++ (t.answered caller request rest).calls other := by
  simp only [calls, outstanding, first, answered, List.filterMap_cons, Letter.call?]
  by_cases same : caller = other <;> simp [same]

theorem answers_answered (t : Table α) (caller other : Nat) (request : Request α)
    (rest : List (Letter α)) :
    (t.answered caller request rest).answers other =
      t.answers other ++ if caller = other then [(t.registry.serve request).1] else [] := by
  simp only [answers, answered, List.filter_append, List.map_append]
  by_cases same : caller = other <;> simp [same]

/-- Serving a letter answers one caller at most, whose registration is accepted. -/
theorem Serves.serve {t t' : Table α} {agenda : Nat → Option (Request α)}
    {confirmed : Nat → Log α} (serves : t.Serves agenda confirmed)
    (live : ∀ caller owner declaration, agenda caller = some (.register owner declaration) →
      t.registry.ended = false)
    (served : t.serve? = some t') :
    t'.Serves agenda confirmed ∧ (t.registry.ended = true → t'.registry.ended = true) ∧
      (t'.registry.ended = true →
        t.registry.ended = true ∨ ∃ caller, agenda caller = some .finish) := by
  rcases serve_frame served with
    ⟨caller, request, rest, first, rfl⟩ | ⟨letter, rest, lookups, first, other, rfl, -⟩
  · obtain ⟨history, whole, standings⟩ := serves
    have calls := calls_answered t caller caller request rest first
    have answers := answers_answered t caller caller request rest
    rw [if_pos rfl] at calls answers
    have asked : agenda caller = some request ∧ t.answers caller = [] ∧
        (t.answered caller request rest).calls caller = [] ∧
        history.made caller = confirmed caller := by
      have before := standings caller
      generalize asked : agenda caller = posted at before
      cases before with
      | idle noCalls => simp [noCalls] at calls
      | asked only one noAnswers same =>
        rw [one, List.singleton_append] at calls
        obtain ⟨rfl, none⟩ := List.cons.inj calls
        exact ⟨rfl, noAnswers, none.symm, same⟩
      | answered only reply noCalls => simp [noCalls] at calls
    obtain ⟨posted, noAnswers, noCalls, made⟩ := asked
    have accepts : ∀ owner declaration, request = .register owner declaration →
        t.registry.ended = false := by
      rintro owner declaration rfl
      exact live caller owner declaration posted
    have ended := t.registry.ended_serve request
    refine ⟨⟨history ++ request.entries.map (caller, ·), ?_, fun other => ?_⟩, ?_, ?_⟩
    · have log := t.registry.log_announcements request accepts
      simp only [accepted, answered, Event.log_append, log] at whole ⊢
      simp [whole, Function.comp_def]
    · rw [History.made_snoc]
      by_cases same : caller = other
      · subst same
        rw [posted, if_pos rfl]
        refine .answered request (t.registry.serve request).1 noCalls ?_ (by rw [made]) ?_ ?_
        · rw [answers, noAnswers, List.nil_append]
        · rintro owner declaration rfl
          exact t.registry.serve_registered owner declaration (accepts owner declaration rfl)
        · exact fun last => ended.mpr (.inr last)
      · rw [if_neg same, List.append_nil]
        apply (standings other).transfer
        · simpa [same] using (calls_answered t caller other request rest first).symm
        · simpa [same] using answers_answered t caller other request rest
        · exact fun state => ended.mpr (.inl state)
    · exact fun state => ended.mpr (.inl state)
    · intro state
      rcases ended.mp state with before | rfl
      · exact .inl before
      · exact .inr ⟨caller, posted⟩
  · refine ⟨serves.transfer ?_ rfl rfl rfl, id, .inl⟩
    simp [outstanding, first, other]

end Table

end UnitCompiler
