import UnitCompiler.Proofs.Lists
import UnitCompiler.Tables

/-! Who has put which requests to a table, which of their answers are there, and what has been looked
up. Every operation is described by what it does to these; lookups on their way never touch the
requests of callers. -/

namespace UnitCompiler

variable {α : Type} [Named α]

def Letter.call? : Letter α → Option (Nat × Request α)
  | .call caller request => some (caller, request)
  | _ => none

namespace Table

def outstanding (t : Table α) : List (Nat × Request α) :=
  t.mailbox.filterMap Letter.call?

/-- What a caller has asked without being served yet. -/
def calls (t : Table α) (caller : Nat) : List (Request α) :=
  (t.outstanding.filter (·.1 == caller)).map Prod.snd

/-- What a caller has been answered and has not taken yet. -/
def answers (t : Table α) (caller : Nat) : List (Reply α) :=
  (t.replies.filter (·.1 == caller)).map Prod.snd

/-- The owners and signatures of all lookups, in the order in which they were started. -/
def sought (t : Table α) : List (String × Signature α) :=
  t.lookups.map fun l => (l.owner, l.signature)

def answered (t : Table α) (caller : Nat) (request : Request α) (rest : List (Letter α)) :
    Table α :=
  { t with
    mailbox := rest
    registry := (t.registry.serve request).2
    events := t.events ++ announcements request (t.registry.serve request).1
    replies := t.replies ++ [(caller, (t.registry.serve request).1)] }

@[simp] theorem sought_setPhase (t : Table α) (index : Nat) (phase : Phase α) :
    (t.setPhase index phase).sought = t.sought :=
  map_modify index fun _ => rfl

theorem sought_getElem? (t : Table α) (index : Nat) (l : Lookup α)
    (there : t.lookups[index]? = some l) : t.sought[index]? = some (l.owner, l.signature) := by
  simp [sought, there]

/-! ## What the operations do -/

/-- A lookup's step changes its phase and may add a letter that is no call. -/
theorem advance_frame {t t' : Table α} {index : Nat} (advanced : t.advance? index = some t') :
    ∃ phase letters, t' = { t.setPhase index phase with mailbox := t.mailbox ++ letters } ∧
      letters.filterMap Letter.call? = [] := by
  have heard (l : Lookup α) (cursor : Nat) (heard : t.hear? index l cursor = some t') :
      ∃ phase letters, t' = { t.setPhase index phase with mailbox := t.mailbox ++ letters } ∧
        letters.filterMap Letter.call? = [] := by
    refine (?_ : ∃ phase, t' = t.setPhase index phase).elim fun phase moved =>
      ⟨phase, [], by simp [moved, setPhase], rfl⟩
    unfold hear? at heard
    split at heard
    · exact ⟨_, (Option.some.inj heard).symm⟩
    · split at heard
      · contradiction
      · exact ⟨_, (Option.some.inj heard).symm⟩
      · split at heard <;> exact ⟨_, (Option.some.inj heard).symm⟩
  unfold advance? at advanced
  split at advanced
  · contradiction
  split at advanced
  · exact ⟨_, _, (Option.some.inj advanced).symm, rfl⟩
  · exact ⟨_, _, (Option.some.inj advanced).symm, rfl⟩
  · exact ⟨_, _, (Option.some.inj advanced).symm, rfl⟩
  · exact heard _ _ advanced
  · exact ⟨_, _, (Option.some.inj advanced).symm, rfl⟩
  · contradiction

/-- Serving answers the first call, or takes a letter that is none and touches one lookup at most. -/
theorem serve_frame {t t' : Table α} (served : t.serve? = some t') :
    (∃ caller request rest, t.mailbox = .call caller request :: rest ∧
      t' = t.answered caller request rest) ∨
    (∃ letter rest lookups, t.mailbox = letter :: rest ∧ letter.call? = none ∧
      t' = { t with mailbox := rest, lookups } ∧ t'.sought = t.sought) := by
  unfold serve? at served
  split at served
  · contradiction
  · next caller request rest first =>
    exact .inl ⟨caller, request, rest, first, (Option.some.inj served).symm⟩
  · next index rest first =>
    dsimp only at served
    split at served
    · exact .inr ⟨_, rest, t.lookups, first, rfl, (Option.some.inj served).symm,
        by rw [← Option.some.inj served]; rfl⟩
    · exact .inr ⟨_, rest, _, first, rfl, (Option.some.inj served).symm,
        by rw [← Option.some.inj served, sought_setPhase]; rfl⟩
  · next index rest first =>
    exact .inr ⟨_, rest, _, first, rfl, (Option.some.inj served).symm,
      by rw [← Option.some.inj served, sought_setPhase]; rfl⟩

@[simp] theorem outstanding_post (t : Table α) (running : t.running = true) (caller : Nat)
    (request : Request α) :
    (t.post caller request).outstanding = t.outstanding ++ [(caller, request)] := by
  simp [post, running, send, outstanding, Letter.call?]

@[simp] theorem replies_post (t : Table α) (running : t.running = true) (caller : Nat)
    (request : Request α) : (t.post caller request).replies = t.replies := by
  simp [post, running, send]

theorem calls_post (t : Table α) (running : t.running = true) (caller other : Nat)
    (request : Request α) :
    (t.post caller request).calls other =
      t.calls other ++ if caller = other then [request] else [] := by
  simp only [calls, outstanding_post t running, List.filter_append, List.map_append]
  by_cases same : caller = other <;> simp [same]

/-- Taking an answer takes the first of the caller's own, and nothing else. -/
theorem takeReply_frame {t t' : Table α} {caller : Nat} {reply : Reply α}
    (taken : t.takeReply? caller = some (reply, t')) :
    t.answers caller = reply :: t'.answers caller ∧
      (∀ other, other ≠ caller → t'.answers other = t.answers other) ∧
      ∃ replies, t' = { t with replies } := by
  unfold takeReply? at taken
  split at taken
  · next key found first =>
    cases taken
    obtain ⟨own, before, after, whole, others⟩ := List.find?_eq_some_iff_append.mp first
    obtain rfl : key = caller := by simpa using own
    have apart : ∀ entry ∈ before, ¬ (entry.1 == key) = true := by
      intro entry member
      simpa using others entry member
    have erased : t.replies.eraseP (·.1 == key) = before ++ after := by
      rw [whole, List.eraseP_append_right _ apart]
      simp
    refine ⟨?_, ?_, _, rfl⟩
    · have empty : before.filter (·.1 == key) = [] := List.filter_eq_nil_iff.mpr apart
      simp only [answers]
      rw [erased, whole]
      simp [empty]
    · intro other different
      simp only [answers]
      rw [erased, whole]
      simp [Ne.symm different]
  · contradiction

theorem exists_takeReply {t : Table α} {caller : Nat} (answered : t.answers caller ≠ []) :
    ∃ reply t', t.takeReply? caller = some (reply, t') := by
  unfold takeReply?
  split
  · exact ⟨_, _, rfl⟩
  · next absent =>
    apply absurd _ answered
    rw [answers, List.map_eq_nil_iff, List.filter_eq_nil_iff]
    exact List.find?_eq_none.mp absent

/-! ## What has been looked up -/

theorem sought_post (t : Table α) (caller : Nat) (request : Request α) :
    (t.post caller request).sought = t.sought := by
  unfold post
  split <;> rfl

theorem sought_takeReply {t t' : Table α} {caller : Nat} {reply : Reply α}
    (taken : t.takeReply? caller = some (reply, t')) : t'.sought = t.sought := by
  obtain ⟨-, -, replies, rfl⟩ := takeReply_frame taken
  rfl

theorem sought_advance {t t' : Table α} {index : Nat} (advanced : t.advance? index = some t') :
    t'.sought = t.sought := by
  obtain ⟨phase, letters, rfl, -⟩ := advance_frame advanced
  exact sought_setPhase t index phase

theorem sought_serve {t t' : Table α} (served : t.serve? = some t') : t'.sought = t.sought := by
  rcases serve_frame served with ⟨caller, request, rest, -, rfl⟩ | ⟨-, -, -, -, -, -, same⟩
  · rfl
  · exact same

theorem sought_seek (t : Table α) (owner : String) (signature : Signature α) :
    (t.seek owner signature).sought = t.sought ++ [(owner, signature)] := by
  simp [sought, seek]

/-! ## Steps that a table takes by itself -/

inductive Step (t : Table α) : Table α → Prop where
  | serve (t' : Table α) (served : t.serve? = some t') : Step t t'
  | advance (index : Nat) (t' : Table α) (advanced : t.advance? index = some t') : Step t t'

theorem Step.sought {t t' : Table α} (step : t.Step t') : t'.sought = t.sought := by
  cases step with
  | serve t' served => exact sought_serve served
  | advance index t' advanced => exact sought_advance advanced

end Table

/-- A step of two tables is a step of one of them. -/
theorem Tables.perform_step {t t' : Tables} {action : Action} (performed : t.perform action = some t') :
    (∃ types, t.types.Step types ∧ t' = { t with types }) ∨
      ∃ methods, t.methods.Step methods ∧ t' = { t with methods } := by
  cases action with
  | serveTypes =>
    obtain ⟨types, served, rfl⟩ := Option.map_eq_some_iff.mp performed
    exact .inl ⟨types, .serve types served, rfl⟩
  | serveMethods =>
    obtain ⟨methods, served, rfl⟩ := Option.map_eq_some_iff.mp performed
    exact .inr ⟨methods, .serve methods served, rfl⟩
  | advanceType index =>
    obtain ⟨types, advanced, rfl⟩ := Option.map_eq_some_iff.mp performed
    exact .inl ⟨types, .advance index types advanced, rfl⟩
  | advanceMethod index =>
    obtain ⟨methods, advanced, rfl⟩ := Option.map_eq_some_iff.mp performed
    exact .inr ⟨methods, .advance index methods advanced, rfl⟩

end UnitCompiler
