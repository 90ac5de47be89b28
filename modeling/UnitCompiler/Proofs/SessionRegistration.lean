import UnitCompiler.Proofs.Sequential
import UnitCompiler.Proofs.SessionLoad

/-! What a session registers. Units that are declared before the end get into the tables whole and in the
order in which they are declared; resolves, and what is declared after the end, leave no trace there. -/

namespace UnitCompiler

/-! ## One table -/

section

variable {α : Type} [Named α]

/-- Who has asked a table for what: the declarer for a registration, the ender for the end. -/
def Session.agenda (plan : Plan α) (declaring : Option Registering) (ending : Bool) (caller : Nat) :
    Option (Request α) :=
  if caller = Session.declarer then declaring.bind (·.pending plan)
  else if caller = Session.ender ∧ ending = true then some .finish
  else none

def Session.confirmations (log : Log α) (caller : Nat) : Log α :=
  if caller = Session.declarer then log else []

/-- A table will hold a log once the unit that is being declared is registered, and no end comes
before. -/
structure Table.Files (plan : Plan α) (declaring : Option Registering) (ending : Bool) (log : Log α)
    (t : Table α) : Prop where
  exclusive : declaring ≠ none → ending = false
  live : ending = false → t.registry.ended = false
  serves : ∃ earlier,
    log = earlier ++ declaring.elim [] (fun r => plan.entries r.outline r.outline.size) ∧
    t.Serves (Session.agenda plan declaring ending) (Session.confirmations
      (earlier ++ declaring.elim [] (fun r => plan.entries r.outline r.confirmed)))

namespace Session

variable {plan : Plan α} {declaring : Option Registering} {ending : Bool}

theorem update_agenda (r : Registering) :
    Function.update (agenda plan declaring ending) declarer (r.pending plan) =
      agenda plan (some r) ending := by
  funext caller
  by_cases own : caller = declarer <;> simp [agenda, own]

theorem update_agenda_finish :
    Function.update (agenda plan declaring false) ender (some .finish) =
      agenda plan declaring true := by
  funext caller
  by_cases own : caller = ender
  · subst own
    simp [agenda, ender, declarer]
  · simp [agenda, own]

omit [Named α] in
theorem update_confirmations (log more : Log α) :
    Function.update (confirmations log) declarer more = confirmations more := by
  funext caller
  by_cases own : caller = declarer <;> simp [confirmations, own]

theorem agenda_ne_finish (caller : Nat) : agenda plan declaring false caller ≠ some .finish := by
  unfold agenda
  split
  · cases declaring with
    | none => simp
    | some r => simp [Registering.pending]
  · simp

end Session

namespace Table

variable {plan : Plan α} {declaring : Option Registering} {ending : Bool} {log : Log α}
  {t t' : Table α}

theorem withCapacity_files (plan : Plan α) (capacity : Nat) :
    (withCapacity capacity : Table α).Files plan none false [] := by
  refine ⟨by simp, fun _ => rfl, [], rfl, ?_⟩
  have requests : Session.agenda plan none false = fun _ => none := by
    funext caller
    simp [Session.agenda]
  have known : Session.confirmations ([] : Log α) = fun _ => [] := by
    funext caller
    simp [Session.confirmations]
  change (withCapacity capacity).Serves _ (Session.confirmations ([] : Log α))
  rw [requests, known]
  exact withCapacity_serves capacity

theorem Files.serve (files : t.Files plan declaring ending log) (served : t.serve? = some t') :
    t'.Files plan declaring ending log := by
  obtain ⟨earlier, whole, serves⟩ := files.serves
  obtain ⟨later, -, ended⟩ := serves.serve (by
    intro caller owner declaration asked
    apply files.live
    -- Only the declarer registers, and not once the end is asked for.
    unfold Session.agenda at asked
    split at asked
    · apply files.exclusive
      rintro rfl
      contradiction
    · split at asked <;> simp at asked) served
  refine ⟨files.exclusive, fun continues => ?_, earlier, whole, later⟩
  rw [← Bool.not_eq_true]
  intro now
  rcases ended now with before | ⟨caller, finish⟩
  · rw [files.live continues] at before
    contradiction
  · rw [continues] at finish
    exact Session.agenda_ne_finish caller finish

theorem Files.transfer (files : t.Files plan declaring ending log)
    (outstanding : t'.outstanding = t.outstanding) (replies : t'.replies = t.replies)
    (events : t'.events = t.events) (registry : t'.registry = t.registry) :
    t'.Files plan declaring ending log := by
  obtain ⟨earlier, whole, serves⟩ := files.serves
  exact ⟨files.exclusive, by rw [registry]; exact files.live, earlier, whole,
    serves.transfer outstanding replies events registry⟩

theorem Files.step (files : t.Files plan declaring ending log) (step : t.Step t') :
    t'.Files plan declaring ending log := by
  cases step with
  | serve t' served => exact files.serve served
  | advance index t' advanced =>
    obtain ⟨phase, letters, rfl, silent⟩ := advance_frame advanced
    exact files.transfer (by simp [outstanding, silent]) rfl rfl rfl

/-- A unit is about to be declared. -/
theorem Files.start (files : t.Files plan none false log) (o : Outline) :
    t.Files plan (some { outline := o }) false (log ++ plan.entries o o.size) := by
  obtain ⟨earlier, rfl, serves⟩ := files.serves
  refine ⟨fun _ => rfl, files.live, earlier, by simp, ?_⟩
  have requests : Session.agenda plan (some { outline := o }) false = Session.agenda plan none false := by
    funext caller
    simp [Session.agenda, Registering.pending]
  rw [requests]
  simpa [Plan.entries] using serves

theorem Files.turn {r : Registering} (files : t.Files plan (some r) ending log) (sound : t.Sound)
    (turn : r.Turn plan Session.declarer t t') : t'.Files plan (some r.next) ending log := by
  obtain ⟨earlier, whole, serves⟩ := files.serves
  have moved := turn.serves earlier sound serves (by simp [Session.agenda])
    (by simp [Session.confirmations])
  rw [Session.update_agenda, Session.update_confirmations] at moved
  refine ⟨fun _ => files.exclusive (by simp), ?_, earlier, by simpa using whole, moved⟩
  rw [(turn.frame sound).1]
  exact files.live

/-- A unit is declared. -/
theorem Files.finished {r : Registering} (files : t.Files plan (some r) ending log)
    (free : r.posted = false) (all : r.confirmed = r.outline.size) :
    t.Files plan none ending log := by
  obtain ⟨earlier, rfl, serves⟩ := files.serves
  refine ⟨by simp, files.live, _, (List.append_nil _).symm, ?_⟩
  have requests : Session.agenda plan (some r) ending = Session.agenda plan none ending := by
    funext caller
    simp [Session.agenda, Registering.pending, free]
  rw [requests] at serves
  simpa [all] using serves

theorem Files.not_refused {r : Registering} (files : t.Files plan (some r) ending log) :
    ¬ r.Refused plan Session.declarer t := by
  obtain ⟨earlier, -, serves⟩ := files.serves
  exact Registering.not_refused serves (by simp [Session.agenda])

/-- The end is asked for when nothing is being declared. -/
theorem Files.finish (files : t.Files plan none false log) (sound : t.Sound) :
    (t.post Session.ender .finish).Files plan none true log := by
  obtain ⟨earlier, whole, serves⟩ := files.serves
  have posted := serves.post sound.running Session.ender .finish
    (by simp [Session.agenda, Session.ender, Session.declarer])
  rw [Session.update_agenda_finish] at posted
  exact ⟨by simp, by simp, earlier, whole, posted⟩

/-- With nothing on its way, a table holds what it was to hold. -/
theorem Files.rested (files : t.Files plan none ending log) (rest : t.Quiescent) :
    t.accepted = log ∧ t.registry.ended = ending := by
  obtain ⟨earlier, rfl, history, accepted, standings⟩ := files.serves
  have silent (caller : Nat) : t.calls caller = [] := by simp [calls, outstanding, rest.1]
  -- Nobody but the declarer has registered anything.
  have made (caller : Nat) :
      history.made caller = Session.confirmations (earlier ++ []) caller := by
    have standing := standings caller
    generalize asked : Session.agenda plan none ending caller = request at standing
    cases standing with
    | idle _ _ same => exact same
    | asked _ calls => simp [silent] at calls
    | answered request _ _ _ same =>
      obtain rfl : request = .finish := by
        unfold Session.agenda at asked
        split at asked
        · contradiction
        · split at asked
          · exact (Option.some.inj asked).symm
          · contradiction
      simpa [Request.entries] using same
  refine ⟨?_, ?_⟩
  · have own : ∀ entry ∈ history, (entry.1 == Session.declarer) = true := by
      intro entry member
      have there : entry.2 ∈ history.made entry.1 :=
        List.mem_map_of_mem (List.mem_filter.mpr ⟨member, by simp⟩)
      rw [made entry.1, Session.confirmations] at there
      by_contra other
      simp [by simpa using other] at there
    have all := made Session.declarer
    rw [History.made, List.filter_eq_self.mpr own, accepted] at all
    simpa [Session.confirmations] using all
  · cases ending with
    | false => exact files.live rfl
    | true =>
      have standing := standings Session.ender
      have asked : Session.agenda plan none true Session.ender = some .finish := by
        simp [Session.agenda, Session.ender, Session.declarer]
      rw [asked] at standing
      cases standing with
      | asked _ calls => simp [silent] at calls
      | answered _ _ _ _ _ _ finished => exact finished rfl

end Table

end

/-! ## Both tables -/

namespace Session

variable {s s' : Session} {endTypes endMethods : Bool} {catalogue : Catalogue}

structure Files (s : Session) (endTypes endMethods : Bool) (catalogue : Catalogue) : Prop where
  types : s.tables.types.Files Outline.typePlan s.declaring endTypes catalogue.types
  methods : s.tables.methods.Files Outline.methodPlan s.declaring endMethods catalogue.methods

theorem standard_files (capacity number : Nat) :
    (standard capacity number).Files false false ⟨[], []⟩ :=
  ⟨Table.withCapacity_files _ _, Table.withCapacity_files _ _⟩

theorem Files.declare (orderly : s.Orderly) (files : s.Files endTypes endMethods catalogue)
    (performed : s.perform .declare = some s') : s'.Files endTypes endMethods catalogue := by
  obtain ⟨types, methods⟩ := files
  cases declare_declares orderly performed with
  | continues r declares tables step =>
    rw [declares] at types methods
    obtain ⟨-, -, typeTurn, methodTurn⟩ :=
      Registering.step_continuing (orderly.ready r declares).valid step
    exact ⟨types.turn orderly.types typeTurn, methods.turn orderly.methods methodTurn⟩
  | concludes r declares free all =>
    rw [declares] at types methods
    exact ⟨types.finished free all, methods.finished free all⟩
  | fails r declares error tables step =>
    rw [declares] at types methods
    rcases Registering.step_failed (orderly.ready r declares).valid step with refused | refused
    · exact absurd refused types.not_refused
    · exact absurd refused methods.not_refused

theorem Files.resolve (orderly : s.Orderly) (files : s.Files endTypes endMethods catalogue)
    {index : Nat} (performed : s.perform (.resolve index) = some s') :
    s'.Files endTypes endMethods catalogue := by
  cases resolve_resumes orderly performed with
  | concludes => exact ⟨files.types, files.methods⟩
  | continues state next there tables move =>
    cases move with
    | askType => exact ⟨files.types.transfer rfl rfl rfl rfl, files.methods⟩
    | askMethod => exact ⟨files.types, files.methods.transfer rfl rfl rfl rfl⟩
    | hearType | hearMethod => exact ⟨files.types, files.methods⟩

theorem Files.perform {action : Action} (orderly : s.Orderly)
    (files : s.Files endTypes endMethods catalogue) (performed : s.perform action = some s') :
    s'.Files endTypes endMethods catalogue := by
  cases action with
  | declare => exact files.declare orderly performed
  | resolve index => exact files.resolve orderly performed
  | tables action =>
    obtain ⟨tables, moved, rfl⟩ := Option.map_eq_some_iff.mp performed
    rcases Tables.perform_step moved with ⟨types, step, rfl⟩ | ⟨methods, step, rfl⟩
    · exact ⟨files.types.step step, files.methods⟩
    · exact ⟨files.types, files.methods.step step⟩

end Session

end UnitCompiler
