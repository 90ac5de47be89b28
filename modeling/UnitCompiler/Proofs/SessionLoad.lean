import UnitCompiler.Proofs.SessionSchedule
import UnitCompiler.Proofs.TableLoad

/-! Every session comes to rest. What is left to do is priced: the lookups and calls of the tables, a
declaration by its registrations, a resolve by its questions, each with the lookup it starts. Every step
takes something off the price, which is within the budget from the outset. -/

namespace UnitCompiler

/-! ## Declarations -/

namespace Registering

variable {r : Registering}

/-- The registrations that are still to be put to a table. -/
def left (r : Registering) : Nat :=
  r.outline.size - r.confirmed - if r.posted then 1 else 0

/-- Each registration is asked for, served and confirmed. -/
def load (r : Registering) : Nat :=
  3 * (r.outline.size - r.confirmed) + 1 - if r.posted then 2 else 0

theorem load_le (r : Registering) : r.load ≤ 3 * (r.outline.methods.length + 2) := by
  unfold load Outline.size
  omega

theorem left_le (r : Registering) : r.left ≤ r.outline.methods.length + 2 := by
  unfold left Outline.size
  omega

theorem load_pos (valid : r.Valid) : 0 < r.load := by
  have inside := valid.2
  unfold load
  split
  · next posted =>
    have bound := inside posted
    omega
  · omega

/-- What is asked for now is a call that a table has to serve. -/
theorem next_load (unfinished : r.confirmed < r.outline.size) :
    r.next.load + (if r.posted then 0 else 1) < r.load ∧
      r.next.left + (if r.posted then 0 else 1) = r.left := by
  cases posted : r.posted <;> simp [next, posted, load, left] <;> omega

theorem Turn.load {α : Type} [Named α] {plan : Plan α} {caller : Nat} {t t' : Table α}
    (turn : r.Turn plan caller t t') (sound : t.Sound) (total : Nat) :
    t'.load total =
        t.load total + (if r.posted then 0 else (plan r.outline r.confirmed).toList.length) ∧
      t'.span = t.span + (if r.posted then 0 else (plan r.outline r.confirmed).toList.length) := by
  cases turn with
  | elsewhere absent => simp [absent]
  | ask owner declaration planned free =>
    obtain ⟨load, span⟩ := Table.post_load sound caller (.register owner declaration) total
    simp [planned, free, load, span]
  | hear owner declaration planned posted t' taken =>
    obtain ⟨load, span⟩ := Table.take_load taken total
    simp [posted, load, span]

end Registering

/-- Each registration goes to one of the tables. -/
theorem Outline.plans_length (o : Outline) {place : Nat} (inside : place < o.size) :
    (typePlan o place).toList.length + (methodPlan o place).toList.length = 1 := by
  cases place with
  | zero => rfl
  | succ n =>
    have there : n < o.methods.length := by
      unfold size at inside
      omega
    simp [typePlan, methodPlan, there]

/-! ## Resolves -/

namespace Inquiry

theorem size_eq (i : Inquiry) :
    i.size = (i.types.map fun entry => entry.2.length).sum + i.calls.length :=
  foldl_add_eq_sum (fun entry : String × List String => entry.2.length) i.types i.calls.length

theorem size_normalize (i : Inquiry) : i.normalize.size = i.size := by
  have kept (known : References) (types : List (String × List String)) :
      ((skip known types).2.map fun entry => entry.2.length).sum =
        (types.map fun entry => entry.2.length).sum := by
    fun_induction skip known types with
    | case1 known name rest ih => simpa using ih
    | case2 known types other => rfl
  simp only [size_eq, normalize, kept]

theorem size_answerType {i : Inquiry} {candidate : String}
    (question : i.question? = some (.type candidate)) (found : Option TypeDeclaration) :
    (i.answerType found).size < i.size := by
  obtain ⟨name, others, rest, types⟩ := types_of_question question
  simp only [answerType, types]
  cases found with
  | none =>
    rw [size_normalize, size_eq, size_eq, types]
    simp only [List.map_cons, List.sum_cons, List.length_cons]
    omega
  | some d =>
    rw [size_normalize, size_eq, size_eq, types]
    simp only [List.map_cons, List.sum_cons, List.length_cons]
    omega

theorem size_answerMethod {i : Inquiry} {call : Call}
    (question : i.question? = some (.method call)) (found : Option MethodDeclaration) :
    (i.answerMethod found).size < i.size := by
  obtain ⟨rest, calls⟩ := calls_of_question question
  simp only [answerMethod, calls, size_eq, List.length_cons]
  omega

end Inquiry

namespace Resolve

/-- Each question costs its lookup, and two steps of the resolve. A lookup that has been started pays for
itself. -/
def load (total : Nat) : Resolve → Nat
  | .running state =>
    match state.asked with
    | none => (3 * total + 11) * state.inquiry.size + 1
    | some _ => (3 * total + 11) * (state.inquiry.size - 1) + 2
  | .done _ => 0

theorem load_le (total : Nat) (resolve : Resolve) :
    resolve.load total ≤ (3 * total + 11) * resolve.size := by
  cases resolve with
  | done result => simp [load]
  | running state =>
    have less : (3 * total + 11) * (state.inquiry.size - 1) ≤ (3 * total + 11) * state.inquiry.size :=
      Nat.mul_le_mul_left _ (Nat.sub_le _ _)
    simp only [load, size, Nat.mul_succ]
    split <;> omega

theorem load_pos (total : Nat) (state : Resolving) : 0 < (running state).load total := by
  unfold load
  dsimp only
  split <;> omega

end Resolve

/-- A question is asked, and a lookup for it starts, or a lookup is heard of. -/
theorem Resolving.Move.load {r next : Resolving} {t t' : Tables}
    (move : r.Move t (.continuing next) t') (total : Nat) :
    t'.types.load total + t'.methods.load total + (Resolve.running next).load total <
        t.types.load total + t.methods.load total + (Resolve.running r).load total ∧
      t'.types.span = t.types.span ∧ t'.methods.span = t.methods.span := by
  -- What one question less is worth.
  have fewer {size size' : Nat} (less : size' < size) :
      (3 * total + 11) * size' + (3 * total + 11) ≤ (3 * total + 11) * size := by
    rw [← Nat.mul_succ]
    exact Nat.mul_le_mul_left _ less
  cases move with
  | askType candidate question free =>
    obtain ⟨load, span⟩ := t.types.seek_load candidate (.ofType candidate) total
    have positive := Inquiry.size_answerType question none
    have price := fewer (show r.inquiry.size - 1 < r.inquiry.size by omega)
    refine ⟨?_, span, rfl⟩
    simp only [Resolve.load, free]
    omega
  | askMethod call question free =>
    obtain ⟨load, span⟩ := t.methods.seek_load r.outline.owner
      (.ofMethod call.name (.accepting call.arity)) total
    have positive := Inquiry.size_answerMethod question none
    have price := fewer (show r.inquiry.size - 1 < r.inquiry.size by omega)
    refine ⟨?_, rfl, span⟩
    simp only [Resolve.load, free]
    omega
  | hearType candidate question index asked l there found settled =>
    have less := Inquiry.size_answerType question found
    have price := Nat.mul_le_mul_left (3 * total + 11) (Nat.le_sub_one_of_lt less)
    refine ⟨?_, rfl, rfl⟩
    simp only [Resolve.load, asked]
    omega
  | hearMethod call question index asked l there found settled =>
    have less := Inquiry.size_answerMethod question found
    have price := Nat.mul_le_mul_left (3 * total + 11) (Nat.le_sub_one_of_lt less)
    refine ⟨?_, rfl, rfl⟩
    simp only [Resolve.load, asked]
    omega

/-! ## Sessions -/

namespace Session

variable {s s' : Session} {total : Nat}

def span (s : Session) : Nat :=
  s.tables.types.span + s.tables.methods.span + s.declaring.elim 0 Registering.left

def load (s : Session) (total : Nat) : Nat :=
  s.tables.types.load total + s.tables.methods.load total + s.declaring.elim 0 Registering.load +
    (s.resolves.map (Resolve.load total)).sum

theorem tables_load {tables : Tables} {action : Tables.Action} (orderly : s.Orderly)
    (bound : s.span ≤ total) (performed : s.tables.perform action = some tables) :
    load { s with tables } total < s.load total ∧ span { s with tables } ≤ s.span := by
  rcases Tables.perform_step performed with ⟨types, step, rfl⟩ | ⟨methods, step, rfl⟩
  · have announced : s.tables.types.events.length ≤ total := by
      unfold span Table.span at bound
      omega
    have less := step.load orderly.pairedTypes announced
    simp only [load, span]
    omega
  · have announced : s.tables.methods.events.length ≤ total := by
      unfold span Table.span at bound
      omega
    have less := step.load orderly.pairedMethods announced
    simp only [load, span]
    omega

theorem declare_load (orderly : s.Orderly) (performed : s.perform .declare = some s') (total : Nat) :
    s'.load total < s.load total ∧ s'.span ≤ s.span := by
  cases declare_declares orderly performed with
  | continues r declares tables step =>
    obtain ⟨-, unfinished, typeTurn, methodTurn⟩ :=
      Registering.step_continuing (orderly.ready r declares).valid step
    obtain ⟨typeLoad, typeSpan⟩ := typeTurn.load orderly.types total
    obtain ⟨methodLoad, methodSpan⟩ := methodTurn.load orderly.methods total
    have plans := r.outline.plans_length unfinished
    obtain ⟨less, left⟩ := Registering.next_load unfinished
    simp only [load, span, declares, Option.elim_some, typeLoad, typeSpan, methodLoad, methodSpan]
    split at less
    · next posted =>
      simp only [if_pos posted] at left ⊢
      omega
    · next free =>
      simp only [if_neg free] at left ⊢
      omega
  | concludes r declares =>
    have positive := Registering.load_pos (orderly.ready r declares).valid
    simp only [load, span, declares, Option.elim_some, Option.elim_none]
    omega
  | fails r declares error tables step =>
    have positive := Registering.load_pos (orderly.ready r declares).valid
    simp only [load, span, declares, Option.elim_some, Option.elim_none]
    rcases Registering.step_took step with ⟨reply, _, taken, rfl⟩ | ⟨reply, _, taken, rfl⟩
    · have same := Table.take_load taken total
      dsimp only
      omega
    · have same := Table.take_load taken total
      dsimp only
      omega

theorem resolve_load (orderly : s.Orderly) {index : Nat}
    (performed : s.perform (.resolve index) = some s') (total : Nat) :
    s'.load total < s.load total ∧ s'.span ≤ s.span := by
  have changed {old : Resolve} (there : s.resolves[index]? = some old) (next : Resolve) :
      ((s.resolves.set index next).map (Resolve.load total)).sum + old.load total =
        (s.resolves.map (Resolve.load total)).sum + next.load total := by
    rw [set_eq_modify there]
    exact sum_modify (Resolve.load total) (fun _ => next) there
  cases resolve_resumes orderly performed with
  | continues state next there tables move =>
    have less := move.load total
    have sum := changed there (.running next)
    simp only [load, span, setResolve]
    omega
  | concludes state there references move unit =>
    have positive := Resolve.load_pos total state
    have sum := changed there (.done (.ok unit))
    have spent : (Resolve.done (.ok unit)).load total = 0 := rfl
    simp only [load, span, setResolve]
    omega

/-- Every step takes something off the load. -/
theorem perform_load {action : Action} (orderly : s.Orderly) (bound : s.span ≤ total)
    (performed : s.perform action = some s') : s'.load total < s.load total ∧ s'.span ≤ s.span := by
  cases action with
  | tables action =>
    obtain ⟨tables, moved, rfl⟩ := Option.map_eq_some_iff.mp performed
    exact tables_load orderly bound moved
  | declare => exact declare_load orderly performed total
  | resolve index => exact resolve_load orderly performed total

/-- The budget covers the load. -/
theorem load_le_budget (s : Session) : s.load s.span ≤ s.budget := by
  have registering : s.declaring.elim 0 Registering.load ≤
        3 * s.declaring.elim 0 (fun r => r.outline.methods.length + 2) ∧
      s.declaring.elim 0 Registering.left ≤
        s.declaring.elim 0 (fun r => r.outline.methods.length + 2) := by
    cases s.declaring with
    | none => exact ⟨Nat.le_refl _, Nat.le_refl _⟩
    | some r => exact ⟨r.load_le, r.left_le⟩
  have types := s.tables.types.load_le s.span
  have methods := s.tables.methods.load_le s.span
  have resolves := sum_le_mul (Resolve.load_le s.span) s.resolves
  have announced : s.span ≤ s.tables.types.events.length + s.tables.methods.events.length +
      s.declaring.elim 0 (fun r => r.outline.methods.length + 2) +
      (s.tables.types.mailbox.length + s.tables.methods.mailbox.length) := by
    have first := s.tables.types.span_le
    have second := s.tables.methods.span_le
    have third := registering.2
    unfold span
    omega
  simp only [budget, foldl_add_eq_sum, Nat.add_zero]
  rw [Nat.mul_right_comm]
  generalize s.declaring.elim 0 (fun r => r.outline.methods.length + 2) = registrations at *
  generalize priced : 8 * (s.tables.types.events.length + s.tables.methods.events.length + registrations +
    (s.tables.types.mailbox.length + s.tables.methods.mailbox.length) + 8) = price
  -- Everything that is counted costs at most the price.
  have scale (count : Nat) {cost : Nat} (cheap : cost ≤ price) : cost * count ≤ price * count :=
    Nat.mul_le_mul_right count cheap
  have typeLookups := scale s.tables.types.lookups.length
    (show 3 * s.span + 9 ≤ price by omega)
  have methodLookups := scale s.tables.methods.lookups.length
    (show 3 * s.span + 9 ≤ price by omega)
  have questions := scale (s.resolves.map Resolve.size).sum
    (show 3 * s.span + 11 ≤ price by omega)
  have declaration := scale registrations (show 3 ≤ price by omega)
  have letters := scale (s.tables.types.mailbox.length + s.tables.methods.mailbox.length)
    (show 1 ≤ price by omega)
  simp only [load, Nat.mul_add, Nat.one_mul] at letters ⊢
  omega

end Session

namespace Translation

variable {t t' : Translation}

/-- What every step of a session keeps holds after steps alone. -/
theorem execute_steps_induction {P : List Session.Action → Session → Prop}
    {actions : List Session.Action} (start : P [] t.session)
    (step : ∀ {past s action next}, s.Orderly → P past s → s.perform action = some next →
      P (past ++ [action]) next)
    (orderly : t.session.Orderly) (executed : t.execute (actions.map .step) = some t') :
    t'.session.Orderly ∧ P actions t'.session := by
  rw [execute, runSchedule, List.foldlM_map] at executed
  refine runSchedule_induction (P := fun past u => u.session.Orderly ∧ P past u.session)
    ⟨orderly, start⟩ ?_ executed
  rintro past u action next ⟨orderly, held⟩ taken
  have later := (turn_move orderly taken).orderly orderly
  obtain ⟨session, performed, rfl⟩ := Option.map_eq_some_iff.mp taken
  exact ⟨later, step orderly held performed⟩

/-- Steps on their own come to an end, whatever their order. -/
theorem execute_load {total : Nat} {actions : List Session.Action} (orderly : t.session.Orderly)
    (bound : t.session.span ≤ total) (executed : t.execute (actions.map .step) = some t') :
    actions.length + t'.session.load total ≤ t.session.load total := by
  refine (execute_steps_induction (P := fun past s => s.span ≤ total ∧
    past.length + s.load total ≤ t.session.load total) ⟨bound, by simp⟩ ?_ orderly executed).2.2
  rintro past s action next orderly ⟨bound, spent⟩ performed
  obtain ⟨less, within⟩ := Session.perform_load orderly bound performed
  refine ⟨Nat.le_trans within bound, ?_⟩
  rw [List.length_append, List.length_singleton]
  omega

def Leads (t : Translation) (s : Session) : Prop :=
  ∃ (actions : List Session.Action) (t' : Translation), t.execute (actions.map .step) = some t' ∧
    t'.session = s ∧ t'.started = t.started ∧ t'.session.Orderly

theorem Leads.step {s next : Session} {action : Session.Action} (leads : t.Leads s)
    (performed : s.perform action = some next) : t.Leads next := by
  obtain ⟨actions, u, executed, rfl, started, orderly⟩ := leads
  obtain ⟨later, taken, rfl, same⟩ : ∃ later, u.turn (.step action) = some later ∧
      later.session = next ∧ later.started = u.started := by
    simp [turn, performed]
  refine ⟨actions ++ [action], later, ?_, rfl, same.trans started,
    (turn_move orderly taken).orderly orderly⟩
  simp [execute_append, executed, taken]

/-- What every step keeps holds where steps lead to. -/
theorem Leads.keeps {s : Session} {P : Session → Prop}
    (step : ∀ {s next : Session} {action : Session.Action}, s.Orderly → P s →
      s.perform action = some next → P next)
    (orderly : t.session.Orderly) (start : P t.session) (leads : t.Leads s) : P s := by
  obtain ⟨actions, t', executed, rfl, -⟩ := leads
  exact (execute_steps_induction (P := fun _ s => P s) start step orderly executed).2

/-- What settles a session is a run of its steps, after which none is left. -/
theorem settle_leads (orderly : t.session.Orderly) :
    t.Leads t.session.settle ∧ t.session.settle.next? = none := by
  have run : (t.Leads t.session.settle ∧ t.session.settle.span ≤ t.session.span) ∧
      t.session.settle.next? = none := by
    apply runSteps_rests (fun s => s.load t.session.span)
      (fun s => t.Leads s ∧ s.span ≤ t.session.span)
    · rintro s next ⟨leads, bound⟩ found
      obtain ⟨action, -, performed⟩ := List.exists_of_findSome?_eq_some found
      have orderly : s.Orderly := by
        obtain ⟨-, u, -, rfl, -, kept⟩ := leads
        exact kept
      obtain ⟨less, within⟩ := Session.perform_load orderly bound performed
      exact ⟨⟨leads.step performed, Nat.le_trans within bound⟩, less⟩
    · exact ⟨⟨[], t, rfl, rfl, rfl, orderly⟩, Nat.le_refl _⟩
    · exact t.session.load_le_budget
  exact ⟨run.1.1, run.2⟩

end Translation

end UnitCompiler
