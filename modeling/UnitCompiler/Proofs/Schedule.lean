import UnitCompiler.Schedule

/-! Schedules of step systems. A schedule is a list of steps, each of which has to be enabled when its turn
comes. What every step keeps holds after every schedule, and a system in which every step takes off some
of a load comes to rest. -/

namespace UnitCompiler

variable {σ α : Type} {step : σ → α → Option σ} {next? : σ → Option σ}

/-- Takes the steps of a schedule, if each is enabled when its turn comes. -/
def runSchedule (step : σ → α → Option σ) (state : σ) (schedule : List α) : Option σ :=
  schedule.foldlM step state

@[simp] theorem runSchedule_nil (state : σ) : runSchedule step state [] = some state := rfl

@[simp] theorem runSchedule_cons (state : σ) (action : α) (schedule : List α) :
    runSchedule step state (action :: schedule) =
      (step state action).bind fun next => runSchedule step next schedule := rfl

theorem runSchedule_append (state : σ) (first second : List α) :
    runSchedule step state (first ++ second) =
      (runSchedule step state first).bind fun next => runSchedule step next second :=
  List.foldlM_append

/-- What every step keeps, of a state and of the steps that were taken, holds after every schedule. -/
theorem runSchedule_induction {P : List α → σ → Prop} {state last : σ} {schedule : List α}
    (start : P [] state)
    (each : ∀ {past state action next}, P past state → step state action = some next →
      P (past ++ [action]) next)
    (ran : runSchedule step state schedule = some last) : P schedule last := by
  have onward (schedule past : List α) {state : σ} (held : P past state)
      (ran : runSchedule step state schedule = some last) : P (past ++ schedule) last := by
    induction schedule generalizing past state with
    | nil =>
      cases ran
      rwa [List.append_nil]
    | cons action schedule ih =>
      obtain ⟨next, taken, later⟩ := Option.bind_eq_some_iff.mp ran
      have rest := ih (past ++ [action]) (each held taken) later
      rwa [List.append_assoc] at rest
  exact onward schedule [] start ran

/-- Steps that are chosen one after the other are a schedule. -/
theorem exists_runSchedule (choice : ∀ {state next}, next? state = some next →
      ∃ action, step state action = some next) (fuel : Nat) (state : σ) :
    ∃ schedule, runSchedule step state schedule = some (runSteps next? fuel state) := by
  induction fuel generalizing state with
  | zero => exact ⟨[], rfl⟩
  | succ fuel ih =>
    unfold runSteps
    split
    · next later found =>
      obtain ⟨action, taken⟩ := choice found
      obtain ⟨schedule, ran⟩ := ih later
      exact ⟨action :: schedule, by simp [taken, ran]⟩
    · exact ⟨[], rfl⟩

/-- A system in which every step takes off some of the load comes to rest within the load. -/
theorem runSteps_rests (load : σ → Nat) (P : σ → Prop)
    (step : ∀ state next, P state → next? state = some next → P next ∧ load next < load state)
    (fuel : Nat) (state : σ) (start : P state) (enough : load state ≤ fuel) :
    P (runSteps next? fuel state) ∧ next? (runSteps next? fuel state) = none := by
  induction fuel generalizing state with
  | zero =>
    refine ⟨start, ?_⟩
    cases found : next? state with
    | none => exact found
    | some next =>
      have less := (step state next start found).2
      omega
  | succ fuel ih =>
    unfold runSteps
    split
    · next later found =>
      obtain ⟨kept, less⟩ := step state later start found
      apply ih later kept
      omega
    · next stuck => exact ⟨start, stuck⟩

end UnitCompiler
