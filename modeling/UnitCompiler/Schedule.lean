/-!
# Running step systems

A system is a function that gives the state after the next step, or nothing when no step is enabled.
-/

namespace UnitCompiler

/-- Takes steps until none is enabled, at most `fuel` of them. -/
def runSteps {σ : Type} (next? : σ → Option σ) : Nat → σ → σ
  | 0, state => state
  | fuel + 1, state =>
    match next? state with
    | some state => runSteps next? fuel state
    | none => state

end UnitCompiler
