/-
  RequestEngine.Scenario.Steps

  Scenarios: lists of steps that are taken in order, each with an answer. A step
  that refers to a name nobody has bound stops its scenario.
-/

namespace RequestEngine

namespace Scenario

/-- Takes steps in order; gives the final state and the answer to each step. -/
def runSteps (step : σ → ι → Option (σ × α)) : σ → List ι → Option (σ × List α)
  | s, [] => some (s, [])
  | s, i :: rest => do
    let (s, answer) ← step s i
    let (s, answers) ← runSteps step s rest
    return (s, answer :: answers)

/-- Objects by name; a name that is bound again means the newer object. -/
abbrev Named (α : Type) := List (String × α)

end Scenario

end RequestEngine
