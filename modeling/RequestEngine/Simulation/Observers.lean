/-
  RequestEngine.Simulation.Observers

  Observers as a configuration names them. Building one gives it its place in
  the scene: metrics get a place of their own each, while all histories are one.
-/
import RequestEngine.Observation.Collectors
import RequestEngine.Observation.Recorder
import RequestEngine.Observation.Tracer

namespace RequestEngine

namespace Simulation

/-- The observer that a configuration asks for. -/
inductive ObserverChoice where
  | recorder (name : Option String) (faults : List (Callback × Fault))
  | silent
  | history
  | tracer (includeStatement : Bool)
  | metrics
  | composite (members : List ObserverChoice)

/-- The scene before any observer is built: one empty history, and logs of a given verbosity. -/
def emptyScene (verbosity : Option Severity) : Scene :=
  { histories := [{}], diagnostics := { verbosity } }

/-- The place of the history that all observers share. -/
def historyPlace : Nat := 0

/-- Gives new metrics a place in the scene. -/
def addMetrics (s : Scene) : Scene × Nat :=
  ({ s with metrics := s.metrics ++ [{}] }, s.metrics.length)

namespace ObserverChoice

mutual

/-- Builds an observer. A composite is noted in the journal once its members are built. -/
def build : ObserverChoice → Scene → Scene × ObserverTree
  | recorder name faults, s => (s, .single (.recorder name faults))
  | silent, s => (s, .single .silent)
  | history, s => (s, .single (.history historyPlace))
  | tracer includeStatement, s => (s, .single (.tracer includeStatement))
  | metrics, s =>
    let (s, place) := addMetrics s
    (s, .single (.metrics place))
  | composite members, s =>
    let (s, trees) := buildAll members s
    (s.note "composite" [.number trees.length, .flag trees.isEmpty], .composite trees)

/-- Builds several observers in order. -/
def buildAll : List ObserverChoice → Scene → Scene × List ObserverTree
  | [], s => (s, [])
  | c :: rest, s =>
    let (s, tree) := build c s
    let (s, trees) := buildAll rest s
    (s, tree :: trees)

end

end ObserverChoice

end Simulation

end RequestEngine
