/-
  RequestEngine.Observation.Recorder

  The observer that writes every notification to the journal. Callbacks can be
  told to take their time and to end badly.
-/
import RequestEngine.Observation.Observer

namespace RequestEngine

/-- How a callback of a recorder ends. -/
inductive Ending where
  | well | badly | panicking
  deriving DecidableEq, Repr

/-- What is special about a callback of a recorder. -/
structure Fault where
  delay : Duration := ⟨0⟩
  ending : Ending := .well
  deriving DecidableEq, Repr

namespace Recorder

/-- The host of an attempt in a journal. -/
def hostCells (h : HostInfo) : List Cell :=
  [.text h.node.address.text, .number h.execution, .number h.attempt]

/-- What the journal shows of a notification. -/
def cells : Notification → List Cell
  | .requestStarted | .requestCancelled => []
  | .speculated host delay => hostCells host ++ [.number delay.millis]
  | .nodeStarted host | .nodeSucceeded host => hostCells host
  | .nodeFailed host errorType decision error =>
    hostCells host ++ [.text errorType.name, .text decision.text, .text error.message]
  | .requestSucceeded answer => [.text answer.coordinator.address.text]
  | .requestFailed error => [.text error.kindName]

/-- The statement that a labelled journal shows after a notification. -/
def label (t : Tracking) (s : Scene) : List Cell :=
  if s.labelled then [Cell.ofText? (t.statement.map TrackedStatement.contents)] else []

/-- How the callback ends under a fault. -/
def verdict (c : Callback) : Ending → Verdict
  | .well => .done
  | .badly => .failed (c.event ++ " failed")
  | .panicking => .panicked (c.event ++ " panicked")

end Recorder

namespace Observer

/-- The observer that writes to the journal, under its name if it has one. -/
def recorder (name : Option String) (faults : List (Callback × Fault)) : Observer where
  react n t s :=
    let event := n.callback.event
    let event := match name with
      | some name => name ++ ":" ++ event
      | none => event
    let fault := (faults.lookup n.callback).getD {}
    (t, s.note event (Recorder.cells n ++ Recorder.label t s),
      Recorder.verdict n.callback fault.ending)
  pause n := ((faults.lookup n.callback).getD {}).delay

end Observer

end RequestEngine
