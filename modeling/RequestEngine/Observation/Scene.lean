/-
  RequestEngine.Observation.Scene

  Everything that observers write to, and how a callback ends. A callback that
  reports an error or panics is logged and otherwise ignored.
-/
import RequestEngine.Observation.Diagnostics
import RequestEngine.Observation.History
import RequestEngine.Observation.Journal
import RequestEngine.Observation.Metrics

namespace RequestEngine

/-- How a callback ended. -/
inductive Verdict where
  | done
  | failed (reason : String)
  | panicked (reason : String)
  deriving DecidableEq, Repr

namespace Verdict

/-- The text of the error that an observer reports. -/
def errorText (reason : String) : String :=
  "Request observer failed: " ++ reason

end Verdict

/-- What observers write to: histories and metrics by their places, logs and spans, and the
    journal. A `labelled` journal shows the statement with each notification. -/
structure Scene where
  now : Instant := Instant.start
  histories : List History := []
  metrics : List Metrics := []
  diagnostics : Diagnostics := {}
  journal : Journal := []
  labelled : Bool := false
  deriving Inhabited

namespace Scene

/-- Writes a journal entry. -/
def note (s : Scene) (event : String) (cells : List Cell) : Scene :=
  { s with journal := s.journal ++ [⟨s.now, event, cells⟩] }

/-- Writes a log line. -/
def log (s : Scene) (severity : Severity) (message : String) (fields : Fields := []) : Scene :=
  { s with diagnostics := s.diagnostics.log severity message fields }

/-- Lets time pass. -/
def wait (s : Scene) (d : Duration) : Scene :=
  { s with now := s.now.after d }

/-- Does something while a given span is the innermost one. -/
def within (s : Scene) (span : Option Nat) (f : Scene → Scene) : Scene :=
  let inner := f { s with diagnostics := { s.diagnostics with entered := span } }
  { inner with diagnostics := { inner.diagnostics with entered := s.diagnostics.entered } }

/-- Logs how a callback ended, unless it ended well. -/
def guard (s : Scene) (callback : Callback) : Verdict → Scene
  | .done => s
  | .failed reason =>
    s.log .warn "Request observer returned an error"
      [("callback", callback.name), ("error", Verdict.errorText reason)]
  | .panicked _ => s.log .error "Request observer panicked" [("callback", callback.name)]

end Scene

end RequestEngine
