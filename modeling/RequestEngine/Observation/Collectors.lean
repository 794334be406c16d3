/-
  RequestEngine.Observation.Collectors

  The observers that collect: histories and metrics, each at its place in the
  scene, and an observer that does nothing.
-/
import RequestEngine.Observation.Observer

namespace RequestEngine

namespace Observer

/-- The observer that ignores everything. -/
def silent : Observer where
  react _ t s := (t, s, .done)

/-- The observer that records into the history at a given place. -/
def history (place : Nat) : Observer where
  react n t s :=
    match s.histories[place]? with
    | none => (t, s, .done)
    | some h =>
      let (h, t, refusal) := h.record t s.now n
      let s := { s with histories := s.histories.set place h }
      match refusal with
      | none => (t, s, .done)
      | some r => (t, s, .failed r.message)

/-- The observer that counts into the metrics at a given place. -/
def metrics (place : Nat) : Observer where
  react n t s :=
    match s.metrics[place]? with
    | none => (t, s, .done)
    | some m =>
      let (m, t, refusal) := m.record t s.now n
      let s := { s with metrics := s.metrics.set place m }
      match refusal with
      | none => (t, s, .done)
      | some r => (t, s, .failed r.message)

end Observer

end RequestEngine
