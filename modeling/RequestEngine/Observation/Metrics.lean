/-
  RequestEngine.Observation.Metrics

  Counters of requests and attempts, and the latencies of successful attempts.
  The start of an attempt is kept under its host until the attempt ends.
-/
import RequestEngine.Observation.Histogram
import RequestEngine.Observation.Notification

namespace RequestEngine

/-- What was counted so far. -/
structure Metrics where
  requests : Nat := 0
  errors : Nat := 0
  requestTimeouts : Nat := 0
  cancelled : Nat := 0
  attemptErrors : Nat := 0
  retries : Nat := 0
  speculative : Nat := 0
  latencies : Histogram := {}
  deriving DecidableEq, Repr, Inhabited

namespace Metrics

/-- The base of the key of an attempt's start. -/
def startKey : String :=
  "metrics.attempt_start"

/-- Why a notification was only partly counted. -/
inductive Refusal where
  | notStarted
  | latency (error : LatencyError)
  deriving DecidableEq, Repr

namespace Refusal

/-- The text of a refusal. -/
def message : Refusal → String
  | notStarted => "Metrics: attempt finished but was not started"
  | latency error => error.message

end Refusal

/-- Stores the latency of a successful attempt in whole milliseconds. -/
def logLatency (m : Metrics) (latency : Duration) : Metrics × Option Refusal :=
  match m.latencies.add latency.millis with
  | .ok latencies => ({ m with latencies }, none)
  | .error e => (m, some (.latency e))

/-- The metrics of some latencies, of which those that cannot be stored are left out. -/
def ofLatencies (latencies : List Duration) : Metrics :=
  latencies.foldl (fun m d => (m.logLatency d).1) {}

/-- Counts a notification; also gives the tracking information that is left, and what was
    wrong, if anything. -/
def record (m : Metrics) (t : Tracking) (now : Instant) :
    Notification → Metrics × Tracking × Option Refusal
  | .requestStarted => ({ m with requests := m.requests + 1 }, t, none)
  | .speculated .. => ({ m with speculative := m.speculative + 1 }, t, none)
  | .nodeStarted host => (m, (t.insert (host.itemKey startKey) (.instant now)).1, none)
  | .nodeFailed host _ decision _ =>
    let retries := if decision.isRetry then m.retries + 1 else m.retries
    ({ m with attemptErrors := m.attemptErrors + 1, retries },
      (t.take (host.itemKey startKey) .instant).1, none)
  | .nodeSucceeded host =>
    match t.take (host.itemKey startKey) .instant with
    | (t, some (.instant started)) =>
      let (m, refusal) := m.logLatency (now.since started)
      (m, t, refusal)
    | (t, _) => (m, t, some .notStarted)
  | .requestSucceeded _ => (m, t, none)
  | .requestFailed error =>
    let timeouts := match error with
      | .requestTimeout _ => m.requestTimeouts + 1
      | _ => m.requestTimeouts
    ({ m with errors := m.errors + 1, requestTimeouts := timeouts }, t, none)
  | .requestCancelled => ({ m with cancelled := m.cancelled + 1 }, t, none)

/-- How messages show metrics: the counters, not the latencies. -/
def text (m : Metrics) : String :=
  let fields :=
    [("requests_num", m.requests), ("errors_num", m.errors),
      ("request_timeouts_num", m.requestTimeouts), ("cancelled_requests_num", m.cancelled),
      ("attempt_errors_num", m.attemptErrors), ("retries_num", m.retries),
      ("speculative_executions_num", m.speculative)]
  "Metrics \x7b " ++ String.join (fields.map fun f => f.1 ++ ": " ++ toString f.2 ++ ", ") ++
    ".. \x7d"

end Metrics

end RequestEngine
