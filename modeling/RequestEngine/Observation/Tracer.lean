/-
  RequestEngine.Observation.Tracer

  The observer that shows requests and attempts as spans: a span for each
  request and, as a child of it, one for each attempt. Spans that are not kept
  are not created. An open span is kept with the tracking information, that of
  an attempt under its host.
-/
import RequestEngine.Observation.Observer

namespace RequestEngine

namespace Tracer

/-- The key of the request's span, and the base of the keys of the attempts' spans. -/
def spanKey : String :=
  "request_span"

/-- The open span under a key. -/
def span? (t : Tracking) (key : String) : Option Nat :=
  match t.get key .span with
  | some (.span i) => some i
  | _ => none

/-- Takes the open span under a key. -/
def takeSpan (t : Tracking) (key : String) : Tracking × Option Nat :=
  match t.take key .span with
  | (t, some (.span i)) => (t, some i)
  | (t, _) => (t, none)

/-- Marks a span as failed. -/
def recordError (d : Diagnostics) (span : Nat) (message : String) : Diagnostics :=
  ((d.recordField span "otel.status_code" "ERROR").recordField span "otel.status_message"
    message).logIn span .debug "Finished with error"

/-- Opens the span of a request; with `includeStatement` it shows the statement. -/
def start (includeStatement : Bool) (t : Tracking) (d : Diagnostics) : Tracking × Diagnostics :=
  let shown := match t.statement with
    | some s =>
      if includeStatement then
        [("db.namespace", s.keyspace.getD "<None>"), ("db.query.text", s.contents)]
      else []
    | none => []
  match d.openSpan "Request" d.entered shown with
  | (d, some span) => ((t.insert spanKey (.span span)).1, d)
  | (d, none) => (t, d)

/-- Opens the span of an attempt, if its request has one. -/
def startAttempt (host : HostInfo) (t : Tracking) (d : Diagnostics) : Tracking × Diagnostics :=
  match span? t spanKey with
  | none => (t, d)
  | some parent =>
    let fields :=
      [("server.address", host.node.address.text), ("host_id", host.node.host.text),
        ("execution", toString host.execution), ("attempt", toString host.attempt)]
    match d.openSpan "Attempt" (some parent) fields with
    | (d, some span) => ((t.insert (host.itemKey spanKey) (.span span)).1, d)
    | (d, none) => (t, d)

/-- Takes the span under a key and does something to it, if there is one. -/
def finish (key : String) (f : Nat → Diagnostics → Diagnostics) (t : Tracking)
    (d : Diagnostics) : Tracking × Diagnostics :=
  match takeSpan t key with
  | (t, some span) => (t, f span d)
  | (t, none) => (t, d)

/-- What a notification does to the spans of its request. -/
def trace (includeStatement : Bool) (t : Tracking) (d : Diagnostics) :
    Notification → Tracking × Diagnostics
  | .requestStarted => start includeStatement t d
  | .speculated host delay =>
    match span? t spanKey with
    | none => (t, d)
    | some span =>
      (t, d.logIn span .trace "Starting speculative execution"
        [("node", host.node.text), ("execution", toString host.execution),
          ("delay", delay.text)])
  | .nodeStarted host => startAttempt host t d
  | .nodeFailed host _ decision error =>
    finish (host.itemKey spanKey)
      (fun span d =>
        recordError (d.recordField span "retry_decision" decision.text) span error.message)
      t d
  | .nodeSucceeded host =>
    finish (host.itemKey spanKey) (fun span d => d.logIn span .trace "Attempt succeeded") t d
  | .requestSucceeded answer =>
    finish spanKey
      (fun span d =>
        d.logIn span .trace "Request succeeded" [("coordinator", answer.coordinator.text)])
      t d
  | .requestFailed error => finish spanKey (fun span d => recordError d span error.message) t d
  | .requestCancelled =>
    finish spanKey (fun span d => d.logIn span .trace "Request cancelled") t d

end Tracer

namespace Observer

/-- The observer that shows requests as spans. -/
def tracer (includeStatement : Bool) : Observer where
  react n t s :=
    let (t, diagnostics) := Tracer.trace includeStatement t s.diagnostics n
    (t, { s with diagnostics }, .done)

end Observer

end RequestEngine
