/-
  RequestEngine.Request.Report

  What logs and journals show of the actions of a request. A journal shows the
  consultations of a policy only if that policy is watched.
-/
import RequestEngine.Observation.Scene
import RequestEngine.Request.Machine

namespace RequestEngine

open Text

namespace Remark

/-- The log line of a remark: its message and fields. -/
def line : Remark → String × Fields
  | attemptStarted node number level =>
    ("Attempt started",
      [("node", node.text), ("attempt", toString number), ("consistency", level.name)])
  | attemptSucceeded latency => ("Attempt succeeded", [("latency", latency.text)])
  | attemptFailed error decision =>
    ("Attempt failed",
      [("error", error.message), ("error_type", error.errorType.name),
        ("decision", decision.text)])
  | attemptCancelled node execution number =>
    (Diagnostics.cancelledMessage,
      [("node", node.text), ("execution", toString execution), ("attempt", toString number)])
  | succeededTooLate => ("Attempt succeeded, but the request was already resolved", [])
  | failedTooLate => ("Attempt failed, but the request was already resolved", [])
  | notStarted => ("Request already resolved, not starting another attempt", [])
  | leavesNode node retries =>
    ("Not retrying on the same node anymore, moving to the next one",
      [("node", node.text), ("same_target_retries", toString retries)])
  | planExhausted => ("Load balancing plan exhausted", [])
  | noNodeForSpeculation => ("No node left for a speculative execution", [])
  | timedOut limit => ("Request timed out", [("timeout", limit.text)])
  | droppedUnresolved => ("Request dropped before resolving", [])

end Remark

namespace PlanNote

/-- The log line of a note, if it has one. -/
def line? : PlanNote → Option (Severity × String × Fields)
  | pickAsked _ | fallbackAsked => none
  | pickWarned warning => some (.warn, warning, [])
  | skippedDown n => some (.trace, "Skipping node which is down", [("node", n.text)])
  | nothingToTry routing =>
    some (.error,
      "Load balancing policy returned an empty plan! The query cannot be executed. " ++
        "Routing info: " ++ routing.text, [])

/-- The journal entry of a note, if it has one. -/
def entry? : PlanNote → Option (String × List Cell)
  | pickAsked r =>
    some ("lb_pick",
      [.text r.level.name, Cell.ofText? (r.serial.map SerialLevel.name),
        Cell.ofText? r.keyspace, .flag r.idempotent])
  | fallbackAsked => some ("lb_fallback", [])
  | _ => none

end PlanNote

namespace Action

/-- The log line of an action, if it has one. -/
def line? : Action → Option (Severity × String × Fields)
  | .consult note => note.line?
  | .askDelay _ (some warning) _ => some (.warn, warning, [])
  | .decide _ (some text) _ => some (.debug, text, [])
  | .remark r => some (.trace, r.line.1, r.line.2)
  | _ => none

/-- The journal entry of an action under the settings of its request, if it has one. -/
def entry? (s : Settings) : Action → Option (String × List Cell)
  | .consult note => if s.balancing.watched then note.entry? else none
  | .askDelay started _ delay =>
    match s.speculation with
    | some policy =>
      if policy.watched then some ("next_delay", [.number started, Cell.ofDuration? delay])
      else none
    | none => none
  | .acquired node _ => some ("acquire", [.text node.address.text])
  | .acquireFailed node _ => some ("acquire_failed", [.text node.address.text])
  | .send node _ level serial =>
    some ("send",
      [.text node.address.text, .text level.name, Cell.ofText? (serial.map SerialLevel.name),
        .text s.contents])
  | .release node _ => some (Journal.releaseEvent, [.text node.address.text])
  | .reportSuccess _ node latency =>
    if s.balancing.watched then
      some ("lb_success", [.text node.address.text, .number latency.millis])
    else none
  | .reportFailure _ node latency error =>
    if s.balancing.watched then
      some ("lb_failure",
        [.text node.address.text, .number latency.millis, .text error.errorType.name])
    else none
  | .decide a _ decision =>
    if s.retry.watched then
      some ("decide",
        [.text a.error.errorType.name, .text a.level.name, .flag a.idempotent,
          .number a.number, .text decision.text])
    else none
  | _ => none

/-- Writes an action to logs and journal. -/
def report (s : Settings) (a : Action) (scene : Scene) : Scene :=
  let scene := match a.line? with
    | some (severity, message, fields) => scene.log severity message fields
    | none => scene
  match a.entry? s with
  | some (event, cells) => scene.note event cells
  | none => scene

end Action

/-- Asks a retry policy about an attempt and logs its remark. -/
def RetryPolicy.consult (p : RetryPolicy) (a : FailedAttempt) (d : Diagnostics) :
    Decision × Diagnostics :=
  (p.decide a, (p.remark a).elim d (d.log .debug ·))

end RequestEngine
