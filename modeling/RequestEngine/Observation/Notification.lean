/-
  RequestEngine.Observation.Notification

  What observers are told about a request: its start, each speculative
  execution, the start and the end of each attempt, and one final notification.
  The announcement of a speculative execution and the report of a cancelled
  request are delivered at once; all others may be suspended by an observer.
-/
import RequestEngine.Answer
import RequestEngine.Failure.Execution
import RequestEngine.Observation.Tracking
import RequestEngine.Retry.Decision

namespace RequestEngine

/-- A notification. -/
inductive Notification where
  | requestStarted
  | speculated (host : HostInfo) (delay : Duration)
  | nodeStarted (host : HostInfo)
  | nodeFailed (host : HostInfo) (errorType : ErrorType) (decision : Decision)
      (error : AttemptError)
  | nodeSucceeded (host : HostInfo)
  | requestSucceeded (answer : Answer)
  | requestFailed (error : ExecutionError)
  | requestCancelled
  deriving DecidableEq, Repr

/-- The callbacks of an observer, one for each kind of notification. -/
inductive Callback where
  | requestStart | speculative | nodeStart | nodeError | nodeSuccess | requestSuccess
  | requestFailure | requestCancelled
  deriving DecidableEq, Repr

namespace Callback

/-- The name of a callback in journals. -/
def event : Callback → String
  | requestStart => "request_start"
  | speculative => "speculative"
  | nodeStart => "node_start"
  | nodeError => "node_error"
  | nodeSuccess => "node_success"
  | requestSuccess => "request_success"
  | requestFailure => "request_failure"
  | requestCancelled => "request_cancelled"

/-- The name of a callback in log lines. -/
def name : Callback → String
  | requestStart => "on_request_start"
  | speculative => "on_speculative_execution"
  | nodeStart => "on_node_start"
  | nodeError => "on_node_request_error"
  | nodeSuccess => "on_node_success"
  | requestSuccess => "on_request_success"
  | requestFailure => "on_request_failure"
  | requestCancelled => "on_request_cancelled"

/-- All callbacks. -/
def all : List Callback :=
  [requestStart, speculative, nodeStart, nodeError, nodeSuccess, requestSuccess, requestFailure,
    requestCancelled]

/-- The callback of a given name in journals. -/
def ofEvent? (s : String) : Option Callback :=
  all.find? fun c => c.event == s

/-- Whether a callback may be suspended. -/
def suspends : Callback → Bool
  | speculative | requestCancelled => false
  | _ => true

end Callback

namespace Notification

/-- The callback that receives a notification. -/
def callback : Notification → Callback
  | requestStarted => .requestStart
  | speculated .. => .speculative
  | nodeStarted _ => .nodeStart
  | nodeFailed .. => .nodeError
  | nodeSucceeded _ => .nodeSuccess
  | requestSucceeded _ => .requestSuccess
  | requestFailed _ => .requestFailure
  | requestCancelled => .requestCancelled

/-- Whether a notification is the last one of its request. -/
def isFinal : Notification → Bool
  | requestSucceeded _ | requestFailed _ | requestCancelled => true
  | _ => false

end Notification

end RequestEngine
