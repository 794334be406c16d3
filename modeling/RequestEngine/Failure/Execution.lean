/-
  RequestEngine.Failure.Execution

  Why a whole request failed: no host was left, its time ran out, or the error
  of its last attempt stands.
-/
import RequestEngine.Failure.Attempt
import RequestEngine.HostId

namespace RequestEngine

/-- The error of an attempt together with the host it was made on. -/
structure HostError where
  host : HostId
  address : Address
  error : AttemptError
  deriving DecidableEq, Repr

/-- Why a request failed. -/
inductive ExecutionError where
  | noHostAvailable (tried : List HostError)
  | requestTimeout (limit : Duration)
  | lastAttempt (error : AttemptError)
  deriving DecidableEq, Repr

namespace ExecutionError

/-- The name of the kind of error. -/
def kindName : ExecutionError → String
  | noHostAvailable _ => "NoHostAvailable"
  | requestTimeout _ => "RequestTimeout"
  | lastAttempt _ => "LastAttemptError"

/-- The class of the error that ended the request; running out of hosts has none of its own. -/
def errorType : ExecutionError → Option ErrorType
  | noHostAvailable _ => none
  | requestTimeout _ => some .clientTimeout
  | lastAttempt error => some error.errorType

/-- The text of the error. -/
def message : ExecutionError → String
  | noHostAvailable [] => "No host available: the load balancing plan was empty"
  | noHostAvailable tried =>
    "No host available, tried " ++ toString tried.length ++ " host(s): [" ++
      ", ".intercalate (tried.map fun e => e.address.text ++ ": " ++ e.error.message) ++ "]"
  | requestTimeout limit => "Request timeout: " ++ limit.text
  | lastAttempt error => error.message

end ExecutionError

end RequestEngine
