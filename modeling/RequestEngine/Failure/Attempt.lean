/-
  RequestEngine.Failure.Attempt

  Why a single attempt failed, and the classification of such errors that
  retry policies and observers reason about.
-/
import RequestEngine.Address
import RequestEngine.Duration
import RequestEngine.Response

namespace RequestEngine

/-! ## Connections -/

/-- An input or output error: one of the usual kinds, or a text given by whoever met it. -/
inductive IoFault where
  | connectionReset | brokenPipe | timedOut | unexpectedEnd
  | described (text : String)
  deriving DecidableEq, Repr

namespace IoFault

/-- The text of the error. -/
def message : IoFault → String
  | connectionReset => "connection reset"
  | brokenPipe => "broken pipe"
  | timedOut => "timed out"
  | unexpectedEnd => "unexpected end of file"
  | described text => text

end IoFault

/-- Why a connection broke. -/
inductive BrokenConnection where
  | io (fault : IoFault)
  | closedByServer
  | keepaliveTimeout (peer : Address)
  deriving DecidableEq, Repr

namespace BrokenConnection

/-- The name of the kind of reason. -/
def kindName : BrokenConnection → String
  | io _ => "IoError"
  | closedByServer => "ClosedByServer"
  | keepaliveTimeout _ => "KeepaliveTimeout"

/-- The reason alone. -/
def reason : BrokenConnection → String
  | io fault => "Input/output error on the connection: " ++ fault.message
  | closedByServer => "Connection closed by the server"
  | keepaliveTimeout peer =>
    "Timed out while waiting for response to keepalive request on connection to " ++ peer.text

/-- The text of the error. -/
def message (e : BrokenConnection) : String :=
  "Connection broken, reason: " ++ e.reason

end BrokenConnection

/-- Why a pool had no connection to a node. -/
inductive PoolError where
  | broken (last : BrokenConnection)
  | initializing
  | nodeDisabled
  deriving DecidableEq, Repr

namespace PoolError

/-- The text of the error. -/
def message : PoolError → String
  | broken last => "The pool is broken; Last connection failed with: " ++ last.message
  | initializing => "Pool is still being initialized"
  | nodeDisabled => "The node has been disabled"

end PoolError

/-! ## Attempts -/

/-- Classification of the reasons why attempts fail. -/
inductive ErrorType where
  | unavailable | readTimeout | writeTimeout | overloaded | serverError | clientTimeout
  | connectionError | unprepared | other
  deriving DecidableEq, Repr

namespace ErrorType

/-- The name of the class. -/
def name : ErrorType → String
  | unavailable => "Unavailable"
  | readTimeout => "ReadTimeout"
  | writeTimeout => "WriteTimeout"
  | overloaded => "Overloaded"
  | serverError => "ServerError"
  | clientTimeout => "ClientTimeout"
  | connectionError => "ConnectionError"
  | unprepared => "Unprepared"
  | other => "Other"

/-- All classes. -/
def all : List ErrorType :=
  [unavailable, readTimeout, writeTimeout, overloaded, serverError, clientTimeout,
    connectionError, unprepared, other]

/-- The class of a given name. -/
def ofName? (s : String) : Option ErrorType :=
  all.find? fun t => t.name == s

end ErrorType

namespace DatabaseError

/-- The class of a database error. -/
def errorType : DatabaseError → ErrorType
  | unavailable .. => .unavailable
  | readTimeout .. => .readTimeout
  | writeTimeout .. => .writeTimeout
  | overloaded | isBootstrapping => .overloaded
  | serverError | truncateError => .serverError
  | unprepared _ => .unprepared
  | _ => .other

end DatabaseError

/-- Why one attempt on one node failed. -/
inductive AttemptError where
  | database (error : DatabaseError) (reason : String)
  | broken (cause : BrokenConnection)
  | pool (cause : PoolError)
  | timeout (limit : Duration)
  | unexpected (kind : ResponseKind)
  deriving DecidableEq, Repr

namespace AttemptError

/-- The class of the error. -/
def errorType : AttemptError → ErrorType
  | database error _ => error.errorType
  | broken _ | pool _ => .connectionError
  | timeout _ => .clientTimeout
  | unexpected _ => .other

/-- Whether the request can have reached the node: an attempt that got no connection never
    wrote anything. -/
def wasSent : AttemptError → Bool
  | pool _ => false
  | _ => true

/-- The text of the error. -/
def message : AttemptError → String
  | database error reason =>
    "Database returned an error: " ++ error.message ++ ", Error message: " ++ reason
  | broken cause => cause.message
  | pool cause => "No connections in the pool: " ++ cause.message
  | timeout limit => "Attempt timed out after " ++ limit.text
  | unexpected kind =>
    "Received unexpected response from the server: " ++ kind.wireName ++
      ". Expected RESULT or ERROR response."

end AttemptError

end RequestEngine
