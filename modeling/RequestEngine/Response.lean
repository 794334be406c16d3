/-
  RequestEngine.Response

  Responses of a node, already decoded: result and event bodies stay opaque,
  errors carry the database error and the reason that the node sent along.
-/
import RequestEngine.Failure.Database

namespace RequestEngine

/-- The kind of a response. -/
inductive ResponseKind where
  | error | ready | authenticate | supported | result | event | authChallenge | authSuccess
  deriving DecidableEq, Repr

namespace ResponseKind

/-- The name of the kind on the wire. -/
def wireName : ResponseKind → String
  | error => "ERROR"
  | ready => "READY"
  | authenticate => "AUTHENTICATE"
  | supported => "SUPPORTED"
  | result => "RESULT"
  | event => "EVENT"
  | authChallenge => "AUTH_CHALLENGE"
  | authSuccess => "AUTH_SUCCESS"

end ResponseKind

/-- A response that is no error. -/
inductive Reply where
  | ready
  | result (body : String)
  | supported
  | event (body : String)
  deriving DecidableEq, Repr

namespace Reply

/-- The kind of a reply. -/
def kind : Reply → ResponseKind
  | ready => .ready
  | result _ => .result
  | supported => .supported
  | event _ => .event

/-- The body of a reply, if its kind has one. -/
def body? : Reply → Option String
  | result body | event body => some body
  | ready | supported => none

end Reply

/-- An error sent by a node, with the reason it gave. -/
structure ErrorReply where
  error : DatabaseError
  reason : String
  deriving DecidableEq, Repr

/-- A response of a node: an error or a reply. -/
abbrev Response := Except ErrorReply Reply

namespace Response

/-- The kind of a response. -/
def kind : Response → ResponseKind
  | .error _ => .error
  | .ok reply => reply.kind

end Response

end RequestEngine
