/-
  RequestEngine.Answer

  The successful outcome of a request: the reply, the node that coordinated it,
  and the address of the connection it came over.
-/
import RequestEngine.Cluster.Node
import RequestEngine.Response

namespace RequestEngine

/-- The reply of the attempt that won a request. -/
structure Answer where
  reply : Reply
  coordinator : Node
  connection : Address
  deriving DecidableEq, Repr

end RequestEngine
