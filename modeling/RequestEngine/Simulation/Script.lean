/-
  RequestEngine.Simulation.Script

  Scripted nodes. The pool's loans of connections to a node and the node's
  answers come from lists, each loan and each send taking the next entry; the
  last entry is repeated for ever. An entry may take its time and may change the
  cluster before it is answered. Scripts name nodes by the written form of their
  addresses; another spelling of the same address names no node.
-/
import RequestEngine.Cluster.Directory
import RequestEngine.Failure.Attempt

namespace RequestEngine

namespace Simulation

/-- Changes of the cluster: nodes marked down, nodes marked up, and a new topology, in this
    order. -/
structure Effects where
  down : List String := []
  up : List String := []
  peers : Option (List Peer) := none
  deriving DecidableEq, Repr, Inhabited

namespace Effects

/-- Applies the changes; also gives the duplicated nodes that a new topology skipped. -/
def apply (e : Effects) (d : Directory) : Directory × List Node :=
  let d := Directory.markAt Directory.markDown e.down d
  let d := Directory.markAt Directory.markUp e.up d
  match e.peers with
  | some peers => d.update peers
  | none => (d, [])

end Effects

/-- How the pool answers: with a connection, never, or with an error. -/
inductive LoanReply where
  | granted
  | never
  | refused (e : PoolError)
  deriving DecidableEq, Repr

/-- How a node answers: with a response, never, or by breaking the connection. -/
inductive SendReply where
  | response (r : Response)
  | never
  | broken (cause : BrokenConnection)

/-- One entry of a list of answers. -/
structure ScriptEntry (α : Type) where
  reply : α
  delay : Duration := ⟨0⟩
  effects : Effects := {}

/-- The entry that is next, and the list that is left. -/
def takeEntry (entries : List (ScriptEntry α)) : Option (ScriptEntry α) × List (ScriptEntry α) :=
  match entries with
  | [] => (none, [])
  | [e] => (some e, [e])
  | e :: rest => (some e, rest)

/-- The script of a node: how loans and sends are answered, and the address that its connections
    report, if it is not the node's own. -/
structure NodeScript where
  loans : List (ScriptEntry LoanReply) := []
  sends : List (ScriptEntry SendReply) := []
  connect : Option Address := none
  deriving Inhabited

namespace NodeScript

/-- Takes the next answer to a loan: a connection at once if the script has no list. -/
def takeLoan (s : NodeScript) : ScriptEntry LoanReply × NodeScript :=
  let (entry, loans) := takeEntry s.loans
  (entry.getD { reply := .granted }, { s with loans })

/-- Takes the next answer to a send: at once a result with the node's address if the script has
    no list. -/
def takeSend (s : NodeScript) (n : Node) : ScriptEntry SendReply × NodeScript :=
  let (entry, sends) := takeEntry s.sends
  (entry.getD { reply := .response (.ok (.result n.address.text)) }, { s with sends })

end NodeScript

end Simulation

end RequestEngine
