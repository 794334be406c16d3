/-
  RequestEngine.Cluster.Node

  Members of a cluster. Every node record ever made carries a serial number of
  its own, so that two records are the same object exactly when their serials
  agree, while they stand for the same member whenever their host ids agree.
  Liveness is no part of a record: it is kept in a table by serial number, so
  that marking a node shows in every snapshot that holds it.
-/
import RequestEngine.Address
import RequestEngine.HostId
import RequestEngine.Text.Quoted

namespace RequestEngine

open Text

/-- A member of the cluster as topology discovery reports it. -/
structure Peer where
  host : HostId
  address : Address
  datacenter : Option String := none
  rack : Option String := none
  deriving DecidableEq, Repr

/-- A node record. -/
structure Node where
  serial : Nat
  host : HostId
  address : Address
  datacenter : Option String := none
  rack : Option String := none
  deriving DecidableEq, Repr, Inhabited

namespace Node

/-- The record of a peer under a serial number. -/
def ofPeer (serial : Nat) (p : Peer) : Node :=
  ⟨serial, p.host, p.address, p.datacenter, p.rack⟩

/-- What discovery would have to report for the record to stay as it is. -/
def toPeer (n : Node) : Peer :=
  ⟨n.host, n.address, n.datacenter, n.rack⟩

/-- Whether two records stand for the same member. -/
def sameHost (a b : Node) : Bool :=
  a.host = b.host

/-- How messages name a node. -/
def text (n : Node) : String :=
  n.address.text ++ " (" ++ n.host.text ++ ")"

end Node

/-! ## Liveness -/

/-- Which node records are believed to be unreachable, by serial number. -/
structure Liveness where
  down : List Nat := []
  deriving DecidableEq, Repr, Inhabited

namespace Liveness

/-- Whether a node is believed to be reachable. -/
def isUp (l : Liveness) (n : Node) : Bool :=
  !l.down.contains n.serial

/-- How messages show all that is known about a node. -/
def describe (l : Liveness) (n : Node) : String :=
  record "Node"
    [("host_id", n.host.text),
      ("address", n.address.text),
      ("datacenter", optional quoted n.datacenter),
      ("rack", optional quoted n.rack),
      ("up", flag (l.isUp n))]

/-- Marks a node as unreachable. -/
def markDown (l : Liveness) (n : Node) : Liveness :=
  if l.isUp n then ⟨n.serial :: l.down⟩ else l

/-- Marks a node as reachable. -/
def markUp (l : Liveness) (n : Node) : Liveness :=
  ⟨l.down.filter (· ≠ n.serial)⟩

theorem isUp_markDown (l : Liveness) (n m : Node) :
    (l.markDown n).isUp m = (l.isUp m && m.serial ≠ n.serial) := by
  unfold markDown
  by_cases h : l.isUp n
  · rw [if_pos h]
    simp only [isUp, List.contains_cons]
    by_cases hm : m.serial = n.serial <;> simp [hm]
  · rw [if_neg h]
    by_cases hm : m.serial = n.serial
    · simp only [isUp, hm] at h ⊢
      simpa using h
    · simp [hm]

theorem isUp_markUp (l : Liveness) (n m : Node) :
    (l.markUp n).isUp m = (l.isUp m || m.serial = n.serial) := by
  by_cases hm : m.serial = n.serial <;> simp [isUp, markUp, hm]

end Liveness

end RequestEngine
