/-
  RequestEngine.Cluster.Directory

  The host directory: the current snapshot of the topology, the liveness of
  every node record, and the serial number of the next one. A snapshot never
  changes; an update puts another one in its place, in which members that did
  not change keep their record, changed ones get a new record with the old
  liveness, and new ones are up.
-/
import RequestEngine.Cluster.Node

namespace RequestEngine

/-! ## Snapshots -/

/-- The nodes known to be part of the cluster at one moment, in discovery order. -/
structure Snapshot where
  nodes : List Node := []
  deriving DecidableEq, Repr, Inhabited

namespace Snapshot

/-- The node with a given host id. -/
def node? (s : Snapshot) (host : HostId) : Option Node :=
  s.nodes.find? fun n => n.host = host

/-- The first node with a given address. -/
def nodeAt? (s : Snapshot) (address : Address) : Option Node :=
  s.nodes.find? fun n => n.address = address

/-- The nodes that are up. -/
def candidates (s : Snapshot) (live : Liveness) : List Node :=
  s.nodes.filter live.isUp

/-- The number of different members in two snapshots together. -/
def distinctHosts (a b : Snapshot) : Nat :=
  ((a.nodes ++ b.nodes).map Node.host).eraseDups.length

/-- The nodes of a list whose host occurs before neither in `seen` nor in the list, and the
    others, which are skipped. -/
def firstOfEachHost (seen : List HostId) : List Node → List Node × List Node
  | [] => ([], [])
  | n :: rest =>
    if n.host ∈ seen then
      let (kept, skipped) := firstOfEachHost seen rest
      (kept, n :: skipped)
    else
      let (kept, skipped) := firstOfEachHost (n.host :: seen) rest
      (n :: kept, skipped)

/-- The snapshot of a list of nodes, of which the first of each host counts, and the nodes that
    do not count. -/
def ofNodes (nodes : List Node) : Snapshot × List Node :=
  let (kept, skipped) := firstOfEachHost [] nodes
  (⟨kept⟩, skipped)

end Snapshot

/-! ## The directory -/

/-- The current topology together with the liveness of all node records. -/
structure Directory where
  current : Snapshot := {}
  liveness : Liveness := {}
  nextSerial : Nat := 0
  deriving DecidableEq, Repr, Inhabited

namespace Directory

/-- The record of a peer beside a given snapshot: the old one if nothing changed, else a new one
    with the liveness of the old one, else a new one that is up. -/
def enroll (old : Snapshot) (d : Directory) (p : Peer) : Directory × Node :=
  match old.node? p.host with
  | some n =>
    if n.toPeer = p then (d, n)
    else
      let fresh := Node.ofPeer d.nextSerial p
      let liveness := if d.liveness.isUp n then d.liveness else d.liveness.markDown fresh
      ({ d with liveness, nextSerial := d.nextSerial + 1 }, fresh)
  | none => ({ d with nextSerial := d.nextSerial + 1 }, Node.ofPeer d.nextSerial p)

/-- The records of a list of peers beside a given snapshot. -/
def enrollAll (old : Snapshot) : Directory → List Peer → Directory × List Node
  | d, [] => (d, [])
  | d, p :: rest =>
    let (d, n) := enroll old d p
    let (d, ns) := enrollAll old d rest
    (d, n :: ns)

/-- Puts the snapshot of a list of peers in the place of the current one; also gives the
    duplicated nodes that were skipped. -/
def update (d : Directory) (peers : List Peer) : Directory × List Node :=
  let (d, nodes) := enrollAll d.current d peers
  let (current, skipped) := Snapshot.ofNodes nodes
  ({ d with current }, skipped)

/-- The directory of a list of peers, all of them up, and the duplicates that were skipped. -/
def ofPeers (peers : List Peer) : Directory × List Node :=
  update {} peers

/-- A snapshot of new nodes that is not the current one, and the duplicates that were skipped. -/
def detached (d : Directory) (peers : List Peer) : Directory × Snapshot × List Node :=
  let (d, nodes) := enrollAll {} d peers
  let (s, skipped) := Snapshot.ofNodes nodes
  (d, s, skipped)

/-- Marks a node as unreachable. -/
def markDown (d : Directory) (n : Node) : Directory :=
  { d with liveness := d.liveness.markDown n }

/-- Marks a node as reachable. -/
def markUp (d : Directory) (n : Node) : Directory :=
  { d with liveness := d.liveness.markUp n }

/-- Applies a marking to every current node whose address is written in one of the given ways. -/
def markAt (mark : Directory → Node → Directory) (addresses : List String) (d : Directory) :
    Directory :=
  addresses.foldl
    (fun d address =>
      (d.current.nodes.filter fun n => n.address.text = address).foldl mark d)
    d

/-- The remark about a node that was skipped because its host was known already. -/
def skippedRemark (n : Node) : String :=
  "Skipping duplicated node " ++ n.text

end Directory

end RequestEngine
