/-
  RequestEngine.Scenario.Clusters

  Scenarios about the host directory: updates, snapshots and liveness. A step
  that names no snapshot looks at the current one.
-/
import RequestEngine.Scenario.Steps
import RequestEngine.Cluster.Directory

namespace RequestEngine

namespace Scenario

/-- A step with named snapshots. -/
inductive ClusterStep where
  | update (peers : List Peer)
  | keep (name : String)
  | detach (name : String) (peers : List Peer)
  | nodes (source : Option String)
  | candidates (source : Option String)
  | get (source : Option String) (host : HostId)
  | markDown (source : Option String) (host : HostId)
  | markUp (source : Option String) (host : HostId)
  | same (a b : Option String) (host : HostId)
  | distinct (a b : Option String)
  deriving DecidableEq, Repr

/-- A node together with its liveness. -/
structure NodeView where
  node : Node
  up : Bool
  deriving DecidableEq, Repr

/-- The answer to a step. -/
inductive ClusterAnswer where
  | done
  | count (n : Nat)
  | nodes (ns : List NodeView)
  | candidates (ns : List Node)
  | node (n : Option NodeView)
  | liveness (up : Option Bool)
  | sameness (recordAndHost : Option (Bool × Bool))
  deriving DecidableEq, Repr

/-- The directory and the snapshots that were named so far. -/
structure ClusterTable where
  directory : Directory
  snapshots : Named Snapshot := []
  deriving DecidableEq, Repr

namespace ClusterTable

/-- A node with its liveness. -/
def view (t : ClusterTable) (n : Node) : NodeView :=
  ⟨n, t.directory.liveness.isUp n⟩

/-- The snapshot of a given name, or the current one. -/
def snapshot (t : ClusterTable) : Option String → Option Snapshot
  | some name => t.snapshots.lookup name
  | none => some t.directory.current

/-- Marks a node of a snapshot, if there is one of the given host. -/
def markIn (t : ClusterTable) (mark : Directory → Node → Directory) (s : Snapshot)
    (host : HostId) : ClusterTable × ClusterAnswer :=
  match s.node? host with
  | none => (t, .liveness none)
  | some n =>
    let t := { t with directory := mark t.directory n }
    (t, .liveness (some (t.directory.liveness.isUp n)))

/-- Takes a step. -/
def step (t : ClusterTable) : ClusterStep → Option (ClusterTable × ClusterAnswer)
  | .update peers =>
    let directory := (t.directory.update peers).1
    some ({ t with directory }, .count directory.current.nodes.length)
  | .keep name =>
    some ({ t with snapshots := (name, t.directory.current) :: t.snapshots }, .done)
  | .detach name peers =>
    let (directory, s, _) := t.directory.detached peers
    some ({ t with directory, snapshots := (name, s) :: t.snapshots }, .count s.nodes.length)
  | .nodes source => do
    let s ← t.snapshot source
    return (t, .nodes (s.nodes.map t.view))
  | .candidates source => do
    let s ← t.snapshot source
    return (t, .candidates (s.candidates t.directory.liveness))
  | .get source host => do
    let s ← t.snapshot source
    return (t, .node ((s.node? host).map t.view))
  | .markDown source host => do
    return t.markIn Directory.markDown (← t.snapshot source) host
  | .markUp source host => do
    return t.markIn Directory.markUp (← t.snapshot source) host
  | .same a b host => do
    let (a, b) := ((← t.snapshot a).node? host, (← t.snapshot b).node? host)
    let answer := do
      let m ← a
      let n ← b
      return (m.serial == n.serial, m.sameHost n)
    return (t, .sameness answer)
  | .distinct a b => do
    return (t, .count ((← t.snapshot a).distinctHosts (← t.snapshot b)))

/-- The answers to several steps on a cluster of the given peers. -/
def run (peers : List Peer) (steps : List ClusterStep) : Option (List ClusterAnswer) :=
  (runSteps step { directory := (Directory.ofPeers peers).1 } steps).map (·.2)

end ClusterTable

end Scenario

end RequestEngine
