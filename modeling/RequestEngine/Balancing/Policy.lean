/-
  RequestEngine.Balancing.Policy

  Load balancing policies. A policy picks the node to try first and offers the
  nodes to fall back to. The default policy prefers a datacenter and arranges
  nodes at random, the single target policy insists on one node, and an ordered
  policy goes by positions in the snapshot.
-/
import RequestEngine.Cluster.Directory
import RequestEngine.Level
import RequestEngine.Text.Quoted

namespace RequestEngine

open Text

/-- What a policy is told about a request. -/
structure Routing where
  level : Level := default
  serial : Option SerialLevel := none
  keyspace : Option String := none
  idempotent : Bool := false
  deriving DecidableEq, Repr, Inhabited

namespace Routing

/-- How messages show routing information. -/
def text (r : Routing) : String :=
  record "RoutingInfo"
    [("consistency", r.level.name),
      ("serial_consistency", optional SerialLevel.name r.serial),
      ("keyspace", optional quoted r.keyspace),
      ("is_idempotent", flag r.idempotent)]

end Routing

/-- The nodes to fall back to, in order. Some policies leave out nodes that are down at the
    moment they are reached. -/
structure Offer where
  nodes : List Node
  onlyUp : Bool := false
  deriving DecidableEq, Repr

/-- A load balancing policy. A policy that is `watched` has its consultations and the outcomes
    it is told written to the journal. -/
structure BalancingPolicy where
  name : String
  /-- The node to try first. -/
  pick : Routing → Snapshot → Liveness → Option Node
  /-- The nodes to try after it. -/
  fallback : Routing → Snapshot → Liveness → Offer
  /-- What the policy warns about when it is asked to pick. -/
  pickWarning : Routing → Snapshot → Liveness → Option String := fun _ _ _ => none
  /-- How messages show the policy and its settings. -/
  description : Liveness → String := fun _ => name
  watched : Bool := false

/-! ## Random arrangements -/

/-- The outcomes of random choices: an element of every list that has one, and a permutation of
    every list. All of them follow from a seed, if one is fixed. -/
structure Arrangement where
  seed : UInt64 := 0
  choose : List Node → Option Node
  shuffle : List Node → List Node
  choose_mem : ∀ {ns n}, choose ns = some n → n ∈ ns
  choose_isSome : ∀ {ns}, ns ≠ [] → (choose ns).isSome
  shuffle_perm : ∀ ns, (shuffle ns).Perm ns

namespace Arrangement

/-- Leaves everything in its place and chooses the first. -/
def asGiven : Arrangement where
  choose := List.head?
  shuffle := id
  choose_mem h := List.mem_of_head? h
  choose_isSome {ns} h := by cases ns <;> simp_all
  shuffle_perm _ := List.Perm.refl _

end Arrangement

/-! ## The default policy -/

/-- Settings of the default policy. -/
structure LocalFirst where
  datacenter : Option String := none
  permitFailover : Bool := false
  shuffling : Bool := true
  deriving DecidableEq, Repr, Inhabited

namespace LocalFirst

/-- Whether a node is local: it is in the preferred datacenter, or none is preferred. -/
def isLocal (p : LocalFirst) (n : Node) : Bool :=
  match p.datacenter with
  | some dc => n.datacenter = some dc
  | none => true

/-- Whether a request may go to remote nodes. -/
def mayFailOver (p : LocalFirst) (r : Routing) : Bool :=
  p.datacenter.isSome && p.permitFailover && !r.level.isLocal

/-- A local node that is up. -/
def pick (p : LocalFirst) (a : Arrangement) (s : Snapshot) (live : Liveness) : Option Node :=
  a.choose ((s.nodes.filter p.isLocal).filter live.isUp)

/-- Local nodes, then remote ones if the request may go there. -/
def fallback (p : LocalFirst) (a : Arrangement) (r : Routing) (s : Snapshot) : List Node :=
  let near := a.shuffle (s.nodes.filter p.isLocal)
  if p.mayFailOver r then near ++ a.shuffle (s.nodes.filter fun n => !p.isLocal n) else near

/-- The seed that a policy without shuffling arranges all its nodes by. -/
def fixedSeed? (p : LocalFirst) (a : Arrangement) : Option UInt64 :=
  if p.shuffling then none else some a.seed

/-- How messages show the settings. -/
def text (p : LocalFirst) (a : Arrangement) : String :=
  record "DefaultPolicy"
    [("preferred_datacenter", optional quoted p.datacenter),
      ("permit_dc_failover", flag p.permitFailover),
      ("fixed_seed", optional toString (p.fixedSeed? a))]

end LocalFirst

namespace BalancingPolicy

/-- The default policy under given settings and random choices. -/
def localFirst (p : LocalFirst) (a : Arrangement) : BalancingPolicy where
  name := "DefaultPolicy"
  pick _ s live := p.pick a s live
  fallback r s _ := ⟨p.fallback a r s, true⟩
  description _ := p.text a

/-- The policy used where none is given. -/
def standard : BalancingPolicy :=
  localFirst {} Arrangement.asGiven

end BalancingPolicy

/-! ## A single target -/

/-- What names the target: the node itself, its host id or its address. -/
inductive Target where
  | node (n : Node)
  | host (id : HostId)
  | address (a : Address)
  deriving DecidableEq, Repr

namespace Target

/-- The target in a snapshot. A node stands for itself, whether the snapshot holds it or not. -/
def find (t : Target) (s : Snapshot) : Option Node :=
  match t with
  | node n => some n
  | host id => s.node? id
  | address a => s.nodeAt? a

/-- How messages show a target, a node with its liveness of the moment. -/
def text (t : Target) (live : Liveness) : String :=
  match t with
  | node n => "Node(" ++ live.describe n ++ ")"
  | host id => "HostId(" ++ id.text ++ ")"
  | address a => "NodeAddress(" ++ a.text ++ ")"

end Target

namespace BalancingPolicy

/-- The policy that sends every request to one target. -/
def single (t : Target) : BalancingPolicy where
  name := "SingleTargetLoadBalancingPolicy"
  pick _ s _ := t.find s
  fallback _ _ _ := ⟨[], false⟩
  pickWarning _ s live :=
    if (t.find s).isSome then none
    else
      some ("SingleTargetLoadBalancingPolicy failed to find requested node " ++ t.text live ++
        " in cluster metadata.")
  description live :=
    record "SingleTargetLoadBalancingPolicy" [("node_identifier", t.text live)]

/-! ## By position -/

/-- Which node an ordered policy picks. -/
inductive PickRule where
  | firstUp
  | nothing
  | position (i : Nat)
  deriving DecidableEq, Repr

/-- Picks by a rule and falls back to all nodes in order, or to those at the given positions. -/
def ordered (rule : PickRule) (positions : Option (List Nat)) : BalancingPolicy where
  name := "OrderPolicy"
  pick _ s live :=
    match rule with
    | .firstUp => s.nodes.find? live.isUp
    | .nothing => none
    | .position i => s.nodes[i]?
  fallback _ s _ :=
    match positions with
    | none => ⟨s.nodes, false⟩
    | some is => ⟨is.filterMap fun i => s.nodes[i]?, false⟩

end BalancingPolicy

end RequestEngine
