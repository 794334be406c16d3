/-
  RequestEngine.Balancing.Plan

  Load balancing plans: the order in which the nodes of one request are tried,
  computed lazily. The first node comes from the policy's pick, the others from
  its fallback, which is asked for only when a second node is wanted or the pick
  gave none that is up. A node is checked for liveness when it is yielded, and
  no host is yielded twice.
-/
import RequestEngine.Balancing.Policy

namespace RequestEngine

/-- How far a plan has come. -/
inductive PlanStage where
  | created
  | picked
  | fallingBack (rest : List Node) (onlyUp : Bool)
  | empty
  deriving DecidableEq, Repr

/-- A plan that is being consumed, with the hosts it has yielded. -/
structure Plan where
  policy : BalancingPolicy
  routing : Routing
  snapshot : Snapshot
  stage : PlanStage := .created
  yielded : List HostId := []

/-- What happens while a plan is asked for a node. -/
inductive PlanNote where
  | pickAsked (routing : Routing)
  | pickWarned (warning : String)
  | fallbackAsked
  | skippedDown (n : Node)
  | nothingToTry (routing : Routing)
  deriving DecidableEq, Repr

namespace Plan

/-- A plan of which nothing was asked yet. -/
def new (policy : BalancingPolicy) (routing : Routing) (snapshot : Snapshot) : Plan :=
  { policy, routing, snapshot }

/-- Whether a node can be yielded now, and the note about one that is down. -/
def accepts (p : Plan) (live : Liveness) (n : Node) : Bool × List PlanNote :=
  if n.host ∈ p.yielded then (false, [])
  else if live.isUp n then (true, [])
  else (false, [.skippedDown n])

/-- The first node of an offer that can be yielded, with the rest of the offer. -/
def firstAccepted (p : Plan) (live : Liveness) (onlyUp : Bool) :
    List Node → Option Node × List Node × List PlanNote
  | [] => (none, [], [])
  | n :: rest =>
    if onlyUp && !live.isUp n then firstAccepted p live onlyUp rest
    else
      match p.accepts live n with
      | (true, notes) => (some n, rest, notes)
      | (false, notes) =>
        let (found, rest, more) := firstAccepted p live onlyUp rest
        (found, rest, notes ++ more)

/-- Takes the next node of an offer. -/
def takeFrom (p : Plan) (live : Liveness) (nodes : List Node) (onlyUp : Bool) :
    Option Node × Plan × List PlanNote :=
  let (found, rest, notes) := p.firstAccepted live onlyUp nodes
  let yielded := match found with
    | some n => n.host :: p.yielded
    | none => p.yielded
  (found, { p with stage := .fallingBack rest onlyUp, yielded }, notes)

/-- Asks the policy for its fallback and takes the first node of it. -/
def startFallback (p : Plan) (live : Liveness) : Option Node × Plan × List PlanNote :=
  let offer := p.policy.fallback p.routing p.snapshot live
  let (found, p, notes) := p.takeFrom live offer.nodes offer.onlyUp
  (found, p, .fallbackAsked :: notes)

/-- Falls back because the pick gave no node that is up. A plan without any node is over for
    good. -/
def startWithFallback (p : Plan) (live : Liveness) : Option Node × Plan × List PlanNote :=
  match p.startFallback live with
  | (some n, p, notes) => (some n, p, notes)
  | (none, p, notes) => (none, { p with stage := .empty }, notes ++ [.nothingToTry p.routing])

/-- The next node of a plan under the liveness of the moment, the plan that is left, and what
    happened on the way. -/
def next (p : Plan) (live : Liveness) : Option Node × Plan × List PlanNote :=
  match p.stage with
  | .created =>
    let asked := .pickAsked p.routing ::
      ((p.policy.pickWarning p.routing p.snapshot live).map PlanNote.pickWarned).toList
    match p.policy.pick p.routing p.snapshot live with
    | some n =>
      match p.accepts live n with
      | (true, _) => (some n, { p with stage := .picked, yielded := n.host :: p.yielded }, asked)
      | (false, notes) =>
        let (found, p, more) := p.startWithFallback live
        (found, p, asked ++ notes ++ more)
    | none =>
      let (found, p, more) := p.startWithFallback live
      (found, p, asked ++ more)
  | .picked => p.startFallback live
  | .fallingBack rest onlyUp => p.takeFrom live rest onlyUp
  | .empty => (none, p, [])

/-- All nodes that are left, in order, while the liveness stays as it is. At most one is yielded
    for each node of the offer, and one for the pick. -/
def drain (p : Plan) (live : Liveness) : List Node × Plan × List PlanNote :=
  let rec go (fuel : Nat) (p : Plan) : List Node × Plan × List PlanNote :=
    match fuel with
    | 0 => ([], p, [])
    | fuel + 1 =>
      match p.next live with
      | (none, p, notes) => ([], p, notes)
      | (some n, p, notes) =>
        let (rest, p, more) := go fuel p
        (n :: rest, p, notes ++ more)
  let offered := match p.stage with
    | .fallingBack rest _ => rest.length
    | _ => (p.policy.fallback p.routing p.snapshot live).nodes.length
  go (offered + 2) p

end Plan

end RequestEngine
