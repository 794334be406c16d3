/-
  RequestEngine.Scenario.Plans

  Scenarios about load balancing plans on a fixed set of nodes: either step by
  step, or as runs of local and of remote nodes, which do not depend on how a
  policy arranges nodes of one kind.
-/
import RequestEngine.Balancing.Plan
import RequestEngine.Request.Report
import RequestEngine.Scenario.Steps
import RequestEngine.Simulation.Configuration

namespace RequestEngine

namespace Scenario

open Simulation

/-- What plans are made of. Nodes are known by their positions in the snapshot, which holds the
    first peer of each host. -/
structure PlanSetup where
  peers : List Peer
  down : List Nat := []
  policy : BalancingChoice
  routing : Routing := {}
  verbosity : Option Severity := none
  deriving DecidableEq, Repr

/-- A step with a plan. -/
inductive PlanStep where
  | next
  | drain
  | restart
  | mark (down up : List Nat)
  deriving DecidableEq, Repr

/-- The answer to a step. -/
inductive PlanAnswer where
  | node (n : Option Node)
  | nodes (ns : List Node)
  | done
  deriving DecidableEq, Repr

/-- A plan on its nodes, and what was logged. -/
structure PlanBench where
  locality : LocalFirst
  policy : BalancingPolicy
  routing : Routing
  snapshot : Snapshot
  liveness : Liveness
  plan : Plan
  diagnostics : Diagnostics

namespace PlanBench

/-- Marks the nodes at some positions. -/
def mark (positions : List Nat) (change : Liveness → Node → Liveness) (b : PlanBench) :
    PlanBench :=
  { b with liveness := (positions.filterMap fun i => b.snapshot.nodes[i]?).foldl change b.liveness }

/-- Starts a new plan. -/
def restart (b : PlanBench) : PlanBench :=
  { b with plan := Plan.new b.policy b.routing b.snapshot }

/-- The bench of a setup. -/
def ofSetup (s : PlanSetup) : PlanBench :=
  let (d, records) := Directory.enrollAll {} {} s.peers
  let (snapshot, skipped) := Snapshot.ofNodes records
  let (d, policy) := s.policy.resolve { d with current := snapshot }
  let diagnostics := skipped.foldl
    (fun g n => g.log .debug (Directory.skippedRemark n)) { verbosity := s.verbosity }
  let plan := Plan.new policy s.routing snapshot
  mark s.down Liveness.markDown
    { locality := s.policy.locality, policy, routing := s.routing, snapshot,
      liveness := d.liveness, plan, diagnostics }

/-- Writes the notes of a plan to the log. -/
def logNotes (notes : List PlanNote) (b : PlanBench) : PlanBench :=
  { b with
    diagnostics := (notes.filterMap PlanNote.line?).foldl
      (fun g (severity, message, fields) => g.log severity message fields) b.diagnostics }

/-- Takes the next node of the plan. -/
def next (b : PlanBench) : PlanBench × Option Node :=
  let (n, plan, notes) := b.plan.next b.liveness
  (logNotes notes { b with plan }, n)

/-- Takes all nodes that are left. -/
def drain (b : PlanBench) : PlanBench × List Node :=
  let (ns, plan, notes) := b.plan.drain b.liveness
  (logNotes notes { b with plan }, ns)

/-! ## Step by step -/

/-- Takes a step. -/
def step (b : PlanBench) : PlanStep → PlanBench × PlanAnswer
  | .next =>
    let (b, n) := b.next
    (b, .node n)
  | .drain =>
    let (b, ns) := b.drain
    (b, .nodes ns)
  | .restart => (b.restart, .done)
  | .mark down up => (mark up Liveness.markUp (mark down Liveness.markDown b), .done)

/-- Takes several steps. -/
def steps : PlanBench → List PlanStep → PlanBench × List PlanAnswer
  | b, [] => (b, [])
  | b, s :: rest =>
    let (b, answer) := b.step s
    let (b, answers) := b.steps rest
    (b, answer :: answers)

/-! ## Runs of nodes -/

/-- Consecutive nodes that are all local or all remote. -/
structure PlanRun where
  isLocal : Bool
  nodes : List Node
  deriving DecidableEq, Repr

/-- A list of nodes as maximal runs. -/
def runs (isLocal : Node → Bool) : List Node → List PlanRun
  | [] => []
  | n :: rest =>
    match runs isLocal rest with
    | [] => [⟨isLocal n, [n]⟩]
    | run :: more =>
      if run.isLocal = isLocal n then ⟨run.isLocal, n :: run.nodes⟩ :: more
      else ⟨isLocal n, [n]⟩ :: run :: more

/-- The addresses of a run in ascending order of their texts. -/
def PlanRun.addresses (r : PlanRun) : List String :=
  (r.nodes.map fun n => n.address.text).mergeSort fun a b => a ≤ b

/-- Takes the first node, marks some nodes as unreachable, and takes the others. -/
def takeAll (b : PlanBench) (downAfterFirst : List Nat) : PlanBench × List Node :=
  match b.next with
  | (b, none) => (b, [])
  | (b, some first) =>
    let (b, rest) := (mark downAfterFirst Liveness.markDown b).drain
    (b, first :: rest)

/-- Makes several new plans and takes all nodes of each. -/
def repeated : Nat → PlanBench → PlanBench × List (List Node)
  | 0, b => (b, [])
  | k + 1, b =>
    let (b, ns) := b.restart.drain
    let (b, more) := repeated k b
    (b, ns :: more)

/-- Whether four new plans are all equal. -/
def isStable (b : PlanBench) : PlanBench × Bool :=
  let (b, plans) := repeated 4 b
  (b, plans.all fun p => some p = plans.head?)

/-- A whole plan as runs. Where nodes are not arranged at random it also tells whether further
    plans are equal. -/
structure PlanSurvey where
  runs : List PlanRun
  stable : Option Bool
  deriving DecidableEq, Repr

/-- Surveys a plan, some nodes of which become unreachable after the first was taken. -/
def survey (b : PlanBench) (downAfterFirst : List Nat) : PlanBench × PlanSurvey :=
  let (b, nodes) := b.takeAll downAfterFirst
  let found := runs b.locality.isLocal nodes
  if b.locality.shuffling then (b, ⟨found, none⟩)
  else
    let (b, stable) := b.isStable
    (b, ⟨found, some stable⟩)

end PlanBench

end Scenario

end RequestEngine
