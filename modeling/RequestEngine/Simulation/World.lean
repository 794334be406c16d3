/-
  RequestEngine.Simulation.World

  A session on scripted nodes: the cluster, the profiles, the scripts, the pool,
  the scene that observers write to, and the requests in flight. A request in
  flight has its own machine, and notes what each of its parties waits for.
-/
import RequestEngine.Observation.Observer
import RequestEngine.Request.Report
import RequestEngine.Simulation.Script

namespace RequestEngine

namespace Simulation

/-! ## State -/

/-- What a party of a request waits for. -/
inductive Wait where
  /-- Nothing: the event can happen now. -/
  | ready (event : Request.Event)
  /-- A suspended callback. -/
  | delivery (d : Delivery)
  /-- The answer of the pool. -/
  | loan (wake : Instant) (entry : ScriptEntry LoanReply)
  /-- The answer of a node. -/
  | exchange (wake : Instant) (entry : ScriptEntry SendReply)
  /-- Something that never comes. -/
  | never

/-- A party of a request: one of its executions, or the request as a whole. -/
abbrev Party := Option Nat

/-- A request in flight. -/
structure Flight where
  settings : Settings
  state : Request.State
  tracking : Tracking
  waits : List (Party × Wait) := []
  spans : List (Nat × Nat) := []
  startedAt : Instant
  cancelAt : Instant
  endedAt : Option Instant := none

/-- How many connections were lent, how many are out, and how many were out at most. -/
structure PoolCounts where
  granted : Nat := 0
  inUse : Nat := 0
  most : Nat := 0
  deriving DecidableEq, Repr, Inhabited

/-- Everything that there is. Scripts are filed under the written addresses of their nodes. -/
structure World where
  scene : Scene := {}
  directory : Directory := {}
  cells : ProfileCells := {}
  sessionProfile : ProfileHandle := ⟨0, none⟩
  sessionMetrics : Nat := 0
  observers : List Observer := []
  scripts : List (String × NodeScript) := []
  pool : PoolCounts := {}

namespace Flight

/-- Notes what a party waits for. -/
def waitFor (f : Flight) (p : Party) (w : Wait) : Flight :=
  { f with waits := f.waits.filter (·.1 ≠ p) ++ [(p, w)] }

/-- A party waits for nothing any more. -/
def settle (f : Flight) (p : Party) : Flight :=
  { f with waits := f.waits.filter (·.1 ≠ p) }

/-- The executions of a request that runs. -/
def executions (f : Flight) : List Execution :=
  match f.state with
  | .running r => r.executions
  | _ => []

/-- Forgets what executions that ended have waited for. -/
def prune (f : Flight) : Flight :=
  { f with waits := f.waits.filter fun (p, _) =>
      match p with
      | none => true
      | some x => f.executions.any fun e => e.index = x }

/-- Whether the request has ended. -/
def ended (f : Flight) : Bool :=
  match f.state with
  | .finished _ | .dropped => true
  | _ => false

/-- The outcome of a request that ended and was not dropped. -/
def outcome? (f : Flight) : Option Outcome :=
  match f.state with
  | .finished o => some o
  | _ => none

/-- The span of an execution. -/
def span (f : Flight) (p : Party) : Option Nat :=
  p.bind fun x => f.spans.lookup x

end Flight

namespace World

/-- The present time. -/
def now (w : World) : Instant :=
  w.scene.now

/-- The surroundings of a step. -/
def moment (w : World) : Moment :=
  { now := w.now
    liveness := w.directory.liveness
    metrics := (w.scene.metrics[w.sessionMetrics]?).getD {} }

/-- The script of a node. -/
def script (w : World) (n : Node) : NodeScript :=
  (w.scripts.lookup n.address.text).getD {}

/-- Replaces the script of the node with a given written address. -/
def setScript (w : World) (a : String) (s : NodeScript) : World :=
  { w with scripts := (a, s) :: w.scripts.filter (·.1 ≠ a) }

/-- Applies changes of the cluster while a given span is the innermost one. -/
def applyEffects (w : World) (span : Option Nat) (e : Effects) : World :=
  let (directory, skipped) := e.apply w.directory
  let scene := w.scene.within span fun s =>
    skipped.foldl (fun s n => s.log .debug (Directory.skippedRemark n)) s
  { w with directory, scene }

/-- Does something to the scene while the span of a party is the innermost one. -/
def onScene (w : World) (f : Flight) (p : Party) (g : Scene → Scene) : World :=
  { w with scene := w.scene.within (f.span p) g }

/-! ## Actions -/

/-- The event that observers of a party's notification have been told. -/
def toldEvent : Party → Request.Event
  | none => .told
  | some x => .execution x .told

/-- Stores the result of a walk along the observers: the party waits for the callback that is
    suspended, or is ready to go on. -/
def afterWalk (w : World) (f : Flight) (p : Party)
    (result : Tracking × Scene × Option Delivery) : World × Flight :=
  let (tracking, scene, suspended) := result
  let w := { w with scene }
  let f := { f with tracking }
  match suspended with
  | some d => (w, f.waitFor p (.delivery d))
  | none => (w, f.waitFor p (.ready (toldEvent p)))

/-- Runs a step of a delivery while the span of its party is the innermost one. -/
def walkWithin (span : Option Nat) (s : Scene)
    (walk : Scene → Tracking × Scene × Option Delivery) : Tracking × Scene × Option Delivery :=
  let outer := s.diagnostics.entered
  let (tracking, s, suspended) := walk { s with diagnostics.entered := span }
  (tracking, { s with diagnostics.entered := outer }, suspended)

/-- Delivers a notification of a party. -/
def deliver (w : World) (f : Flight) (p : Party) (n : Notification) : World × Flight :=
  if n.callback.suspends then
    w.afterWalk f p
      (walkWithin (f.span p) w.scene fun s => Delivery.walk n w.observers f.tracking s)
  else
    let (tracking, scene, _) := walkWithin (f.span p) w.scene fun s =>
      let (t, s) := Delivery.atOnce n w.observers f.tracking s
      (t, s, none)
    ({ w with scene }, { f with tracking })

/-- Takes an action of a request. -/
def perform (w : World) (f : Flight) (deed : Deed) : World × Flight :=
  let p := deed.execution
  let w := w.onScene f p (deed.action.report f.settings)
  match deed.action with
  | .openExecution index =>
    let (diagnostics, span) := w.scene.diagnostics.openSpan "Request execution"
      w.scene.diagnostics.entered [("execution", toString index)]
    let f := { f with spans := f.spans ++ (span.map fun i => (index, i)).toList }
    ({ w with scene := { w.scene with diagnostics } },
      f.waitFor (some index) (.ready (.execution index .begin)))
  | .askConnection node =>
    let (entry, script) := (w.script node).takeLoan
    (w.setScript node.address.text script, f.waitFor p (.loan (w.now.after entry.delay) entry))
  | .acquired _ _ =>
    let pool := { w.pool with granted := w.pool.granted + 1, inUse := w.pool.inUse + 1 }
    ({ w with pool }, f)
  | .send node _ _ _ =>
    let (entry, script) := (w.script node).takeSend node
    let pool := { w.pool with most := max w.pool.most w.pool.inUse }
    ({ w.setScript node.address.text script with pool },
      f.waitFor p (.exchange (w.now.after entry.delay) entry))
  | .release _ _ => ({ w with pool := { w.pool with inUse := w.pool.inUse - 1 } }, f)
  | .notify n => w.deliver f p n
  | _ => (w, f)

/-- Takes several actions in order. -/
def performAll (w : World) (f : Flight) (deeds : List Deed) : World × Flight :=
  deeds.foldl (fun (w, f) d => w.perform f d) (w, f)

/-- Lets an event happen to a request, if it can. -/
def apply (w : World) (f : Flight) (event : Request.Event) : World × Flight :=
  match Request.step f.settings w.moment f.state event with
  | none => (w, f)
  | some (state, deeds) =>
    let (w, f) := w.performAll { f with state } deeds
    let f := f.prune
    (w, if f.ended then { f with endedAt := some w.now } else f)

/-! ## Requests -/

/-- Starts the execution of a statement that its caller drops after a given time. -/
def launch (w : World) (s : Statement) (patience : Duration) : World × Flight :=
  let settings := Settings.resolve s w.sessionProfile w.cells w.directory.current
  let scene := w.scene.log .trace "Executing statement" [("statement", s.contents)]
  let (state, deeds) := Request.start
  { w with scene }.performAll
    { settings, state, tracking := { statement := some s.tracked }, startedAt := w.now,
      cancelAt := w.now.after patience }
    deeds

end World

end Simulation

end RequestEngine
