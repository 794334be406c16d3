/-
  RequestEngine.Request.Machine

  The course of a request as a machine that takes one event at a time: its start
  is announced, executions run beside each other, a timer starts speculative
  ones, the deadline or the caller may end it, and its outcome is reported once.
  `step` gives the next state and the actions taken, in order, or nothing if the
  event cannot happen in the state.
-/
import RequestEngine.Request.Execution

namespace RequestEngine

namespace Request

/-! ## State -/

/-- The timer of the next speculative execution: when it fires, and the delay it was set to. -/
structure Timer where
  due : Instant
  delay : Duration
  deriving DecidableEq, Repr

/-- A request with executions in flight. -/
structure Running where
  shared : Shared
  executions : List Execution := []
  started : Nat := 0
  timer : Option Timer := none
  deadline : Option Instant := none
  deadlinePassed : Bool := false
  lastIgnored : Option AttemptError := none

/-- How far a request has come. -/
inductive State where
  /-- Its start is being announced. -/
  | starting
  /-- Its executions run. -/
  | running (r : Running)
  /-- Its outcome is being reported. -/
  | concluding (o : Outcome)
  /-- It ended with an outcome. -/
  | finished (o : Outcome)
  /-- Its caller dropped it. -/
  | dropped

/-- What can happen to a request. -/
inductive Event where
  /-- The observers have been told of its start, or of its outcome. -/
  | told
  /-- Something happened to one of its executions. -/
  | execution (index : Nat) (event : ExecutionEvent)
  /-- The timer of the next speculative execution fired. -/
  | speculate
  /-- Its time is up. -/
  | timeUp
  /-- Its caller lost interest. -/
  | drop

/-- A state, and the actions taken on the way to it. -/
abbrev Result := State × List Deed

/-! ## Ends -/

/-- What is dropped together with the executions in flight. -/
def abandonAll (executions : List Execution) : List Deed :=
  executions.flatMap fun e => Deed.ofExecution e.index e.abandon

/-- The notification about an outcome. -/
def finalNotice : Outcome → Notification
  | .ok answer => .requestSucceeded answer
  | .error e => .requestFailed e

/-- Ends a request: executions in flight are dropped before the outcome is reported. -/
def conclude (executions : List Execution) (o : Outcome) : Result :=
  (.concluding o, abandonAll executions ++ Deed.ofRequest [.notify (finalNotice o)])

/-- The outcome of a request that has no execution left. -/
def exhaustion (r : Running) : Outcome :=
  match r.lastIgnored with
  | some e => .error (.lastAttempt e)
  | none => .error (.noHostAvailable r.shared.hostErrors)

/-- Ends a request that has no execution left. -/
def exhaust (r : Running) : Result :=
  let (shared, _, claim) := r.shared.tryClaim .exhaustion
  let (state, deeds) := conclude [] (exhaustion { r with shared })
  (state, Deed.ofRequest claim ++ deeds)

/-- Goes on running, or ends if neither an execution nor the timer is left. -/
def goOn (r : Running) : Result :=
  if r.executions.isEmpty && r.timer.isNone then exhaust r else (.running r, [])

/-! ## Starting executions -/

/-- Asks the speculative execution policy how long to wait after the latest start, and sets the
    timer. -/
def armTimer (s : Settings) (now : Instant) (metrics : Metrics) (r : Running) :
    Running × List Action :=
  match s.speculationPolicy with
  | none => (r, [])
  | some policy =>
    let context : SpeculationContext := ⟨r.started, metrics⟩
    let delay := policy.nextDelay context
    ({ r with timer := delay.map fun d => ⟨now.after d, d⟩ },
      [.askDelay r.started (policy.warning context) delay])

/-- Starts an execution on a node. -/
def launch (s : Settings) (r : Running) (node : Node) : Running × List Action :=
  ({ r with
      executions := r.executions ++ [Execution.new r.started node s.routing.level]
      started := r.started + 1 },
    [.openExecution r.started])

/-- Begins to run: the deadline is set, and the first execution starts on the first node of the
    plan. -/
def begin (s : Settings) (m : Moment) : Result :=
  let shared : Shared := { plan := Plan.new s.balancing s.routing s.snapshot }
  let deadline := s.requestTimeout.map m.now.after
  match shared.nextNode m.liveness with
  | (none, shared, consulted) =>
    let (state, deeds) := exhaust { shared, deadline }
    (state, Deed.ofRequest consulted ++ deeds)
  | (some node, shared, consulted) =>
    let (r, opened) := launch s { shared, deadline } node
    let (r, asked) := armTimer s m.now m.metrics r
    (.running r, Deed.ofRequest (consulted ++ opened ++ asked))

/-! ## Steps of a running request -/

/-- The event of an execution, and what follows from its progress. -/
def stepExecution (s : Settings) (m : Moment) (r : Running) (index : Nat)
    (event : ExecutionEvent) : Option Result := do
  let e ← r.executions.find? fun e => e.index = index
  let advance ← e.step s r.deadline m r.shared event
  let others := r.executions.filter fun o => o.index ≠ index
  let r := { r with shared := advance.shared }
  let deeds := Deed.ofExecution index advance.actions
  let (state, more) :=
    match advance.progress with
    | .goesOn e =>
      (State.running
        { r with executions := r.executions.map fun o => if o.index = index then e else o }, [])
    | .resolved o => conclude others o
    | .cancelled => goOn { r with executions := others }
    | .exhausted lastIgnored =>
      goOn { r with executions := others, timer := none, lastIgnored }
  return (state, deeds ++ more)

/-- The timer fired: another execution starts on the next node of the plan, is announced, and
    the policy is asked about the one after it. No node is taken once the request is claimed. -/
def speculate (s : Settings) (m : Moment) (r : Running) : Option Result := do
  let timer ← r.timer
  if m.now < timer.due then none
  let r := { r with timer := none }
  let (found, shared, consulted) :=
    if r.shared.claimed then (none, r.shared, []) else r.shared.nextNode m.liveness
  let r := { r with shared }
  match found with
  | some node =>
    let notice := Notification.speculated ⟨node, r.started, 1⟩ timer.delay
    let (r, opened) := launch s r node
    let metrics := (m.metrics.record {} m.now notice).1
    let (r, asked) := armTimer s m.now metrics r
    return (.running r, Deed.ofRequest (consulted ++ [.notify notice] ++ opened ++ asked))
  | none =>
    let (state, more) := goOn r
    return (state, Deed.ofRequest (consulted ++ [.remark .noNodeForSpeculation]) ++ more)

/-- The deadline passed: the request times out, unless its resolution is claimed already. -/
def timeUp (s : Settings) (m : Moment) (r : Running) : Option Result := do
  let deadline ← r.deadline
  let limit ← s.requestTimeout
  if r.deadlinePassed || m.now < deadline then none
  match r.shared.tryClaim .deadline with
  | (_, true, claim) =>
    let (state, deeds) := conclude r.executions (.error (.requestTimeout limit))
    return (state, Deed.ofRequest (claim ++ [.remark (.timedOut limit)]) ++ deeds)
  | (_, false, claim) =>
    return (.running { r with deadlinePassed := true }, Deed.ofRequest claim)

/-- The caller drops a running request: the executions are dropped, then the observers are told
    at once. -/
def dropRunning (r : Running) : Result :=
  (.dropped, abandonAll r.executions ++
    Deed.ofRequest [.remark .droppedUnresolved, .notify .requestCancelled])

/-! ## Steps -/

/-- A request begins with the announcement of its start. -/
def start : Result :=
  (.starting, Deed.ofRequest [.notify .requestStarted])

/-- One step of a request. -/
def step (s : Settings) (m : Moment) : State → Event → Option Result
  | .starting, .told => some (begin s m)
  | .starting, .drop => some (.dropped, [])
  | .running r, .execution index event => stepExecution s m r index event
  | .running r, .speculate => speculate s m r
  | .running r, .timeUp => timeUp s m r
  | .running r, .drop => some (dropRunning r)
  | .concluding o, .told => some (.finished o, [])
  | .concluding _, .drop => some (.dropped, [])
  | _, _ => none

end Request

end RequestEngine
