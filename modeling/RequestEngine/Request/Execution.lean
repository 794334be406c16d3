/-
  RequestEngine.Request.Execution

  One execution of a request: attempts, one after the other, over nodes of the
  plan that all executions of the request share. An execution waits for one
  thing at a time and goes on when that thing happens: it begins, its observers
  have been told, its connection is there or not, its answer has arrived, or its
  attempt has run out of time. Each such event is one step, and gives the new
  state of what is shared, the progress of the execution and the actions taken,
  in order.
-/
import RequestEngine.Request.Action
import RequestEngine.Request.Settings

namespace RequestEngine

/-- What the surroundings look like at the moment of a step. -/
structure Moment where
  now : Instant
  liveness : Liveness := {}
  metrics : Metrics := {}
  deriving Repr, Inhabited

/-! ## State -/

/-- What the executions of one request share: the plan, who has claimed the resolution, and the
    errors met so far. -/
structure Shared where
  plan : Plan
  claim : Option Claimant := none
  hostErrors : List HostError := []

namespace Shared

/-- Whether the resolution is claimed. -/
def claimed (s : Shared) : Bool :=
  s.claim.isSome

/-- Claims the resolution, and tells whether the claim succeeded: only the first one does. -/
def tryClaim (s : Shared) (who : Claimant) : Shared × Bool × List Action :=
  if s.claimed then (s, false, [.claim who false])
  else ({ s with claim := some who }, true, [.claim who true])

/-- Notes the error of an attempt on a node. -/
def addError (s : Shared) (n : Node) (e : AttemptError) : Shared :=
  { s with hostErrors := s.hostErrors ++ [⟨n.host, n.address, e⟩] }

/-- Takes the next node of the plan. -/
def nextNode (s : Shared) (live : Liveness) : Option Node × Shared × List Action :=
  let (found, plan, notes) := s.plan.next live
  (found, { s with plan }, notes.map Action.consult)

end Shared

/-- One attempt: its number within the execution, its level and its start. -/
structure Attempt where
  number : Nat
  level : Level
  started : Instant
  deriving DecidableEq, Repr

/-- What an execution waits for. -/
inductive Phase where
  /-- Its turn to begin. -/
  | fresh
  /-- The observers' callbacks about the start of an attempt. -/
  | announcing (a : Attempt)
  /-- A connection. -/
  | acquiring (a : Attempt)
  /-- The answer over a connection. -/
  | exchanging (a : Attempt) (c : Connection)
  /-- The observers' callbacks about a success. -/
  | reportingSuccess (a : Attempt) (answer : Answer)
  /-- The observers' callbacks about a failure. -/
  | reportingFailure (a : Attempt) (e : AttemptError) (d : Decision)
  deriving DecidableEq, Repr

/-- An execution that has not ended. -/
structure Execution where
  index : Nat
  node : Node
  level : Level
  attempts : Nat := 0
  retries : Nat := 0
  lastIgnored : Option AttemptError := none
  phase : Phase := .fresh
  deriving DecidableEq, Repr

/-- What an execution can meet. -/
inductive ExecutionEvent where
  | begin
  | told
  | connection (result : Except PoolError Connection)
  | answer (result : Except BrokenConnection Response)
  | expire

/-- How far a step brought an execution: it goes on, it resolved the request, it ended because
    somebody else did, or its plan is exhausted. -/
inductive Progress where
  | goesOn (e : Execution)
  | resolved (o : Outcome)
  | cancelled
  | exhausted (lastIgnored : Option AttemptError)

/-- The result of a step of an execution. -/
structure Advance where
  shared : Shared
  progress : Progress
  actions : List Action

namespace Advance

/-- The same after some earlier actions. -/
def after (actions : List Action) (a : Advance) : Advance :=
  { a with actions := actions ++ a.actions }

end Advance

namespace Execution

/-- The execution that is about to try its first node. -/
def new (index : Nat) (node : Node) (level : Level) : Execution :=
  { index, node, level }

/-- The host of an attempt. -/
def host (e : Execution) (a : Attempt) : HostInfo :=
  ⟨e.node, e.index, a.number⟩

/-- The attempt that is being made. -/
def attempt? (e : Execution) : Option Attempt :=
  match e.phase with
  | .fresh => none
  | .announcing a | .acquiring a | .exchanging a _ | .reportingSuccess a _
  | .reportingFailure a _ _ => some a

/-- The connection that is being used. -/
def connection? (e : Execution) : Option Connection :=
  match e.phase with
  | .exchanging _ c => some c
  | _ => none

/-- The attempt that has neither succeeded nor failed yet. -/
def pending? (e : Execution) : Option Attempt :=
  match e.phase with
  | .announcing a | .acquiring a | .exchanging a _ => some a
  | _ => none

/-- What happens when an execution is dropped: its connection is given back and its pending
    attempt is cancelled. -/
def abandon (e : Execution) : List Action :=
  (e.connection?.map fun c => Action.release e.node c).toList ++
    (e.pending?.map fun a =>
      Action.remark (.attemptCancelled e.node e.index a.number)).toList

/-! ## Attempts -/

/-- Starts another attempt on the current node, unless the request is resolved already. -/
def startAttempt (m : Moment) (sh : Shared) (e : Execution) : Advance :=
  if sh.claimed then ⟨sh, .cancelled, [.remark .notStarted]⟩
  else
    let a : Attempt := ⟨e.attempts + 1, e.level, m.now⟩
    let e := { e with attempts := e.attempts + 1, phase := .announcing a }
    ⟨sh, .goesOn e,
      [.remark (.attemptStarted e.node a.number a.level), .notify (.nodeStarted (e.host a))]⟩

/-- Goes on with the next node of the plan. -/
def moveOn (m : Moment) (sh : Shared) (e : Execution) : Advance :=
  match sh.nextNode m.liveness with
  | (some node, sh, actions) =>
    (startAttempt m sh { e with node, retries := 0 }).after actions
  | (none, sh, actions) =>
    ⟨sh, .exhausted e.lastIgnored, actions ++ [.remark .planExhausted]⟩

/-- An attempt got its reply. It resolves the request, unless somebody else did. -/
def succeed (s : Settings) (m : Moment) (sh : Shared) (e : Execution) (a : Attempt)
    (answer : Answer) : Advance :=
  let latency := m.now.since a.started
  let hook := Action.reportSuccess s.routing e.node latency
  match sh.tryClaim (.attempt e.index a.number) with
  | (sh, true, claim) =>
    ⟨sh, .goesOn { e with phase := .reportingSuccess a answer },
      hook :: claim ++
        [.remark (.attemptSucceeded latency), .notify (.nodeSucceeded (e.host a))]⟩
  | (sh, false, claim) => ⟨sh, .cancelled, hook :: claim ++ [.remark .succeededTooLate]⟩

/-- An attempt failed. The retry policy decides what to do about it; an error that is to be
    given to the caller has to resolve the request, any other only needs it to be open. -/
def fail (s : Settings) (m : Moment) (sh : Shared) (e : Execution) (a : Attempt)
    (error : AttemptError) : Advance :=
  let latency := m.now.since a.started
  let failed : FailedAttempt := ⟨error, s.routing.idempotent, a.level, a.number⟩
  let decision := s.retry.decide failed
  let hook :=
    if error.wasSent then [Action.reportFailure s.routing e.node latency error] else []
  let told := hook ++
    [.decide failed (s.retry.remark failed) decision, .remark (.attemptFailed error decision)]
  let (sh, mayReport, claim) :=
    match decision with
    | .rethrow => sh.tryClaim (.attempt e.index a.number)
    | _ => (sh, !sh.claimed, [])
  if mayReport then
    ⟨sh, .goesOn { e with phase := .reportingFailure a error decision },
      told ++ claim ++ [.notify (.nodeFailed (e.host a) error.errorType decision error)]⟩
  else ⟨sh, .cancelled, told ++ claim ++ [.remark .failedTooLate]⟩

/-- The answer to an attempt arrived, or its connection broke. -/
def receive (s : Settings) (m : Moment) (sh : Shared) (e : Execution) (a : Attempt)
    (c : Connection) : Except BrokenConnection Response → Advance
  | .ok (.ok (.result body)) => succeed s m sh e a ⟨.result body, e.node, c.address⟩
  | .ok (.ok reply) => fail s m sh e a (.unexpected reply.kind)
  | .ok (.error e') => fail s m sh e a (.database e'.error e'.reason)
  | .error cause => fail s m sh e a (.broken cause)

/-- What follows a failure once the observers know of it. -/
def follow (s : Settings) (m : Moment) (sh : Shared) (e : Execution) (error : AttemptError) :
    Decision → Advance
  | .rethrow => ⟨sh, .resolved (.error (.lastAttempt error)), []⟩
  | .ignore => moveOn m (sh.addError e.node error) { e with lastIgnored := some error }
  | .retryNext level =>
    moveOn m (sh.addError e.node error)
      { e with lastIgnored := none, level := level.getD e.level }
  | .retrySame level =>
    let sh := sh.addError e.node error
    let e := { e with lastIgnored := none, level := level.getD e.level }
    if e.retries < s.sameTargetCap && m.liveness.isUp e.node then
      startAttempt m sh { e with retries := e.retries + 1 }
    else (moveOn m sh e).after [.remark (.leavesNode e.node e.retries)]

/-! ## Steps -/

/-- One step of an execution under the deadline of its request, if the event is one that the
    execution can meet now. -/
def step (s : Settings) (deadline : Option Instant) (m : Moment) (sh : Shared) (e : Execution)
    (event : ExecutionEvent) : Option Advance :=
  match e.phase, event with
  | .fresh, .begin => some (startAttempt m sh e)
  | .announcing a, .told =>
    some ⟨sh, .goesOn { e with phase := .acquiring a }, [.askConnection e.node]⟩
  | .acquiring a, .connection (.ok c) =>
    some ⟨sh, .goesOn { e with phase := .exchanging a c },
      [.acquired e.node c, .send e.node c a.level s.routing.serial]⟩
  | .acquiring a, .connection (.error cause) =>
    some ((fail s m sh e a (.pool cause)).after [.acquireFailed e.node cause])
  | .exchanging a c, .answer result =>
    some ((receive s m sh e a c result).after [.release e.node c])
  | .exchanging a c, .expire =>
    match s.attemptExpiry deadline a.started with
    | some (expiry, limit) =>
      if expiry ≤ m.now then
        some ((fail s m sh e a (.timeout limit)).after [.release e.node c])
      else none
    | none => none
  | .reportingSuccess _ answer, .told => some ⟨sh, .resolved (.ok answer), []⟩
  | .reportingFailure _ error decision, .told => some (follow s m sh e error decision)
  | _, _ => none

end Execution

end RequestEngine
