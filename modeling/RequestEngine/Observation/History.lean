/-
  RequestEngine.Observation.History

  The history of requests as a log of timed events. Requests and attempts are
  numbered from 0 in order of their start; taking the log out of a history keeps
  the numbering. The number of a request is kept with its tracking information,
  that of an attempt under its host.
-/
import RequestEngine.Observation.Notification

namespace RequestEngine

/-- A collected event. -/
inductive HistoryEvent where
  | newRequest (id : RequestId)
  | requestSuccess (id : RequestId)
  | requestError (id : RequestId) (error : ExecutionError)
  | requestCancelled (id : RequestId)
  | newSpeculativeExecution (id : RequestId) (execution : Nat)
  | newAttempt (attempt : AttemptId) (id : RequestId) (execution : Nat) (address : Address)
  | attemptSuccess (attempt : AttemptId)
  | attemptError (attempt : AttemptId) (error : AttemptError) (decision : Decision)
  deriving DecidableEq, Repr

/-- The collected events and the numbers to hand out next. -/
structure History where
  events : List (HistoryEvent × Instant) := []
  nextRequest : RequestId := ⟨0⟩
  nextAttempt : AttemptId := ⟨0⟩
  deriving DecidableEq, Repr, Inhabited

namespace History

/-- The key of a request's number. -/
def requestKey : String :=
  "history.request_id"

/-- The base of the key of an attempt's number. -/
def attemptKey : String :=
  "history.attempt_id"

/-- Appends an event. -/
def add (h : History) (event : HistoryEvent) (now : Instant) : History :=
  { h with events := h.events ++ [(event, now)] }

/-! ## What is done to a history while nobody else has it -/

/-- Appends an event to the log. -/
def addEvent (event : HistoryEvent) (now : Instant) : StateM History Unit :=
  modify (·.add event now)

/-- Numbers a request that starts, and logs its start. -/
def startRequest (now : Instant) : StateM History RequestId := do
  let id := (← get).nextRequest
  modify fun h => { h with nextRequest := ⟨id.value + 1⟩ }
  addEvent (.newRequest id) now
  return id

/-- Numbers an attempt that starts, and logs its start. -/
def startAttempt (id : RequestId) (host : HostInfo) (now : Instant) :
    StateM History AttemptId := do
  let attempt := (← get).nextAttempt
  modify fun h => { h with nextAttempt := ⟨attempt.value + 1⟩ }
  addEvent (.newAttempt attempt id host.execution host.node.address) now
  return attempt

/-- Copies what was collected. -/
def copy : StateM History History :=
  get

/-- Takes out what was collected: an empty log is left, and the numbering goes on. -/
def take : StateM History History := do
  let collected ← get
  set { collected with events := [] }
  return collected

/-! ## Recording -/

/-- Why a notification could not be recorded. -/
inductive Refusal where
  | requestNotStarted
  | attemptNotStarted (node : Node)
  deriving DecidableEq, Repr

namespace Refusal

/-- The text of a refusal. -/
def message : Refusal → String
  | requestNotStarted => "HistoryCollector: request was not started"
  | attemptNotStarted node =>
    "HistoryCollector: attempt on " ++ node.text ++ " finished but was not started"

end Refusal

/-- What a callback does with the history and the tracking information of its request. It may be
    refused on its way, and what it has done until then remains. -/
abbrev Recording :=
  ExceptT Refusal (StateM (History × Tracking))

namespace Recording

/-- Does something with the history. -/
def onHistory {α : Type} (action : StateM History α) : Recording α :=
  modifyGet fun (h, t) =>
    let (result, h) := action.run h
    (result, h, t)

/-- Stores an item with the request. -/
def insertItem (key : String) (item : Item) : Recording Unit :=
  modify fun (h, t) => (h, (t.insert key item).1)

/-- The number of the request, if it was started. -/
def requestId : Recording RequestId := do
  match (← get).2.get requestKey .request with
  | some (.request id) => return id
  | _ => throw .requestNotStarted

/-- Takes the number of an attempt that has finished, if it was started. -/
def finishedAttempt (host : HostInfo) : Recording AttemptId := do
  let (h, t) ← get
  let (t, item) := t.take (host.itemKey attemptKey) .attempt
  set (h, t)
  match item with
  | some (.attempt id) => return id
  | _ => throw (.attemptNotStarted host.node)

/-- What is done on a notification. -/
def of (now : Instant) : Notification → Recording Unit
  | .requestStarted => do
    let id ← onHistory (startRequest now)
    insertItem requestKey (.request id)
  | .speculated host _ => do
    let id ← requestId
    onHistory (addEvent (.newSpeculativeExecution id host.execution) now)
  | .nodeStarted host => do
    let id ← requestId
    let attempt ← onHistory (startAttempt id host now)
    insertItem (host.itemKey attemptKey) (.attempt attempt)
  | .nodeFailed host _ decision error => do
    let attempt ← finishedAttempt host
    onHistory (addEvent (.attemptError attempt error decision) now)
  | .nodeSucceeded host => do
    let attempt ← finishedAttempt host
    onHistory (addEvent (.attemptSuccess attempt) now)
  | .requestSucceeded _ => do
    let id ← requestId
    onHistory (addEvent (.requestSuccess id) now)
  | .requestFailed error => do
    let id ← requestId
    onHistory (addEvent (.requestError id error) now)
  | .requestCancelled => do
    let id ← requestId
    onHistory (addEvent (.requestCancelled id) now)

end Recording

/-- Records a notification: the history and the tracking information that are left, and why it was
    refused, if it was. -/
def record (h : History) (t : Tracking) (now : Instant) (n : Notification) :
    History × Tracking × Option Refusal :=
  match (Recording.of now n).run.run (h, t) with
  | (.ok (), h, t) => (h, t, none)
  | (.error refusal, h, t) => (h, t, some refusal)

end History

end RequestEngine
