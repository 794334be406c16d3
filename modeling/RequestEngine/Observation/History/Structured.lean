/-
  RequestEngine.Observation.History.Structured

  A log of events arranged by requests: each request with its executions, each
  execution with its attempts, each with its result. The log is read twice:
  first to collect requests, speculative executions and attempts, then to put
  the attempts into their executions.
-/
import RequestEngine.Observation.History

namespace RequestEngine

/-! ## Structure -/

/-- How an attempt ended. -/
inductive AttemptResult where
  | success (time : Instant)
  | error (time : Instant) (error : AttemptError) (decision : Decision)
  deriving DecidableEq, Repr

/-- One attempt. -/
structure AttemptHistory where
  sendTime : Instant
  address : Address
  result : Option AttemptResult := none
  deriving DecidableEq, Repr

/-- The attempts of one execution, in order of sending. -/
structure ExecutionHistory where
  startTime : Instant
  attempts : List AttemptHistory := []
  deriving DecidableEq, Repr

/-- How a request ended. -/
inductive RequestResult where
  | success (time : Instant)
  | error (time : Instant) (error : ExecutionError)
  | cancelled (time : Instant)
  deriving DecidableEq, Repr

/-- One request: its initial execution and the speculative ones in order. -/
structure RequestHistory where
  startTime : Instant
  main : ExecutionHistory
  speculative : List ExecutionHistory := []
  result : Option RequestResult := none
  deriving DecidableEq, Repr

/-! ## Entries in order of their keys -/

/-- Stores a value under a key, in place of the earlier one; keys stay in ascending order. -/
def putAt (key : Nat) (value : α) : List (Nat × α) → List (Nat × α)
  | [] => [(key, value)]
  | (k, v) :: rest =>
    if key < k then (key, value) :: (k, v) :: rest
    else if key = k then (key, value) :: rest
    else (k, v) :: putAt key value rest

/-- Changes the value under a key, if there is one. -/
def changeAt (key : Nat) (f : α → α) (entries : List (Nat × α)) : List (Nat × α) :=
  entries.map fun e => if e.1 = key then (e.1, f e.2) else e

/-! ## Reading the log -/

/-- Requests, speculative executions by request and index, and attempts, each in ascending
    order, with the remarks about results that belong to no attempt or come twice. -/
structure Collected where
  requests : List (Nat × RequestHistory) := []
  executions : List (Nat × List (Nat × ExecutionHistory)) := []
  attempts : List (Nat × AttemptHistory) := []
  remarks : List String := []
  deriving DecidableEq, Repr

namespace Collected

/-- The speculative executions of a request. -/
def executionsOf (c : Collected) (request : Nat) : List (Nat × ExecutionHistory) :=
  (c.executions.lookup request).getD []

/-- Sets the result of a request. -/
def finish (c : Collected) (id : RequestId) (result : RequestResult) : Collected :=
  { c with requests := changeAt id.value (fun r => { r with result := some result }) c.requests }

/-- Sets the result of an attempt. -/
def finishAttempt (c : Collected) (id : AttemptId) (result : AttemptResult) : Collected :=
  { c with attempts := changeAt id.value (fun a => { a with result := some result }) c.attempts }

/-- The remark about the result of an attempt, if something is odd about it. -/
def oddResult (c : Collected) (id : AttemptId) : List String :=
  match c.attempts.lookup id.value with
  | none =>
    ["StructuredHistory - attempt with id AttemptId(" ++ toString id.value ++
      ") finished with an error but not created"]
  | some a =>
    if a.result.isSome then
      ["StructuredHistory - attempt with id AttemptId(" ++ toString id.value ++
        ") has multiple results"]
    else []

/-- Collects one event. -/
def add (c : Collected) : HistoryEvent × Instant → Collected
  | (.newAttempt attempt _ _ address, time) =>
    { c with attempts := putAt attempt.value { sendTime := time, address } c.attempts }
  | (.attemptSuccess attempt, time) => c.finishAttempt attempt (.success time)
  | (.attemptError attempt error decision, time) =>
    { c.finishAttempt attempt (.error time error decision) with
      remarks := c.remarks ++ c.oddResult attempt }
  | (.newRequest id, time) =>
    let fresh : RequestHistory := { startTime := time, main := { startTime := time } }
    { c with requests := putAt id.value fresh c.requests }
  | (.requestSuccess id, time) => c.finish id (.success time)
  | (.requestError id error, time) => c.finish id (.error time error)
  | (.requestCancelled id, time) => c.finish id (.cancelled time)
  | (.newSpeculativeExecution id execution, time) =>
    let executions := putAt execution { startTime := time } (c.executionsOf id.value)
    { c with executions := putAt id.value executions c.executions }

/-- Puts an attempt at the end of its execution, if that one was collected. -/
def place (c : Collected) : HistoryEvent × Instant → Collected
  | (.newAttempt attempt id execution _, _) =>
    match c.attempts.lookup attempt.value with
    | none => c
    | some a =>
      let push (e : ExecutionHistory) : ExecutionHistory :=
        { e with attempts := e.attempts ++ [a] }
      let c := { c with attempts := c.attempts.filter (·.1 ≠ attempt.value) }
      if execution = 0 then
        let requests := changeAt id.value (fun r => { r with main := push r.main }) c.requests
        { c with requests }
      else
        { c with executions := changeAt id.value (changeAt execution push) c.executions }
  | _ => c

/-- Puts the speculative executions into their requests. -/
def assemble (c : Collected) : List RequestHistory :=
  c.requests.map fun (id, r) => { r with speculative := (c.executionsOf id).map (·.2) }

end Collected

namespace RequestHistory

/-- Arranges a log by requests, in order of their numbers, with the remarks made on the way. -/
def ofEvents (events : List (HistoryEvent × Instant)) : List RequestHistory × List String :=
  let collected := events.foldl Collected.add {}
  ((events.foldl Collected.place collected).assemble, collected.remarks)

end RequestHistory

/-! ## Text -/

namespace AttemptResult

/-- The lines about a result. -/
def lines (time : Instant → String) : AttemptResult → List String
  | success t => ["|   Success at " ++ time t]
  | error t e decision =>
    ["|   Error at " ++ time t, "|   Error: " ++ e.message, "|   Retry decision: " ++ decision.text]

end AttemptResult

namespace ExecutionHistory

/-- The lines about the attempts of an execution. -/
def lines (time : Instant → String) (e : ExecutionHistory) : List String :=
  e.attempts.zipIdx.flatMap fun (a, i) =>
    (if i = 0 then [] else ["|"]) ++
      ["| - Attempt #" ++ toString i ++ " sent to " ++ a.address.text,
        "|   request send time: " ++ time a.sendTime] ++
      match a.result with
      | some r => r.lines time
      | none => ["|   No result yet"]

end ExecutionHistory

namespace RequestResult

/-- The lines about the end of a request. -/
def lines (time : Instant → String) : RequestResult → List String
  | success t => ["| Request successful at " ++ time t]
  | error t e => ["| Request failed at " ++ time t, "| Error: " ++ e.message]
  | cancelled t => ["| Request cancelled at " ++ time t]

end RequestResult

namespace RequestHistory

/-- The lines about the i-th request. -/
def lines (time : Instant → String) (i : Nat) (r : RequestHistory) : List String :=
  ["=== Request #" ++ toString i ++ " ===", "| start_time: " ++ time r.startTime,
    "| Non-speculative attempts:"] ++ r.main.lines time ++
    (r.speculative.zipIdx.flatMap fun (e, k) =>
      ["|", "|", "| > Speculative execution #" ++ toString k,
        "| execution start time: " ++ time e.startTime] ++ e.lines time) ++
    ["|"] ++
    (match r.result with
      | some result => result.lines time
      | none => ["| Request still running - no final result yet"]) ++
    ["================="]

/-- The text of a whole history; `time` writes points in time. -/
def text (time : Instant → String) (requests : List RequestHistory) : String :=
  let lines := "Requests History:" ::
    requests.zipIdx.flatMap fun (r, i) => r.lines time i
  String.join (lines.map (· ++ "\n"))

end RequestHistory

end RequestEngine
