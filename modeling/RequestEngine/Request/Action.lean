/-
  RequestEngine.Request.Action

  What a request does to its surroundings while it runs: it consults policies,
  borrows connections and gives them back, sends, notifies its observers and
  makes remarks. The actions of a run, in order, are its log; each belongs to an
  execution or to the request as a whole.
-/
import RequestEngine.Balancing.Plan
import RequestEngine.Observation.Notification

namespace RequestEngine

/-- A connection that a pool lent, known by the number of the loan, and the address it is
    connected to. -/
structure Connection where
  loan : Nat
  address : Address
  deriving DecidableEq, Repr, Inhabited

/-- Who resolves a request: an attempt that succeeded or whose error stands, the deadline, or the
    end of the plan. -/
inductive Claimant where
  | attempt (execution number : Nat)
  | deadline
  | exhaustion
  deriving DecidableEq, Repr

/-- How a request ended. -/
abbrev Outcome := Except ExecutionError Answer

/-- Remarks about the course of a request. -/
inductive Remark where
  | attemptStarted (node : Node) (number : Nat) (level : Level)
  | attemptSucceeded (latency : Duration)
  | attemptFailed (error : AttemptError) (decision : Decision)
  | attemptCancelled (node : Node) (execution number : Nat)
  | succeededTooLate
  | failedTooLate
  | notStarted
  | leavesNode (node : Node) (retries : Nat)
  | planExhausted
  | noNodeForSpeculation
  | timedOut (limit : Duration)
  | droppedUnresolved
  deriving DecidableEq, Repr

/-- Something that a request does. -/
inductive Action where
  | consult (note : PlanNote)
  | askDelay (started : Nat) (warning : Option String) (delay : Option Duration)
  | openExecution (index : Nat)
  | askConnection (node : Node)
  | acquired (node : Node) (connection : Connection)
  | acquireFailed (node : Node) (error : PoolError)
  | send (node : Node) (connection : Connection) (level : Level) (serial : Option SerialLevel)
  | release (node : Node) (connection : Connection)
  | reportSuccess (routing : Routing) (node : Node) (latency : Duration)
  | reportFailure (routing : Routing) (node : Node) (latency : Duration) (error : AttemptError)
  | decide (attempt : FailedAttempt) (remark : Option String) (decision : Decision)
  | claim (who : Claimant) (won : Bool)
  | notify (n : Notification)
  | remark (r : Remark)
  deriving DecidableEq, Repr

/-- An action with the index of the execution it belongs to, if it belongs to one. -/
structure Deed where
  execution : Option Nat
  action : Action
  deriving DecidableEq, Repr

namespace Deed

/-- Actions of the request as a whole. -/
def ofRequest (actions : List Action) : List Deed :=
  actions.map (⟨none, ·⟩)

/-- Actions of one execution. -/
def ofExecution (index : Nat) (actions : List Action) : List Deed :=
  actions.map (⟨some index, ·⟩)

end Deed

end RequestEngine
