/-
  RequestEngine.Retry.Decision

  What a retry policy is told about a failed attempt, and what it may decide.
-/
import RequestEngine.Failure.Attempt

namespace RequestEngine

/-- A failed attempt, as a retry policy sees it. Attempts are counted from 1 within each
    execution of a request. -/
structure FailedAttempt where
  error : AttemptError
  idempotent : Bool
  level : Level
  number : Nat
  deriving DecidableEq, Repr

namespace FailedAttempt

/-- Whether the attempt was the first one of its execution. -/
def isFirst (a : FailedAttempt) : Bool :=
  a.number ≤ 1

end FailedAttempt

/-- What to do after an attempt failed: try again on the same node or on the next one, at
    another level if one is given; give the error to the caller; or move on and treat the error
    as harmless unless no node is left. -/
inductive Decision where
  | retrySame (level : Option Level)
  | retryNext (level : Option Level)
  | rethrow
  | ignore
  deriving DecidableEq, Repr

namespace Decision

/-- Whether another attempt of the execution follows from the decision. -/
def isRetry : Decision → Bool
  | retrySame _ | retryNext _ => true
  | rethrow | ignore => false

/-- The level that the decision carries. -/
def level? : Decision → Option Level
  | retrySame level | retryNext level => level
  | rethrow | ignore => none

/-- How messages name a decision. -/
def text : Decision → String
  | retrySame level => "RetrySameTarget(" ++ Text.optional Level.name level ++ ")"
  | retryNext level => "RetryNextTarget(" ++ Text.optional Level.name level ++ ")"
  | rethrow => "Rethrow"
  | ignore => "Ignore"

end Decision

end RequestEngine
