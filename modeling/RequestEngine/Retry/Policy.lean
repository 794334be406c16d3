/-
  RequestEngine.Retry.Policy

  Retry policies. A policy decides from the failed attempt alone, so the same
  attempt always gets the same decision. `Standard.decide` retries where a retry
  is likely to help, `Downgrading.decide` also settles for a lower level that is
  known to be reachable, and `giveUp` never retries. Further policies answer
  from a script or from a table of error classes.
-/
import RequestEngine.Retry.Decision

namespace RequestEngine

/-- A retry policy: its name, its decisions and the remark it logs when it makes one. A policy
    that is `watched` has its decisions written to the journal. -/
structure RetryPolicy where
  name : String
  decide : FailedAttempt → Decision
  remark : FailedAttempt → Option String := fun _ => none
  watched : Bool := false

/-- A node that may work better elsewhere: worth another node if the statement may run twice. -/
def retryElsewhereIf (idempotent : Bool) : Decision :=
  if idempotent then .retryNext none else .rethrow

/-! ## The standard policy -/

namespace Standard

/-- Decisions about database errors at levels that are not serial. Rules that allow one retry
    apply to the first attempt of an execution only. -/
def onDatabaseError (a : FailedAttempt) : DatabaseError → Decision
  | .overloaded | .serverError | .truncateError => retryElsewhereIf a.idempotent
  | .unavailable .. => if a.isFirst then .retryNext none else .rethrow
  | .readTimeout _ received required dataPresent =>
    if a.isFirst && required ≤ received && !dataPresent then .retrySame none else .rethrow
  | .writeTimeout _ _ _ writeType =>
    if a.isFirst && a.idempotent && writeType = .batchLog then .retrySame none else .rethrow
  | .isBootstrapping => .retryNext none
  | _ => .rethrow

/-- Retries where there is a high chance that a retry helps. -/
def decide (a : FailedAttempt) : Decision :=
  if a.level.isSerial then .rethrow
  else
    match a.error with
    | .broken _ | .timeout _ => retryElsewhereIf a.idempotent
    | .pool _ => .retryNext none
    | .database error _ => onDatabaseError a error
    | .unexpected _ => .rethrow

end Standard

/-! ## The downgrading policy -/

namespace Downgrading

/-- The highest of the levels three, two and one that `known` replicas can reach. With no known
    replica a level that counts per datacenter still leaves hope for one. -/
def reachable (known : Int) (level : Level) : Decision :=
  if 3 ≤ known then .retrySame (some .three)
  else if known = 2 then .retrySame (some .two)
  else if known = 1 ∨ level = .eachQuorum then .retrySame (some .one)
  else .rethrow

/-- Decisions about database errors at levels that are not serial. -/
def onDatabaseError (a : FailedAttempt) : DatabaseError → Decision
  | .overloaded | .serverError | .truncateError => retryElsewhereIf a.idempotent
  | .unavailable _ _ alive => if a.isFirst then reachable alive a.level else .rethrow
  | .readTimeout _ received required dataPresent =>
    if !a.isFirst then .rethrow
    else if received < required then reachable received a.level
    else if !dataPresent then .retrySame none
    else .rethrow
  | .writeTimeout _ received _ writeType =>
    if !a.isFirst || !a.idempotent then .rethrow
    else
      match writeType with
      | .unloggedBatch => reachable received a.level
      | .batchLog => .retrySame none
      | _ => .rethrow
  | .isBootstrapping => .retryNext none
  | _ => .rethrow

/-- Retries like the standard policy, but with a lower level where the wanted one is known to be
    out of reach. At a serial level only an unavailable coordinator is worth another node. -/
def decide (a : FailedAttempt) : Decision :=
  if a.level.isSerial then
    match a.error with
    | .database (.unavailable ..) _ => .retryNext none
    | _ => .rethrow
  else
    match a.error with
    | .broken _ | .timeout _ => retryElsewhereIf a.idempotent
    | .pool _ => .retryNext none
    | .database error _ => onDatabaseError a error
    | .unexpected _ => .rethrow

/-- The remark about a lowered level. -/
def remark (a : FailedAttempt) : Option String :=
  match decide a with
  | .retrySame (some level) =>
    some ("Decided to lower required consistency from " ++ a.level.name ++ " to " ++
      Text.optional Level.name (some level) ++ ".")
  | _ => none

end Downgrading

namespace RetryPolicy

/-- The policy used where none is given. -/
def standard : RetryPolicy where
  name := "DefaultRetryPolicy"
  decide := Standard.decide

/-- The policy that settles for lower levels. -/
def downgrading : RetryPolicy where
  name := "DowngradingConsistencyRetryPolicy"
  decide := Downgrading.decide
  remark := Downgrading.remark

/-- The policy that gives every error to the caller. -/
def giveUp : RetryPolicy where
  name := "FallthroughRetryPolicy"
  decide _ := .rethrow

/-- Decides about the n-th attempt by the n-th decision of a list, about later ones by its
    last. -/
def scripted (decisions : List Decision) : RetryPolicy where
  name := "ScriptedRetryPolicy"
  decide a := (decisions[min a.number decisions.length - 1]?).getD .rethrow

/-- Decides by the class of the error; classes that the table does not name are given to the
    caller. -/
def byType (table : List (ErrorType × Decision)) : RetryPolicy where
  name := "TabulatedRetryPolicy"
  decide a := (table.lookup a.error.errorType).getD .rethrow

end RetryPolicy

/-! ## Tables of decisions -/

/-- The decisions of a policy about one error at one level: for statements that may not and that
    may run twice, each for the attempt numbers 0, 1 and 2. -/
def RetryPolicy.row (policy : RetryPolicy) (error : AttemptError) (level : Level) :
    List Decision :=
  [false, true].flatMap fun idempotent =>
    [0, 1, 2].map fun number => policy.decide ⟨error, idempotent, level, number⟩

/-- The decisions of a policy about one error, level by level. -/
def RetryPolicy.grid (policy : RetryPolicy) (error : AttemptError) :
    List (Level × List Decision) :=
  Level.everyLevel.map fun level => (level, policy.row error level)

end RequestEngine
