/-
  RequestEngine.Proofs.Retry.Caution

  What the provided retry policies never retry.  After most failures nobody
  knows whether a node applied the statement.  Harmless are those after which it
  is taken to have written nothing: no connection, too few replicas, a node that
  is not ready, or a read that timed out.  For a statement that must not run
  twice the three provided policies go on only after these.
-/
import RequestEngine.Retry.Policy

namespace RequestEngine

/-! ## Harmless failures -/

/-- Errors of the database after which a statement is taken to have written nothing. -/
def DatabaseError.isHarmless : DatabaseError → Bool
  | .unavailable .. | .isBootstrapping | .readTimeout .. => true
  | _ => false

/-- Errors after which a statement is taken to have written nothing. -/
def AttemptError.isHarmless : AttemptError → Bool
  | .pool _ => true
  | .database error _ => error.isHarmless
  | _ => false

/-! ## The policies -/

variable {a : FailedAttempt}

@[simp] theorem retryElsewhereIf_false : retryElsewhereIf false = .rethrow := rfl

theorem Standard.isHarmless_of_onDatabaseError {error : DatabaseError}
    (single : a.idempotent = false) (again : onDatabaseError a error ≠ .rethrow) :
    error.isHarmless = true := by
  cases error with
  | unavailable | readTimeout | isBootstrapping => rfl
  | _ => simp [onDatabaseError, single] at again

theorem Standard.isHarmless_of_decide (single : a.idempotent = false)
    (again : decide a ≠ .rethrow) : a.error.isHarmless = true := by
  unfold decide at again
  split at again
  · exact absurd rfl again
  · cases herror : a.error with
    | pool => rfl
    | database error reason =>
      rw [herror] at again
      exact isHarmless_of_onDatabaseError single again
    | _ => simp [herror, single] at again

theorem Downgrading.isHarmless_of_onDatabaseError {error : DatabaseError}
    (single : a.idempotent = false) (again : onDatabaseError a error ≠ .rethrow) :
    error.isHarmless = true := by
  cases error with
  | unavailable | readTimeout | isBootstrapping => rfl
  | _ => simp [onDatabaseError, single] at again

theorem Downgrading.isHarmless_of_decide (single : a.idempotent = false)
    (again : decide a ≠ .rethrow) : a.error.isHarmless = true := by
  unfold decide at again
  split at again
  -- at a serial level the policy goes on only where too few replicas were alive
  · split at again
    · rename_i herror
      rw [herror]
      rfl
    · exact absurd rfl again
  · cases herror : a.error with
    | pool => rfl
    | database error reason =>
      rw [herror] at again
      exact isHarmless_of_onDatabaseError single again
    | _ => simp [herror, single] at again

namespace RetryPolicy

/-- A policy that decides like one of the provided ones. -/
def IsProvided (p : RetryPolicy) : Prop :=
  p.decide = standard.decide ∨ p.decide = downgrading.decide ∨ p.decide = giveUp.decide

/-- After the failure of a statement that must not run twice, a provided policy goes on only if
    the error is harmless. -/
theorem IsProvided.isHarmless {p : RetryPolicy} (h : p.IsProvided)
    (single : a.idempotent = false) (again : p.decide a ≠ .rethrow) :
    a.error.isHarmless = true := by
  rcases h with h | h | h
  · rw [h] at again
    exact Standard.isHarmless_of_decide single again
  · rw [h] at again
    exact Downgrading.isHarmless_of_decide single again
  · rw [h] at again
    exact absurd rfl again

end RetryPolicy

end RequestEngine
