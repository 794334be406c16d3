/-
  RequestEngine.Proofs.Retry.Lowering

  When the provided retry policies change the level.  Only the downgrading
  policy does, only after the first attempt of an execution, and only to one of
  the levels three, two and one.
-/
import RequestEngine.Proofs.Retry.Caution

namespace RequestEngine

variable {a : FailedAttempt} {level : Level}

@[simp] theorem retryElsewhereIf_level? (idempotent : Bool) :
    (retryElsewhereIf idempotent).level? = none := by
  cases idempotent <;> rfl

-- ============================================================================
-- The standard policy
-- ============================================================================

theorem Standard.onDatabaseError_level? (a : FailedAttempt) (error : DatabaseError) :
    (onDatabaseError a error).level? = none := by
  cases error with
  | overloaded | serverError | truncateError => exact retryElsewhereIf_level? _
  | unavailable | readTimeout | writeTimeout =>
    simp only [onDatabaseError]
    split <;> rfl
  | _ => rfl

/-- The standard policy never changes the level. -/
theorem Standard.decide_level? (a : FailedAttempt) : (decide a).level? = none := by
  unfold decide
  split
  · rfl
  · cases a.error with
    | broken | timeout => exact retryElsewhereIf_level? _
    | pool | unexpected => rfl
    | database error reason => exact onDatabaseError_level? a error

-- ============================================================================
-- The downgrading policy
-- ============================================================================

/-- The levels that the downgrading policy settles for. -/
def Level.fallbacks : List Level :=
  [.three, .two, .one]

namespace Downgrading

theorem mem_fallbacks_of_reachable {known : Int} {wanted : Level}
    (lowered : (reachable known wanted).level? = some level) : level ∈ Level.fallbacks := by
  unfold reachable at lowered
  split at lowered
  · cases lowered
    decide
  split at lowered
  · cases lowered
    decide
  split at lowered
  · cases lowered
    decide
  · cases lowered

/-- A level is lowered after the first attempt only. -/
theorem isFirst_of_onDatabaseError {error : DatabaseError}
    (lowered : (onDatabaseError a error).level? = some level) :
    a.isFirst = true ∧ level ∈ Level.fallbacks := by
  cases error with
  | overloaded | serverError | truncateError =>
    simp [onDatabaseError] at lowered
  | unavailable =>
    simp only [onDatabaseError] at lowered
    split at lowered
    · rename_i first
      exact ⟨first, mem_fallbacks_of_reachable lowered⟩
    · cases lowered
  | readTimeout =>
    simp only [onDatabaseError] at lowered
    split at lowered
    · cases lowered
    rename_i first
    refine ⟨by simpa using first, ?_⟩
    split at lowered
    · exact mem_fallbacks_of_reachable lowered
    split at lowered <;> cases lowered
  | writeTimeout =>
    simp only [onDatabaseError] at lowered
    split at lowered
    · cases lowered
    rename_i first
    simp only [Bool.or_eq_true, Bool.not_eq_true', not_or, Bool.not_eq_false] at first
    refine ⟨first.1, ?_⟩
    split at lowered
    · exact mem_fallbacks_of_reachable lowered
    · cases lowered
    · cases lowered
  | _ => cases lowered

theorem isFirst_of_decide (lowered : (decide a).level? = some level) :
    a.isFirst = true ∧ level ∈ Level.fallbacks := by
  unfold decide at lowered
  split at lowered
  · split at lowered <;> cases lowered
  · split at lowered
    · simp at lowered
    · simp at lowered
    · cases lowered
    · exact isFirst_of_onDatabaseError lowered
    · cases lowered

end Downgrading

-- ============================================================================
-- All provided policies
-- ============================================================================

/-- A provided policy that changes the level is the downgrading one, and does so after the first
    attempt of an execution. -/
theorem RetryPolicy.IsProvided.lowers {p : RetryPolicy} (h : p.IsProvided)
    (lowered : (p.decide a).level? = some level) :
    p.decide = downgrading.decide ∧ a.isFirst = true ∧ level ∈ Level.fallbacks := by
  rcases h with h | h | h <;> rw [h] at lowered
  · have hnone := Standard.decide_level? a
    exact absurd (hnone.symm.trans lowered) (by simp)
  · exact ⟨h, Downgrading.isFirst_of_decide lowered⟩
  · cases lowered

end RequestEngine
