/-
  RequestEngine.Proofs.Retry.Comparison

  The downgrading policy against the standard one.  The two decide alike unless a
  first attempt failed for want of replicas.  Then the downgrading policy settles
  for a level that the replicas that are known can reach, if there is one.

    * `FailedAttempt.shortage?` — the failures for want of replicas, with the
      number of replicas that were known and the number that was required;
    * `Level.counted`           — the levels to settle for, with the replicas they need;
    * `Downgrading.decide_of_shortage`, `decide_of_no_shortage` — what is decided then,
      and otherwise;
    * `Downgrading.comparison`  — all that the two policies have in common.
-/
import RequestEngine.Proofs.Retry.Lowering

namespace RequestEngine

-- ============================================================================
-- Failures for want of replicas
-- ============================================================================

/-- How many replicas were known to be there, and how many were required. -/
structure Shortage where
  known : Int
  required : Int
  deriving DecidableEq, Repr

/-- What a first attempt found that failed for want of replicas. A write counts only if it is an
    unlogged batch that may run twice. -/
def FailedAttempt.shortage? (a : FailedAttempt) : Option Shortage :=
  if a.isFirst then
    match a.error with
    | .database (.unavailable _ required alive) _ => some ⟨alive, required⟩
    | .database (.readTimeout _ received required _) _ =>
      if received < required then some ⟨received, required⟩ else none
    | .database (.writeTimeout _ received required .unloggedBatch) _ =>
      if a.idempotent then some ⟨received, required⟩ else none
    | _ => none
  else none

/-- The levels that the downgrading policy settles for, each with the number of replicas that it
    needs. -/
def Level.counted : List (Level × Int) :=
  [(.three, 3), (.two, 2), (.one, 1)]

/-- The number of replicas that the highest level needs that so many replicas can reach. -/
def Level.IsHighest (known replicas : Int) : Prop :=
  replicas ≤ known ∧ ∀ x ∈ counted, x.2 ≤ known → x.2 ≤ replicas

theorem Level.isSerial_of_mem_fallbacks {level : Level} (fallback : level ∈ fallbacks) :
    level.isSerial = false := by
  revert level
  decide

-- ============================================================================
-- The standard policy
-- ============================================================================

namespace Standard

/-- At a serial level the policy never goes on. -/
theorem decide_of_serial {a : FailedAttempt} (serial : a.level.isSerial = true) :
    decide a = .rethrow :=
  if_pos serial

/-- The policy never calls an error harmless. -/
theorem decide_ne_ignore (a : FailedAttempt) : decide a ≠ .ignore := by
  have hclass : ∀ idempotent : Bool, retryElsewhereIf idempotent ≠ .ignore := by decide
  unfold decide
  split
  · exact Decision.noConfusion
  cases a.error with
  | broken | timeout => exact hclass a.idempotent
  | pool | unexpected => exact Decision.noConfusion
  | database error reason =>
    cases error with
    | overloaded | serverError | truncateError => exact hclass a.idempotent
    | unavailable | readTimeout | writeTimeout =>
      simp only [onDatabaseError]
      split <;> exact Decision.noConfusion
    | _ => exact Decision.noConfusion

end Standard

-- ============================================================================
-- What is within reach
-- ============================================================================

namespace Downgrading

variable {a : FailedAttempt} {known : Int} {wanted : Level} {s : Shortage}

/-- What is within reach is the highest level that the known replicas can reach. -/
theorem reachable_of_pos (alive : 1 ≤ known) (wanted : Level) :
    ∃ level replicas, reachable known wanted = .retrySame (some level) ∧
      (level, replicas) ∈ Level.counted ∧ Level.IsHighest known replicas := by
  have hcounted : ∀ bound : Int, (∀ x ∈ Level.counted, x.2 ≤ known → x.2 ≤ bound) ↔
      (3 ≤ known → 3 ≤ bound) ∧ (2 ≤ known → 2 ≤ bound) ∧ (1 ≤ known → 1 ≤ bound) := by
    intro bound
    simp [Level.counted]
  unfold reachable
  by_cases h3 : 3 ≤ known
  · refine ⟨.three, 3, if_pos h3, by decide, h3, ?_⟩
    rw [hcounted]
    omega
  rw [if_neg h3]
  by_cases h2 : known = 2
  · refine ⟨.two, 2, if_pos h2, by decide, by omega, ?_⟩
    rw [hcounted]
    omega
  · have h1 : known = 1 := by omega
    rw [if_neg h2, if_pos (.inl h1)]
    refine ⟨.one, 1, rfl, by decide, by omega, ?_⟩
    rw [hcounted]
    omega

/-- With no known replica nothing is within reach, but a level that counts them by datacenter is
    lowered to one. -/
theorem reachable_of_dead (dead : known ≤ 0) : reachable known wanted =
    if wanted = .eachQuorum then .retrySame (some .one) else .rethrow := by
  have hnotone : known ≠ 1 := by omega
  rw [reachable, if_neg (by omega), if_neg (by omega)]
  simp only [hnotone, false_or]

/-- Nothing is within reach if no replica is known, unless the level counts them by datacenter. -/
theorem reachable_eq_rethrow_iff :
    reachable known wanted = .rethrow ↔ known ≤ 0 ∧ wanted ≠ .eachQuorum := by
  by_cases hdead : known ≤ 0
  · rw [reachable_of_dead hdead]
    by_cases heach : wanted = .eachQuorum <;> simp [hdead, heach]
  · obtain ⟨level, replicas, hreach, -⟩ := reachable_of_pos (by omega : 1 ≤ known) wanted
    rw [hreach]
    exact iff_of_false Decision.noConfusion fun lost => hdead lost.1

/-- A level within reach is named, even if it is the one that was wanted. -/
theorem reachable_ne_retrySame_none : reachable known wanted ≠ .retrySame none := by
  intro hsame
  by_cases hdead : known ≤ 0
  · rw [reachable_of_dead hdead] at hsame
    split at hsame <;> cases hsame
  · obtain ⟨level, replicas, hreach, -⟩ := reachable_of_pos (by omega : 1 ≤ known) wanted
    rw [hreach] at hsame
    cases hsame

-- ============================================================================
-- Decisions
-- ============================================================================

/-- A shortage was met by a first attempt. -/
theorem isFirst_of_shortage (short : a.shortage? = some s) : a.isFirst = true := by
  cases hfirst : a.isFirst with
  | true => rfl
  | false =>
    rw [FailedAttempt.shortage?, hfirst] at short
    cases short

/-- Where replicas are wanting, the policy goes by those that are known. -/
theorem decide_of_shortage (plain : a.level.isSerial = false) (short : a.shortage? = some s) :
    decide a = reachable s.known a.level := by
  have hfirst := isFirst_of_shortage short
  rw [FailedAttempt.shortage?, if_pos hfirst] at short
  rw [decide, if_neg (by simp [plain])]
  cases herror : a.error with
  | broken | pool | timeout | unexpected =>
    rw [herror] at short
    cases short
  | database error reason =>
    rw [herror] at short
    show onDatabaseError a error = _
    cases error with
    | unavailable level required alive =>
      cases short
      show (if a.isFirst then reachable alive a.level else .rethrow) = _
      exact if_pos hfirst
    | readTimeout level received required dataPresent =>
      simp only [Option.ite_none_right_eq_some, Option.some.injEq] at short
      obtain ⟨hfewer, rfl⟩ := short
      simp [onDatabaseError, hfirst, hfewer]
    | writeTimeout level received required writeType =>
      cases writeType with
      | unloggedBatch =>
        simp only [Option.ite_none_right_eq_some, Option.some.injEq] at short
        obtain ⟨hidempotent, rfl⟩ := short
        simp [onDatabaseError, hfirst, hidempotent]
      | _ => cases short
    | _ => cases short

/-- Errors of the database that are no sign of a shortage. -/
theorem onDatabaseError_of_no_shortage {error : DatabaseError} {reason : String}
    (herror : a.error = .database error reason) (enough : a.shortage? = none) :
    onDatabaseError a error = Standard.onDatabaseError a error := by
  rw [FailedAttempt.shortage?, herror] at enough
  cases error with
  | unavailable level required alive =>
    have hlater : a.isFirst = false := by simpa using enough
    simp [onDatabaseError, Standard.onDatabaseError, hlater]
  | readTimeout level received required dataPresent =>
    by_cases hfirst : a.isFirst = true
    · have hfewer : ¬ received < required := by simpa [hfirst] using enough
      have hreached : required ≤ received := by omega
      cases dataPresent <;>
        simp [onDatabaseError, Standard.onDatabaseError, hfirst, hfewer, hreached]
    · simp [onDatabaseError, Standard.onDatabaseError, hfirst]
  | writeTimeout level received required writeType =>
    by_cases hfirst : a.isFirst = true
    · cases hidempotent : a.idempotent with
      | false => simp [onDatabaseError, Standard.onDatabaseError, hfirst, hidempotent]
      | true =>
        cases writeType with
        | unloggedBatch => simp [hfirst, hidempotent] at enough
        | _ => simp [onDatabaseError, Standard.onDatabaseError, hfirst, hidempotent]
    · simp [onDatabaseError, Standard.onDatabaseError, hfirst]
  | _ => rfl

/-- Where replicas are not wanting, the policy decides like the standard one. -/
theorem decide_of_no_shortage (plain : a.level.isSerial = false) (enough : a.shortage? = none) :
    decide a = Standard.decide a := by
  have hplain : ¬ a.level.isSerial = true := by simp [plain]
  rw [decide, if_neg hplain, Standard.decide, if_neg hplain]
  cases herror : a.error with
  | database error reason => exact onDatabaseError_of_no_shortage herror enough
  | _ => rfl

/-- At a serial level only the want of replicas is worth another node. -/
theorem decide_of_serial (serial : a.level.isSerial = true) :
    decide a = if a.error.errorType = .unavailable then .retryNext none else .rethrow := by
  rw [decide, if_pos serial]
  cases a.error with
  | database error reason => cases error <;> rfl
  | _ => rfl

/-- The policy never calls an error harmless. -/
theorem decide_ne_ignore (a : FailedAttempt) : decide a ≠ .ignore := by
  intro hignore
  cases hserial : a.level.isSerial with
  | true =>
    rw [decide_of_serial hserial] at hignore
    split at hignore <;> cases hignore
  | false =>
    cases hshort : a.shortage? with
    | none =>
      rw [decide_of_no_shortage hserial hshort] at hignore
      exact Standard.decide_ne_ignore a hignore
    | some s =>
      rw [decide_of_shortage hserial hshort] at hignore
      by_cases hdead : s.known ≤ 0
      · rw [reachable_of_dead hdead] at hignore
        split at hignore <;> cases hignore
      · obtain ⟨level, replicas, hreach, -⟩ := reachable_of_pos (by omega : 1 ≤ s.known) a.level
        rw [hreach] at hignore
        cases hignore

/-- A level that the policy retries at is not a serial one. -/
theorem level?_ne_serial {level : Level} (carried : (decide a).level? = some level) :
    level.isSerial = false :=
  Level.isSerial_of_mem_fallbacks (isFirst_of_decide carried).2

/-- After a shortage the policy settles for the highest level that is within reach, if it goes
    on. -/
theorem lowers_of_shortage (plain : a.level.isSerial = false) (short : a.shortage? = some s)
    (lowered : decide a ≠ .rethrow) :
    ∃ level replicas, decide a = .retrySame (some level) ∧ (level, replicas) ∈ Level.counted ∧
      (Level.IsHighest s.known replicas ∨
        s.known ≤ 0 ∧ a.level = .eachQuorum ∧ level = .one) := by
  rw [decide_of_shortage plain short] at lowered ⊢
  by_cases hdead : s.known ≤ 0
  · have heach : a.level = .eachQuorum :=
      Decidable.byContradiction fun hcounts =>
        lowered (reachable_eq_rethrow_iff.mpr ⟨hdead, hcounts⟩)
    refine ⟨.one, 1, ?_, by decide, .inr ⟨hdead, heach, rfl⟩⟩
    rw [reachable_of_dead hdead, if_pos heach]
  · obtain ⟨level, replicas, hreach, hcounted, hhighest⟩ :=
      reachable_of_pos (by omega : 1 ≤ s.known) a.level
    exact ⟨level, replicas, hreach, hcounted, .inl hhighest⟩

/-- With fewer replicas than required, but some, the policy settles for a level that needs
    fewer than were required. -/
theorem fewer_of_shortage (plain : a.level.isSerial = false) (short : a.shortage? = some s)
    (alive : 1 ≤ s.known) (wanting : s.known < s.required) :
    ∃ level replicas, decide a = .retrySame (some level) ∧ (level, replicas) ∈ Level.counted ∧
      replicas < s.required := by
  rw [decide_of_shortage plain short]
  obtain ⟨level, replicas, hreach, hcounted, hreached, -⟩ := reachable_of_pos alive a.level
  refine ⟨level, replicas, hreach, hcounted, ?_⟩
  show replicas < s.required
  omega

-- ============================================================================
-- The comparison
-- ============================================================================

/-- How the two policies compare on a failed attempt. -/
structure Compared (a : FailedAttempt) : Prop where
  /-- Without a shortage they decide alike. -/
  same : a.level.isSerial = false → a.shortage? = none → decide a = Standard.decide a
  /-- A shortage goes to the caller if nothing is known to be within reach. -/
  rethrows : a.level.isSerial = false → ∀ s, a.shortage? = some s →
    (decide a = .rethrow ↔ s.known ≤ 0 ∧ a.level ≠ .eachQuorum)
  /-- Otherwise the node is asked again, at the highest level within reach. -/
  lowers : a.level.isSerial = false → ∀ s, a.shortage? = some s → decide a ≠ .rethrow →
    ∃ level replicas, decide a = .retrySame (some level) ∧ (level, replicas) ∈ Level.counted ∧
      (Level.IsHighest s.known replicas ∨ s.known ≤ 0 ∧ a.level = .eachQuorum ∧ level = .one)
  /-- That level needs fewer replicas than were required. -/
  fewer : a.level.isSerial = false → ∀ s, a.shortage? = some s → 1 ≤ s.known →
    s.known < s.required →
    ∃ level replicas, decide a = .retrySame (some level) ∧ (level, replicas) ∈ Level.counted ∧
      replicas < s.required
  /-- At a serial level the standard policy never goes on, this one does if replicas were
      unavailable. -/
  serial : a.level.isSerial = true → Standard.decide a = .rethrow ∧
    decide a = if a.error.errorType = .unavailable then .retryNext none else .rethrow
  /-- Neither calls an error harmless. -/
  neverIgnores : decide a ≠ .ignore ∧ Standard.decide a ≠ .ignore
  /-- Neither asks for a serial level. -/
  neverSerial : ∀ level, (decide a).level? = some level ∨ (Standard.decide a).level? = some level →
    level.isSerial = false

/-- The downgrading policy decides like the standard one, shortages and serial levels apart. -/
theorem comparison (a : FailedAttempt) : Compared a where
  same := decide_of_no_shortage
  rethrows plain s short := by
    rw [decide_of_shortage plain short]
    exact reachable_eq_rethrow_iff
  lowers plain s short := lowers_of_shortage plain short
  fewer plain s short := fewer_of_shortage plain short
  serial serial := ⟨Standard.decide_of_serial serial, decide_of_serial serial⟩
  neverIgnores := ⟨decide_ne_ignore a, Standard.decide_ne_ignore a⟩
  neverSerial level carried := by
    rcases carried with hdown | hstandard
    · exact level?_ne_serial hdown
    · rw [Standard.decide_level?] at hstandard
      cases hstandard

example : decide ⟨.database (.unavailable .all 3 2) "", false, .all, 1⟩ =
    .retrySame (some .two) := rfl

end Downgrading

end RequestEngine
