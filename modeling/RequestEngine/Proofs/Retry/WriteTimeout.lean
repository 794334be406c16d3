/-
  RequestEngine.Proofs.Retry.WriteTimeout

  Which writes that timed out the provided retry policies send again.  The answer
  depends on the kind of the write, which the error names by a wire text: the
  standard policy repeats a write to the batch log, the downgrading one an
  unlogged batch as well, and no other write is repeated.

    * `LateWrite`              — what a policy is told but for the kind of the write;
    * `Standard.decide_failed`, `Downgrading.decide_failed` — what is decided;
    * `RetryPolicy.GoesByText` — a policy knows some kinds, each by one text;
    * `RetryPolicy.IsProvided.text_of_resent` — the same for the provided policies,
      from the decision back to the text.
-/
import RequestEngine.Proofs.Failure.WriteType
import RequestEngine.Proofs.Retry.Comparison

namespace RequestEngine

-- ============================================================================
-- Writes that timed out
-- ============================================================================

/-- All that a retry policy is told about a write that timed out, but for the kind of the write:
    what else the error says, and what the attempt was. -/
structure LateWrite where
  level : Level
  received : Int
  required : Int
  reason : String
  idempotent : Bool
  wanted : Level
  number : Nat

namespace LateWrite

/-- The failed attempt, if the write was of a given kind. -/
def failed (t : LateWrite) (w : WriteType) : FailedAttempt where
  error := .database (.writeTimeout t.level t.received t.required w) t.reason
  idempotent := t.idempotent
  level := t.wanted
  number := t.number

@[simp] theorem isFirst_failed (t : LateWrite) (w : WriteType) :
    (t.failed w).isFirst = decide (t.number ≤ 1) := rfl

@[simp] theorem level_failed (t : LateWrite) (w : WriteType) :
    (t.failed w).level = t.wanted := rfl

@[simp] theorem idempotent_failed (t : LateWrite) (w : WriteType) :
    (t.failed w).idempotent = t.idempotent := rfl

/-- The write may be sent again at all: it was a first attempt, at a level that is not serial, to
    execute a statement that may run twice. -/
def IsRepeatable (t : LateWrite) : Prop :=
  t.wanted.isSerial = false ∧ t.number ≤ 1 ∧ t.idempotent = true

instance (t : LateWrite) : Decidable t.IsRepeatable :=
  inferInstanceAs (Decidable (_ ∧ _ ∧ _))

theorem not_isRepeatable_of_serial {t : LateWrite} (serial : t.wanted.isSerial = true) :
    ¬ t.IsRepeatable := by
  rintro ⟨hplain, -⟩
  exact Bool.false_ne_true (hplain.symm.trans serial)

/-- A first attempt at the default level, to which one replica answered in time. -/
def sample : LateWrite :=
  ⟨default, 1, 2, "", true, default, 1⟩

end LateWrite

-- ============================================================================
-- Decisions
-- ============================================================================

variable {t : LateWrite} {w : WriteType}

/-- The standard policy repeats writes to the batch log. -/
theorem Standard.decide_failed (t : LateWrite) (w : WriteType) : decide (t.failed w) =
    if t.IsRepeatable ∧ w = .batchLog then .retrySame none else .rethrow := by
  cases hserial : t.wanted.isSerial with
  | true =>
    rw [decide_of_serial hserial,
      if_neg fun h => LateWrite.not_isRepeatable_of_serial hserial h.1]
  | false =>
    have hrule : ((t.failed w).isFirst && (t.failed w).idempotent &&
        Decidable.decide (w = .batchLog)) = true ↔ t.IsRepeatable ∧ w = .batchLog := by
      simp [LateWrite.IsRepeatable, hserial]
    rw [decide, if_neg (by simp [hserial])]
    exact if_congr hrule rfl rfl

theorem Standard.decide_failed_ne_rethrow :
    decide (t.failed w) ≠ .rethrow ↔ t.IsRepeatable ∧ w = .batchLog := by
  rw [decide_failed]
  split <;> simp [*]

namespace Downgrading

/-- A repeatable unlogged batch is a write that timed out for want of replicas. -/
theorem shortage?_of_repeatable (repeatable : t.IsRepeatable) :
    (t.failed .unloggedBatch).shortage? = some ⟨t.received, t.required⟩ := by
  obtain ⟨-, hfirst, hidempotent⟩ := repeatable
  rw [FailedAttempt.shortage?, if_pos (by simpa using hfirst)]
  exact if_pos hidempotent

/-- There is no other such write. -/
theorem shortage?_of_not_repeatable (plain : t.wanted.isSerial = false)
    (other : ¬ (t.IsRepeatable ∧ w = .unloggedBatch)) : (t.failed w).shortage? = none := by
  cases w with
  | unloggedBatch =>
    rw [FailedAttempt.shortage?]
    split
    · rename_i hfirst
      refine if_neg fun hidempotent => other ⟨⟨plain, ?_, hidempotent⟩, rfl⟩
      simpa using hfirst
    · rfl
  | _ => exact ite_self none

/-- The downgrading policy repeats unlogged batches at a level within reach, and decides about all
    other writes like the standard policy. -/
theorem decide_failed (t : LateWrite) (w : WriteType) : Downgrading.decide (t.failed w) =
    if t.IsRepeatable ∧ w = .unloggedBatch then reachable t.received t.wanted
      else Standard.decide (t.failed w) := by
  cases hserial : t.wanted.isSerial with
  | true =>
    have hdown : Downgrading.decide (t.failed w) = .rethrow := decide_of_serial hserial
    rw [hdown, if_neg fun h => LateWrite.not_isRepeatable_of_serial hserial h.1]
    exact (Standard.decide_of_serial hserial).symm
  | false =>
    split
    · rename_i hlost
      obtain ⟨hrepeatable, rfl⟩ := hlost
      exact decide_of_shortage hserial (shortage?_of_repeatable hrepeatable)
    · rename_i henough
      exact decide_of_no_shortage hserial (shortage?_of_not_repeatable hserial henough)

/-- The downgrading policy repeats writes of two kinds only. -/
theorem kind_of_decide_failed (again : Downgrading.decide (t.failed w) ≠ .rethrow) :
    t.IsRepeatable ∧ (w = .batchLog ∨ w = .unloggedBatch) := by
  rw [decide_failed] at again
  split at again
  · rename_i hunlogged
    exact ⟨hunlogged.1, .inr hunlogged.2⟩
  · obtain ⟨hrepeatable, hlog⟩ := Standard.decide_failed_ne_rethrow.mp again
    exact ⟨hrepeatable, .inl hlog⟩

end Downgrading

-- ============================================================================
-- Policies that go by the text
-- ============================================================================

namespace RetryPolicy

/-- The policy makes no difference between two kinds: it decides the same about both, with the same
    remark. -/
def Likens (p : RetryPolicy) (t : LateWrite) (w w' : WriteType) : Prop :=
  p.decide (t.failed w) = p.decide (t.failed w') ∧
    p.remark (t.failed w) = p.remark (t.failed w')

/-- A policy knows some kinds of writes, each by one text. -/
structure GoesByText (p : RetryPolicy) (kinds : List (String × WriteType)) : Prop where
  /-- A write is treated like one of these kinds exactly if its text is the one of this kind. -/
  treats : ∀ x ∈ kinds, ∀ s, (∀ t, p.Likens t (.ofWire s) x.2) ↔ s = x.1
  /-- Wherever a write of the kind is sent again, no other text is treated like it. -/
  tells : ∀ x ∈ kinds, ∀ t : LateWrite, p.decide (t.failed x.2) ≠ .rethrow → ∀ s, s ≠ x.1 →
    ¬ p.Likens t (.ofWire s) x.2
  /-- A write with any other text is given to the caller. -/
  others : ∀ s, s ∉ kinds.map Prod.fst → ∀ t : LateWrite,
    p.decide (t.failed (.ofWire s)) = .rethrow

/-- A policy goes by the text if it tells the kinds that it sends again from all others. -/
theorem GoesByText.of_kinds {p : RetryPolicy} {kinds : List WriteType}
    (known : ∀ w ∈ kinds, w.isOther = false)
    (minds : ∀ w ∈ kinds, ∃ t : LateWrite, p.decide (t.failed w) ≠ .rethrow)
    (tells : ∀ (t : LateWrite) (w w' : WriteType), p.decide (t.failed w) ≠ .rethrow →
      p.decide (t.failed w') = p.decide (t.failed w) → w' = w)
    (others : ∀ (t : LateWrite) (w : WriteType), p.decide (t.failed w) ≠ .rethrow → w ∈ kinds) :
    p.GoesByText (kinds.map fun w => (w.wire, w)) := by
  have hwire : ∀ w ∈ kinds, ∀ s, WriteType.ofWire s = w ↔ s = w.wire := fun w hw _ =>
    WriteType.ofWire_eq_iff_of_known (known w hw)
  refine ⟨?_, ?_, ?_⟩
  · intro x hx s
    obtain ⟨w, hw, rfl⟩ := List.mem_map.mp hx
    rw [← hwire w hw s]
    constructor
    · intro hlikens
      obtain ⟨t, hagain⟩ := minds w hw
      exact tells t w _ hagain (hlikens t).1
    · rintro rfl t
      exact ⟨rfl, rfl⟩
  · intro x hx t hagain s hs hlikens
    obtain ⟨w, hw, rfl⟩ := List.mem_map.mp hx
    exact hs ((hwire w hw s).mp (tells t w _ hagain hlikens.1))
  · intro s hs t
    by_contra hagain
    have hkind := others t _ hagain
    refine hs (List.mem_map.mpr ⟨_, List.mem_map_of_mem hkind, ?_⟩)
    exact WriteType.wire_ofWire s

theorem standard_goesByText : standard.GoesByText [("BATCH_LOG", .batchLog)] := by
  have hkinds : standard.GoesByText ([WriteType.batchLog].map fun w => (w.wire, w)) := by
    refine .of_kinds (by decide) ?_ ?_ ?_
    · intro w hw
      obtain rfl := List.mem_singleton.mp hw
      exact ⟨.sample, by decide⟩
    · intro t w w' hagain hsame
      obtain ⟨-, rfl⟩ := Standard.decide_failed_ne_rethrow.mp hagain
      exact (Standard.decide_failed_ne_rethrow.mp (hsame.trans_ne hagain)).2
    · intro t w hagain
      exact List.mem_singleton.mpr (Standard.decide_failed_ne_rethrow.mp hagain).2
  exact hkinds

theorem downgrading_goesByText : downgrading.GoesByText
    [("BATCH_LOG", .batchLog), ("UNLOGGED_BATCH", .unloggedBatch)] := by
  have hkinds : downgrading.GoesByText
      ([WriteType.batchLog, .unloggedBatch].map fun w => (w.wire, w)) := by
    refine .of_kinds (by decide) ?_ ?_ ?_
    · intro w hw
      refine ⟨.sample, ?_⟩
      revert w
      decide
    · intro t w w' hagain hsame
      -- a repeated batch log keeps its level, and a repeated batch gets another one
      have hlog : Downgrading.decide (t.failed .batchLog) ≠
          Downgrading.decide (t.failed .unloggedBatch) := by
        obtain ⟨hrepeatable, -⟩ := Downgrading.kind_of_decide_failed hagain
        rw [Downgrading.decide_failed, Downgrading.decide_failed, Standard.decide_failed]
        simpa [hrepeatable] using Downgrading.reachable_ne_retrySame_none.symm
      obtain ⟨-, hkind⟩ := Downgrading.kind_of_decide_failed hagain
      obtain ⟨-, hkind'⟩ := Downgrading.kind_of_decide_failed (hsame.trans_ne hagain)
      rcases hkind with rfl | rfl <;> rcases hkind' with rfl | rfl
      · rfl
      · exact absurd hsame.symm hlog
      · exact absurd hsame hlog
      · rfl
    · intro t w hagain
      obtain ⟨-, rfl | rfl⟩ := Downgrading.kind_of_decide_failed hagain <;> decide
  exact hkinds

theorem giveUp_goesByText : giveUp.GoesByText [] where
  treats _ hx := absurd hx List.not_mem_nil
  tells _ hx := absurd hx List.not_mem_nil
  others _ _ _ := rfl

/-- A write that a provided policy does not give to the caller was repeatable, and its text was one
    of two. -/
theorem IsProvided.text_of_resent {p : RetryPolicy} {s : String} (h : p.IsProvided)
    (again : p.decide (t.failed (.ofWire s)) ≠ .rethrow) : t.IsRepeatable ∧
      (s = "BATCH_LOG" ∨ s = "UNLOGGED_BATCH" ∧ p.decide = downgrading.decide) := by
  have hlog : WriteType.ofWire s = .batchLog ↔ s = "BATCH_LOG" :=
    WriteType.ofWire_eq_iff_of_known rfl
  have hunlogged : WriteType.ofWire s = .unloggedBatch ↔ s = "UNLOGGED_BATCH" :=
    WriteType.ofWire_eq_iff_of_known rfl
  rcases h with h | h | h
  · rw [h] at again
    obtain ⟨hrepeatable, hkind⟩ := Standard.decide_failed_ne_rethrow.mp again
    exact ⟨hrepeatable, .inl (hlog.mp hkind)⟩
  · rw [h] at again
    obtain ⟨hrepeatable, hkind⟩ := Downgrading.kind_of_decide_failed again
    exact ⟨hrepeatable, hkind.imp hlog.mp fun hbatch => ⟨hunlogged.mp hbatch, h⟩⟩
  · rw [h] at again
    exact absurd rfl again

end RetryPolicy

end RequestEngine
