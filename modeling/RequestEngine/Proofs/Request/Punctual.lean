/-
  RequestEngine.Proofs.Request.Punctual

  Runs whose timers fire when they are due.  A run leaves open at which moments
  its steps are taken; a punctual one is under a clock that goes forward and does
  not pass an alarm by more than a tolerance, the resolution of the timers.
  Steps that have no time of their own, such as an answer that arrives or an
  observer that has been told, may still be taken at any moment.

    * `State.alarms` — when a request wants to be woken: at the time limit of an
      attempt that waits for its answer, at the next speculative execution, at
      its deadline;
    * `Punctual`     — what the clock may do from one step to the next.
-/
import RequestEngine.Proofs.Request.Run

namespace RequestEngine

namespace Instant

theorem le_refl (t : Instant) : t ≤ t := Nat.le_refl _

theorem le_trans {a b c : Instant} (h : a ≤ b) (h' : b ≤ c) : a ≤ c := Nat.le_trans h h'

theorem le_after (t : Instant) (d : Duration) : t ≤ t.after d := Nat.le_add_right ..

theorem after_le_after {a b : Instant} (h : a ≤ b) (d : Duration) : a.after d ≤ b.after d :=
  Nat.add_le_add_right h _

theorem le_later_left (a b : Instant) : a ≤ a.later b := by
  unfold later
  split
  · assumption
  · exact le_refl a

theorem le_later_right (a b : Instant) : b ≤ a.later b := by
  unfold later
  split
  · exact le_refl b
  · exact Nat.le_of_lt (Nat.not_le.mp ‹_›)

theorem later_le {a b c : Instant} (ha : a ≤ c) (hb : b ≤ c) : a.later b ≤ c := by
  unfold later
  split
  · exact hb
  · exact ha

theorem after_zero (t : Instant) : t.after ⟨0⟩ = t := rfl

theorem le_antisymm {a b : Instant} (h : a ≤ b) (h' : b ≤ a) : a = b := by
  obtain ⟨⟨x⟩⟩ := a
  obtain ⟨⟨y⟩⟩ := b
  have hxy : x = y := Nat.le_antisymm h h'
  rw [hxy]

theorem not_le {a b : Instant} : ¬ a ≤ b ↔ b < a := Nat.not_le

theorem lt_or_eq_of_le {a b : Instant} (h : a ≤ b) : a < b ∨ a = b := by
  by_cases hlt : a < b
  · exact .inl hlt
  · exact .inr (le_antisymm h (Nat.le_of_not_lt hlt))

end Instant

/-- When an attempt that waits for its answer runs out of time. -/
def Execution.expiry? (s : Settings) (deadline : Option Instant) (e : Execution) :
    Option Instant :=
  match e.phase with
  | .exchanging a _ => (s.attemptExpiry deadline a.started).map Prod.fst
  | _ => none

namespace Request

/-! ## Alarms -/

/-- When a running request wants to be woken. -/
def Running.alarms (s : Settings) (r : Running) : List Instant :=
  r.executions.filterMap (Execution.expiry? s r.deadline) ++
    (r.timer.map Timer.due).toList ++
      if r.deadlinePassed then [] else r.deadline.toList

/-- When a request wants to be woken. -/
def State.alarms (s : Settings) : State → List Instant
  | .running r => r.alarms s
  | _ => []

/-- The time of the latest step. -/
def clock (ts : List Transition) : Instant :=
  (ts.getLast?.map (·.moment.now)).getD Instant.start

/-- The clock goes forward, and while it does it passes no alarm by more than a tolerance.  An
    alarm that was set for a time already gone keeps the clock where it is. -/
structure Punctual (s : Settings) (tolerance : Duration) (before : List Transition)
    (t : Transition) : Prop where
  forward : clock before ≤ t.moment.now
  onTime : ∀ alarm ∈ t.source.alarms s, clock before < t.moment.now →
    t.moment.now ≤ alarm.after tolerance

theorem punctual_iff {s : Settings} {tolerance : Duration} {before : List Transition}
    {t : Transition} : Punctual s tolerance before t ↔ clock before ≤ t.moment.now ∧
      ∀ alarm ∈ t.source.alarms s, clock before < t.moment.now →
        t.moment.now ≤ alarm.after tolerance :=
  ⟨fun h => ⟨h.forward, h.onTime⟩, fun h => ⟨h.1, h.2⟩⟩

instance (s : Settings) (tolerance : Duration) (before : List Transition) (t : Transition) :
    Decidable (Punctual s tolerance before t) :=
  decidable_of_iff _ punctual_iff.symm

section Alarms

variable {s : Settings} {r : Running} {tolerance : Duration} {before : List Transition}
  {t : Transition}

@[simp] theorem clock_concat (ts : List Transition) (t : Transition) :
    clock (ts ++ [t]) = t.moment.now := by
  simp [clock]

theorem expiry_mem_alarms {e : Execution} {alarm : Instant} (mem : e ∈ r.executions)
    (expiry : e.expiry? s r.deadline = some alarm) : alarm ∈ (State.running r).alarms s := by
  refine List.mem_append_left _ (List.mem_append_left _ ?_)
  exact List.mem_filterMap.mpr ⟨e, mem, expiry⟩

theorem timer_mem_alarms {timer : Timer} (set : r.timer = some timer) :
    timer.due ∈ (State.running r).alarms s := by
  refine List.mem_append_left _ (List.mem_append_right _ ?_)
  simp [set]

theorem deadline_mem_alarms {deadline : Instant} (set : r.deadline = some deadline)
    (ahead : r.deadlinePassed = false) : deadline ∈ (State.running r).alarms s := by
  refine List.mem_append_right _ ?_
  simp [set, ahead]

/-- What was not overdue before a punctual step is not overdue after it. -/
theorem Punctual.ahead {alarm : Instant} (h : Punctual s tolerance before t)
    (mem : alarm ∈ t.source.alarms s) (past : clock before ≤ alarm.after tolerance) :
    t.moment.now ≤ alarm.after tolerance := by
  by_cases hpasses : clock before < t.moment.now
  · exact h.onTime alarm mem hpasses
  · exact Instant.le_trans (Instant.le_of_not_lt hpasses) past

end Alarms

end Request

end RequestEngine
