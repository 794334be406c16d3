/-
  RequestEngine.Proofs.Request.Expiry

  Attempts that run out of their time.  The limit is measured from the start of
  the attempt and counts only if it ends before the time of the request does.
  It is never early, in any run; and in a punctual one an attempt that still
  waits for its answer when its time ends, or that gets its connection only
  after that, waits no longer.

    * `timeUpAt` — the end of a request's time, measured from the moment when the
      observers had been told of its start;
    * `TimedOut` — what precedes the failure of an attempt for lack of time;
    * `WaitStep` — what may happen to an attempt that waits for its answer.
-/
import Mathlib.Data.List.Chain
import RequestEngine.Proofs.Request.InFlight

namespace RequestEngine

-- ============================================================================
-- Attempts that fail
-- ============================================================================

/-- The failed attempt that an action puts to the retry policy. -/
def Action.failed? : Action → Option FailedAttempt
  | .decide failed _ _ => some failed
  | _ => none

theorem Action.failed?_of_isGeneral {a : Action} (general : a.isGeneral = true) :
    a.failed? = none := by
  cases a with
  | decide => cases general
  | _ => rfl

namespace Execution

variable {s : Settings} {deadline : Option Instant} {m : Moment} {sh : Shared} {e : Execution}
  {event : ExecutionEvent} {advance : Advance} {a : Attempt} {c : Connection}

/-- What only consults puts no failure to the policy. -/
theorem failed_of_quiet {actions : List Action} (quiet : ∀ x ∈ actions, x.isQuiet = true) :
    actions.filterMap Action.failed? = [] := by
  refine List.filterMap_eq_nil_iff.mpr fun x hx => ?_
  have hquiet := quiet x hx
  cases x <;> first | rfl | cases hquiet

theorem Fails.nothing_before {error : AttemptError} {back : List Action}
    (h : Fails s deadline m e event a error back) : back.filterMap Action.failed? = [] := by
  cases h <;> rfl

theorem failed_assess (a : Attempt) (error : AttemptError) :
    (e.assess s m a error).filterMap Action.failed? = [failed s a error] := by
  cases h : error.wasSent <;> rw [assess, h] <;> rfl

theorem abandon_failed (e : Execution) : e.abandon.filterMap Action.failed? = [] := by
  cases hphase : e.phase <;> simp [abandon, connection?, pending?, hphase, Action.failed?]

/-- What a turn puts to the policy is the failure of an attempt. -/
theorem Turn.failed (h : Turn s deadline m sh e event advance) :
    advance.actions.filterMap Action.failed? = [] ∨
      ∃ a error back, Fails s deadline m e event a error back ∧
        advance.actions.filterMap Action.failed? = [Execution.failed s a error] := by
  cases h with
  | starts onward =>
    left
    rw [List.filterMap_append, failed_of_quiet onward.quiet]
    rfl
  | stops onward => exact .inl (failed_of_quiet onward.stopping_quiet)
  | exhausts _ moves take => exact .inl (failed_of_quiet (moves.exhausting_quiet take))
  | asks | sends | succeeds | succeedsLate | returns | throws => exact .inl rfl
  | rethrows fails | fails fails =>
    refine .inr ⟨_, _, _, fails, ?_⟩
    rw [List.filterMap_append, fails.nothing_before, List.filterMap_append, failed_assess]
    rfl
  | failsLate fails asked =>
    refine .inr ⟨_, _, _, fails, ?_⟩
    rw [List.filterMap_append, fails.nothing_before, List.filterMap_append, failed_assess, asked]
    split <;> rfl

/-- An execution whose attempt runs out of time puts that to the policy. -/
theorem Turn.expired (h : Turn s deadline m sh e .expire advance) :
    ∃ a c expiry limit, e.phase = .exchanging a c ∧
      s.attemptExpiry deadline a.started = some (expiry, limit) ∧ expiry ≤ m.now ∧
        advance.actions.filterMap Action.failed? = [Execution.failed s a (.timeout limit)] := by
  cases h with
  | starts onward | stops onward => cases onward
  | rethrows fails | fails fails =>
    cases fails with
    | expired phase bound due =>
      refine ⟨_, _, _, _, phase, bound, due, ?_⟩
      rw [List.filterMap_append, List.filterMap_append, failed_assess]
      rfl
  | failsLate fails asked =>
    cases fails with
    | expired phase bound due =>
      refine ⟨_, _, _, _, phase, bound, due, ?_⟩
      rw [List.filterMap_append, List.filterMap_append, failed_assess, asked]
      split <;> rfl

/-- An execution that waits for an answer meets the answer, or the end of its time. -/
theorem Turn.of_exchanging (h : Turn s deadline m sh e event advance)
    (phase : e.phase = .exchanging a c) :
    (∃ result, event = .answer result) ∨ event = .expire := by
  have none {d : Execution} {sh' : Shared} {lead : List Action}
      (onward : Onward s m sh e event sh' d lead) : False := by
    rcases onward.origin with ⟨before, -⟩ | ⟨_, _, _, before, -⟩ <;> rw [phase] at before <;>
      cases before
  have failing {a : Attempt} {error : AttemptError} {back : List Action}
      (fails : Fails s deadline m e event a error back) :
      (∃ result, event = .answer result) ∨ event = .expire := by
    cases fails with
    | refused before =>
      rw [phase] at before
      cases before
    | broken | database | unexpected => exact .inl ⟨_, rfl⟩
    | expired => exact .inr rfl
  cases h with
  | starts onward | stops onward => exact (none onward).elim
  | exhausts before | asks before | sends before | returns before | throws before =>
    rw [phase] at before
    cases before
  | succeeds | succeedsLate => exact .inl ⟨_, rfl⟩
  | rethrows fails | fails fails | failsLate fails => exact failing fails

/-- Whether its time runs out, and when, is up to the start of an attempt alone. -/
theorem attemptExpiry_eq_some {started expiry : Instant} {limit : Duration} :
    s.attemptExpiry deadline started = some (expiry, limit) ↔
      s.attemptTimeout = some limit ∧ expiry = started.after limit ∧
        ∀ d ∈ deadline, started.after limit < d := by
  unfold Settings.attemptExpiry
  cases s.attemptTimeout with
  | none => simp
  | some own =>
    cases deadline with
    | none =>
      simp only [Option.some.injEq, Prod.mk.injEq, Option.not_mem_none, false_imp_iff,
        implies_true, and_true]
      constructor
      · rintro ⟨rfl, rfl⟩
        exact ⟨rfl, rfl⟩
      · rintro ⟨rfl, rfl⟩
        exact ⟨rfl, rfl⟩
    | some d =>
      simp only [Option.mem_some_iff, forall_eq']
      split
      · rename_i hlate
        simp only [reduceCtorEq, Option.some.injEq, false_iff, not_and]
        rintro rfl - hbefore
        exact absurd hbefore (Nat.not_lt.mpr hlate)
      · rename_i hearly
        simp only [Option.some.injEq, Prod.mk.injEq]
        constructor
        · rintro ⟨rfl, rfl⟩
          exact ⟨rfl, rfl, Instant.not_le.mp hearly⟩
        · rintro ⟨rfl, rfl, -⟩
          exact ⟨rfl, rfl⟩

end Execution

namespace Request

-- ============================================================================
-- The time of an attempt
-- ============================================================================

/-- The end of a request's time: the limit after the observers have been told of its start. -/
def timeUpAt (limit : Option Duration) (ts : List Transition) : Option Instant :=
  ts.head?.bind fun t => limit.map t.moment.now.after

/-- What precedes the failure of an attempt for lack of time: it was started at least the limit
    ago, and the limit ends before the request's time does. -/
structure TimedOut (total own : Option Duration) (before : List Transition) (t : Transition)
    (index number : Nat) (limit : Duration) : Prop where
  bound : own = some limit
  started : ∃ t₀ ∈ before, AnnouncedIn t₀ index number
  passed : ∀ t₀ ∈ before, AnnouncedIn t₀ index number →
    t₀.moment.now.after limit ≤ t.moment.now ∧
      ∀ d ∈ timeUpAt total before, t₀.moment.now.after limit < d

/-- An attempt that waits for its answer under a limit of its own, which ends before the request's
    time does. -/
structure OnTheClock (total own : Option Duration) (ts : List Transition) (r : Running)
    (e : Execution) (a : Attempt) (c : Connection) (limit : Duration) : Prop where
  mem : e ∈ r.executions
  phase : e.phase = .exchanging a c
  bound : own = some limit
  early : ∀ d ∈ timeUpAt total ts, a.started.after limit < d

/-- What may happen in a step to an attempt that waits for its answer and may do so to the last
    moment of its time. -/
inductive WaitStep (s : Settings) (t : Transition) (e : Execution) (a : Attempt) (limit : Duration)
    (last : Instant) : Prop where
  /-- It goes on waiting. -/
  | waits {r' : Running} (target : t.target = .running r') (mem : e ∈ r'.executions) :
      WaitStep s t e a limit last
  /-- Its answer arrives. -/
  | answered {result : Except BrokenConnection Response}
      (arrives : t.event = .execution e.index (.answer result)) : WaitStep s t e a limit last
  /-- It fails for lack of time, at the last moment. -/
  | fails {remark : Option String} {d : Decision} (expires : t.event = .execution e.index .expire)
      (time : t.moment.now = last)
      (decided : ⟨some e.index,
        .decide (Execution.failed s a (.timeout limit)) remark d⟩ ∈ t.deeds) :
      WaitStep s t e a limit last
  /-- The request ends, and drops it. -/
  | dropped (target : ∀ r', t.target ≠ .running r') : WaitStep s t e a limit last

section Attempts

variable {s : Settings} {ts more : List Transition} {t : Transition} {m : Moment}
  {σ σ' : State} {event : Event} {deeds : List Deed} {r : Running} {e : Execution} {a : Attempt}
  {c : Connection} {limit : Duration} {tolerance : Duration}

theorem timeUpAt_append {total : Option Duration} (begun : ts ≠ []) :
    timeUpAt total (ts ++ more) = timeUpAt total ts := by
  cases ts with
  | nil => exact absurd rfl begun
  | cons t ts => rfl

theorem Run.unbegun (h : Run s ts .starting) : ts = [] := by
  refine h.invariant (fun ts σ => σ = .starting → ts = []) (by simp) ?_ rfl
  intro ts m σ event σ' deeds _ _ move hstarting
  exact absurd hstarting move.begun

/-- The deadline of a running request is the end of its time. -/
theorem Run.deadline (h : Run s ts (.running r)) :
    ts ≠ [] ∧ r.deadline = timeUpAt s.requestTimeout ts := by
  refine h.invariant (fun ts σ => ∀ r, σ = .running r →
    ts ≠ [] ∧ r.deadline = timeUpAt s.requestTimeout ts) (by simp) ?_ r rfl
  rintro ts m σ event _ deeds run ih move r' rfl
  refine ⟨by simp, ?_⟩
  rcases move.deadline with ⟨rfl, hdeadline⟩ | ⟨r, rfl, hdeadline⟩
  · rw [run.unbegun, hdeadline]
    rfl
  · obtain ⟨hbegun, hbefore⟩ := ih r rfl
    rw [timeUpAt_append hbegun, hdeadline, hbefore]

/-- A failure that shows was put to the policy. -/
theorem decided_of_failed {actions : List Action} {failed : FailedAttempt}
    (shows : actions.filterMap Action.failed? = [failed]) :
    ∃ remark d, .decide failed remark d ∈ actions := by
  have hmem : failed ∈ actions.filterMap Action.failed? := by
    rw [shows]
    exact List.mem_singleton_self _
  obtain ⟨x, hx, hfails⟩ := List.mem_filterMap.mp hmem
  cases x with
  | decide _ remark d =>
    cases hfails
    exact ⟨remark, d, hx⟩
  | _ => cases hfails

/-- An attempt fails for lack of time only if its time has run out. -/
theorem Run.timedOut (run : Run s ts σ) (move : Move s m σ event σ' deeds) {x : Deed}
    (mem : x ∈ deeds) {failed : FailedAttempt} (fails : x.action.failed? = some failed)
    (error : failed.error = .timeout limit) : ∃ index, x.execution = some index ∧
      TimedOut s.requestTimeout s.attemptTimeout ts ⟨m, σ, event, σ', deeds⟩ index failed.number
        limit := by
  cases howner : x.execution with
  | none =>
    have hgeneral := move.general x mem howner
    rw [Action.failed?_of_isGeneral hgeneral] at fails
    cases fails
  | some index =>
    refine ⟨index, rfl, ?_⟩
    have hx : ⟨some index, x.action⟩ ∈ deeds := by
      rw [← howner]
      exact mem
    obtain ⟨r, rfl, own⟩ := move.ownDeed hx
    cases own with
    | dropped he own done =>
      have hmem := List.mem_filterMap.mpr ⟨x.action, done, fails⟩
      rw [Execution.abandon_failed] at hmem
      cases hmem
    | @turns e met advance he own concerns turn done =>
      have hmem := List.mem_filterMap.mpr ⟨x.action, done, fails⟩
      rcases turn.failed with hnone | ⟨a, cause, back, hfails, hfailed⟩
      · rw [hnone] at hmem
        cases hmem
      · rw [hfailed, List.mem_singleton] at hmem
        subst hmem own
        cases hfails with
        | expired phase bound due =>
          cases error
          obtain ⟨hbound, rfl, hearly⟩ := Execution.attemptExpiry_eq_some.mp bound
          have hattempt : e.attempt? = some a := by rw [Execution.attempt?, phase]
          obtain ⟨t₀, ht₀, hstarted⟩ := run.attempted e he a hattempt
          refine ⟨hbound, ⟨t₀, ht₀, e.node, hstarted.announced⟩, fun t ht hannounced => ?_⟩
          obtain ⟨-, htime⟩ := run.dated e he t ht _ hannounced
          rw [htime a hattempt rfl, ← run.deadline.2]
          exact ⟨due, hearly⟩
        | refused | broken | database | unexpected => cases error

theorem OnTheClock.expiry (h : OnTheClock s.requestTimeout s.attemptTimeout ts r e a c limit)
    (run : Run s ts (.running r)) :
    s.attemptExpiry r.deadline a.started = some (a.started.after limit, limit) := by
  refine Execution.attemptExpiry_eq_some.mpr ⟨h.bound, rfl, ?_⟩
  rw [run.deadline.2]
  exact h.early

/-- From the end of its time on an attempt may fail for lack of it. -/
theorem OnTheClock.mayFail (h : OnTheClock s.requestTimeout s.attemptTimeout ts r e a c limit)
    (run : Run s ts (.running r)) (due : a.started.after limit ≤ m.now) :
    ∃ σ' deeds, step s m (.running r) (.execution e.index .expire) = some (σ', deeds) ∧
      ∃ remark d, ⟨some e.index,
        .decide (Execution.failed s a (.timeout limit)) remark d⟩ ∈ deeds := by
  have hstep : (e.step s r.deadline m r.shared .expire).isSome = true := by
    simp [Execution.step, h.phase, h.expiry run, due]
  obtain ⟨advance, hadvance⟩ := Option.isSome_iff_exists.mp hstep
  have hfind : r.executions.find? (fun o => o.index = e.index) = some e :=
    find?_of_mem run.distinct h.mem
  have htaken : (stepExecution s m r e.index .expire).isSome = true := by
    simp [stepExecution, hfind, hadvance]
  obtain ⟨⟨σ', deeds⟩, hdeeds⟩ := Option.isSome_iff_exists.mp htaken
  refine ⟨σ', deeds, hdeeds, ?_⟩
  obtain ⟨advance, turn, hdone⟩ := (stepExecution_move hdeeds).turn run.distinct h.mem
  obtain ⟨a', c', expiry, limit', phase, bound, -, hfailed⟩ := turn.expired
  obtain ⟨rfl, -⟩ : a = a' ∧ c = c' := by simpa [h.phase] using phase
  rw [h.expiry run] at bound
  cases bound
  obtain ⟨remark, d, hdecided⟩ := decided_of_failed hfailed
  exact ⟨remark, d, hdone _ hdecided⟩

/-- No step was taken later than the clock shows. -/
theorem le_clock (punctual : EachAfter (Punctual s tolerance) ts) :
    ∀ t ∈ ts, t.moment.now ≤ clock ts := by
  induction ts using List.reverseRecOn with
  | nil => simp
  | append_singleton ts t ih =>
    obtain ⟨hbefore, hlast⟩ := EachAfter.concat_iff.mp punctual
    rw [clock_concat]
    refine List.forall_mem_append.mpr ⟨fun x hx => ?_, by simp [Instant.le_refl]⟩
    exact Instant.le_trans (ih hbefore x hx) hlast.forward

/-- What may happen to an attempt that waits for its answer: no more time passes than it has left,
    counted from its start, or none if its connection came later than that. -/
theorem OnTheClock.waitStep (h : OnTheClock s.requestTimeout s.attemptTimeout ts r e a c limit)
    (run : Run s ts (.running r)) (move : Move s m (.running r) event σ' deeds)
    (punctual : EachAfter (Punctual s ⟨0⟩) (ts ++ [⟨m, .running r, event, σ', deeds⟩])) :
    ∃ t' ∈ ts, AcquiredIn t' e a c ∧
      m.now ≤ (a.started.after limit).later t'.moment.now ∧
        WaitStep s ⟨m, .running r, event, σ', deeds⟩ e a limit
          ((a.started.after limit).later t'.moment.now) := by
  obtain ⟨hbefore, hlast⟩ := EachAfter.concat_iff.mp punctual
  obtain ⟨t', ht', hacquired, hbound⟩ := run.acquired e h.mem a c h.phase
  have hexpiry : e.expiry? s r.deadline = some (a.started.after limit) := by
    simp [Execution.expiry?, h.phase, h.expiry run]
  have hclock := hbound ⟨0⟩ hbefore _ hexpiry
  rw [Instant.after_zero] at hclock
  have hnow : m.now ≤ (a.started.after limit).later t'.moment.now := by
    by_cases hpasses : clock ts < m.now
    · have hontime := hlast.onTime _ (expiry_mem_alarms h.mem hexpiry) hpasses
      exact Instant.le_trans hontime (Instant.le_later_left ..)
    · exact Instant.le_trans (Instant.le_of_not_lt hpasses) hclock
  refine ⟨t', ht', hacquired, hnow, ?_⟩
  by_cases hother : ∀ met, event ≠ .execution e.index met
  · cases σ' with
    | running r' => exact .waits rfl (move.remains h.mem hother)
    | starting | concluding | finished | dropped => exact .dropped (by simp)
  · simp only [not_forall, not_not] at hother
    obtain ⟨met, rfl⟩ := hother
    obtain ⟨advance, turn, hdone⟩ := move.turn run.distinct h.mem
    rcases turn.of_exchanging h.phase with ⟨result, rfl⟩ | rfl
    · exact .answered rfl
    · obtain ⟨a', c', expiry, limit', phase, bound, due, hfailed⟩ := turn.expired
      obtain ⟨rfl, -⟩ : a = a' ∧ c = c' := by simpa [h.phase] using phase
      rw [h.expiry run] at bound
      cases bound
      obtain ⟨remark, d, hdecided⟩ := decided_of_failed hfailed
      refine .fails rfl ?_ (hdone _ hdecided)
      have hsince : t'.moment.now ≤ m.now :=
        Instant.le_trans (le_clock hbefore t' ht') hlast.forward
      exact Instant.le_antisymm hnow (Instant.later_le due hsince)

theorem Run.waitSteps (run : Run s ts σ) (punctual : EachAfter (Punctual s ⟨0⟩) ts) :
    EachAfter (fun before t => ∀ r e a c limit, t.source = .running r →
      OnTheClock s.requestTimeout s.attemptTimeout before r e a c limit →
        ∃ t' ∈ before, AcquiredIn t' e a c ∧
          t.moment.now ≤ (a.started.after limit).later t'.moment.now ∧
            WaitStep s t e a limit ((a.started.after limit).later t'.moment.now)) ts := by
  have hall : EachAfter (fun before t => EachAfter (Punctual s ⟨0⟩) (before ++ [t]) →
      ∀ r e a c limit, t.source = .running r →
        OnTheClock s.requestTimeout s.attemptTimeout before r e a c limit →
          ∃ t' ∈ before, AcquiredIn t' e a c ∧
            t.moment.now ≤ (a.started.after limit).later t'.moment.now ∧
              WaitStep s t e a limit ((a.started.after limit).later t'.moment.now)) ts := by
    refine run.eachStep fun before m σ event σ' deeds run move punctual r e a c limit hsource h =>
      ?_
    subst hsource
    exact h.waitStep run move punctual
  intro before t after hsplit
  have hpunctual : EachAfter (Punctual s ⟨0⟩) (before ++ [t] ++ after) := by
    rw [List.append_assoc, List.singleton_append, ← hsplit]
    exact punctual
  exact hall before t after hsplit hpunctual.of_append

end Attempts

end Request

end RequestEngine
