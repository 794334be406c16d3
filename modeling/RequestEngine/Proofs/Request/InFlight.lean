/-
  RequestEngine.Proofs.Request.InFlight

  What becomes of the executions in flight, and since when they do what they do.
  After a step an execution is as it was, has made its own turn, or has just been
  opened; one that a step does not concern stays as long as the request runs.

    * `Arrival`     — how an execution that is in flight after a step came there;
    * `OwnDeed`     — how a deed of an execution comes about;
    * `StartedIn`, `AcquiredIn` — the steps in which an attempt was started, and in
      which it got its connection;
    * `Run.attempted`, `Run.dated`, `Run.acquired` — every attempt in flight
      has had these steps, and waits for its answer no longer than it may.
-/
import RequestEngine.Proofs.Request.Hosts
import RequestEngine.Proofs.Request.Punctual

namespace RequestEngine

namespace Execution

variable {s : Settings} {deadline : Option Instant} {m : Moment} {sh sh' : Shared}
  {e e' : Execution} {event : ExecutionEvent} {actions : List Action} {a : Attempt}

/-- An execution that goes on makes the attempt that it made before, or has just started it. -/
theorem Turn.attempted (h : Turn s deadline m sh e event ⟨sh', .goesOn e', actions⟩)
    (attempt : e'.attempt? = some a) :
    a.started = m.now ∧ .notify (.nodeStarted (e'.host a)) ∈ actions ∨
      e.attempt? = some a ∧ e'.host a = e.host a := by
  cases h with
  | starts onward =>
    obtain rfl : Execution.nextAttempt _ _ = a := Option.some.inj attempt
    refine .inl ⟨rfl, List.mem_append_right _ (List.mem_cons_of_mem _ ?_)⟩
    exact List.mem_singleton_self _
  | asks phase | sends phase | succeeds phase =>
    obtain rfl := Option.some.inj attempt
    exact .inr ⟨by simp [attempt?, phase], rfl⟩
  | rethrows fails | fails fails =>
    obtain rfl := Option.some.inj attempt
    exact .inr ⟨fails.attempt.1, rfl⟩

/-- A turn starts the next attempt, and tells the observers so, or starts none. -/
theorem Turn.counts (h : Turn s deadline m sh e event ⟨sh', .goesOn e', actions⟩) :
    (e'.attempts = e.attempts ∧ ∀ host, .notify (.nodeStarted host) ∉ actions) ∨
      e'.attempts = e.attempts + 1 ∧ ∃ a, e'.phase = .announcing a ∧ a.started = m.now ∧
        a.number = e'.attempts ∧
          ∀ host, .notify (.nodeStarted host) ∈ actions → host = e'.host a := by
  have told {host : HostInfo} (mem : .notify (.nodeStarted host) ∈ actions) :
      .nodeStarted host ∈ e'.told := by
    have hactions : actions.filterMap Action.notice? = e'.told := h.told
    rw [← hactions]
    exact List.mem_filterMap.mpr ⟨_, mem, rfl⟩
  cases h with
  | starts onward =>
    refine .inr ⟨congrArg (· + 1) onward.attempts, _, rfl, rfl, rfl, fun host hmem => ?_⟩
    cases List.mem_singleton.mp (told hmem)
    rfl
  | asks | sends => exact .inl ⟨rfl, fun host hmem => by cases told hmem⟩
  | succeeds | rethrows | fails =>
    refine .inl ⟨rfl, fun host hmem => ?_⟩
    cases List.mem_singleton.mp (told hmem)

/-- An execution that exchanges messages has just got its connection, or was doing so before. -/
theorem Turn.exchanging {c : Connection}
    (h : Turn s deadline m sh e event ⟨sh', .goesOn e', actions⟩)
    (phase : e'.phase = .exchanging a c) :
    e.phase = .acquiring a ∧ event = .connection (.ok c) := by
  cases h with
  | sends before =>
    cases phase
    exact ⟨before, rfl⟩
  | starts | asks | succeeds | rethrows | fails => cases phase

end Execution

namespace Request

-- ============================================================================
-- One step
-- ============================================================================

/-- How an execution that is in flight after a step came there. -/
inductive Arrival (s : Settings) (m : Moment) (σ : State) (event : Event) (deeds : List Deed)
    (o : Execution) : Prop where
  | stays (mem : o ∈ σ.executions) (other : ∀ met, event ≠ .execution o.index met) :
      Arrival s m σ event deeds o
  | turns {r : Running} {e : Execution} {met : ExecutionEvent} {sh : Shared}
      {actions : List Action} (source : σ = .running r) (mem : e ∈ r.executions)
      (concerns : event = .execution e.index met)
      (turn : e.Turn s r.deadline m r.shared met ⟨sh, .goesOn o, actions⟩)
      (done : deeds = Deed.ofExecution e.index actions) : Arrival s m σ event deeds o
  | opens (fresh : o.phase = .fresh) (index : σ.started? = some o.index)
      (general : ∀ d ∈ deeds, d.execution = none) : Arrival s m σ event deeds o

section Steps

variable {s : Settings} {m : Moment} {σ σ' : State} {event : Event} {deeds : List Deed}
  {r r' : Running} {e : Execution}

/-- Every execution in flight came there in one of these ways. -/
theorem Move.arrival (move : Move s m σ event σ' deeds) :
    ∀ o ∈ σ'.executions, Arrival s m σ event deeds o := by
  intro o ho
  have apart {index : Nat} {met : ExecutionEvent} (hne : o.index ≠ index) :
      ∀ met', Event.execution index met ≠ .execution o.index met' := by
    intro met' heq
    exact hne (Event.execution.inj heq).1.symm
  have general {actions : List Action} : ∀ d ∈ Deed.ofRequest actions, d.execution = none :=
    fun _ hd => (Deed.mem_ofRequest.mp hd).1
  cases move with
  | begins =>
    obtain rfl := List.mem_singleton.mp ho
    exact .opens rfl rfl general
  | findsNothing | forgoes | settles | timesOut | drops | finishes | forsakes => cases ho
  | @advances r e e' _ _ _ mem turn =>
    obtain ⟨x, hx, rfl⟩ := List.mem_map.mp ho
    by_cases hindex : x.index = e.index
    · rw [if_pos hindex]
      exact .turns rfl mem rfl turn rfl
    · rw [if_neg hindex] at apart ⊢
      exact .stays hx (apart hindex)
  | cancels mem turn goes | exhausts mem turn goes =>
    obtain ⟨hmem, hother⟩ := List.mem_filter.mp (goes.executions.subset ho)
    exact .stays hmem (apart (by simpa using hother))
  | speculates =>
    rcases List.mem_append.mp ho with ho | ho
    · exact .stays ho (by simp)
    · obtain rfl := List.mem_singleton.mp ho
      exact .opens rfl rfl general
  | speculatesInVain _ _ _ goes => exact .stays (goes.executions.subset ho) (by simp)
  | timesOutLate => exact .stays ho (by simp)

/-- Executions that a step does not concern stay as long as the request runs. -/
theorem Move.remains (move : Move s m (.running r) event (.running r') deeds)
    (mem : e ∈ r.executions) (other : ∀ met, event ≠ .execution e.index met) :
    e ∈ r'.executions := by
  have apart {x : Execution} {met : ExecutionEvent} (same : event = .execution x.index met) :
      e.index ≠ x.index := by
    intro heq
    exact other met (by rw [same, heq])
  generalize htarget : State.running r' = σ' at move
  cases move with
  | advances =>
    cases htarget
    exact List.mem_map.mpr ⟨e, mem, if_neg (apart rfl)⟩
  | cancels _ _ goes | exhausts _ _ goes =>
    subst htarget
    obtain rfl := goes.of_running
    exact List.mem_filter.mpr ⟨mem, by simpa using apart rfl⟩
  | speculates =>
    cases htarget
    exact List.mem_append_left _ mem
  | speculatesInVain _ _ _ goes =>
    subst htarget
    obtain rfl := goes.of_running
    exact mem
  | timesOutLate =>
    cases htarget
    exact mem
  | settles | timesOut | drops => cases htarget

/-- What an event of an execution leads to is its turn. -/
theorem Move.turn {met : ExecutionEvent}
    (move : Move s m (.running r) (.execution e.index met) σ' deeds)
    (distinct : (r.executions.map Execution.index).Nodup) (mem : e ∈ r.executions) :
    ∃ advance, e.Turn s r.deadline m r.shared met advance ∧
      ∀ a ∈ advance.actions, ⟨some e.index, a⟩ ∈ deeds := by
  have own {o : Execution} {actions : List Action} (index : o.index = e.index) :
      ∀ a ∈ actions, (⟨some e.index, a⟩ : Deed) ∈ Deed.ofExecution o.index actions := by
    intro a ha
    exact Deed.mem_ofExecution.mpr ⟨by rw [index], ha⟩
  generalize hevent : Event.execution e.index met = event at move
  cases move with
  | advances other turn =>
    obtain ⟨hindex, rfl⟩ := Event.execution.inj hevent
    obtain rfl := eq_of_index_eq distinct mem other hindex.symm
    exact ⟨_, turn, own rfl⟩
  | settles other turn | cancels other turn | exhausts other turn =>
    obtain ⟨hindex, rfl⟩ := Event.execution.inj hevent
    obtain rfl := eq_of_index_eq distinct mem other hindex.symm
    exact ⟨_, turn, fun a ha => List.mem_append_left _ (own rfl a ha)⟩
  | speculates | speculatesInVain | timesOut | timesOutLate | drops => cases hevent

/-- A deed of an execution in a step: it made its turn, or was dropped. -/
inductive OwnDeed (s : Settings) (m : Moment) (r : Running) (event : Event) (index : Nat)
    (a : Action) : Prop where
  | turns {e : Execution} {met : ExecutionEvent} {advance : Advance} (mem : e ∈ r.executions)
      (own : e.index = index) (concerns : event = .execution index met)
      (turn : e.Turn s r.deadline m r.shared met advance) (done : a ∈ advance.actions) :
      OwnDeed s m r event index a
  | dropped {e : Execution} (mem : e ∈ r.executions) (own : e.index = index)
      (done : a ∈ e.abandon) : OwnDeed s m r event index a

/-- Whatever an execution does in a step is a deed of this kind. -/
theorem Move.ownDeed (move : Move s m σ event σ' deeds) {index : Nat} {a : Action}
    (mem : ⟨some index, a⟩ ∈ deeds) : ∃ r, σ = .running r ∧ OwnDeed s m r event index a := by
  have howns := move.forall_deeds
    (P := fun d => ∀ index, d.execution = some index →
      ∃ r, σ = .running r ∧ OwnDeed s m r event index d.action) ?_ ?_ ?_
  · exact howns _ mem index rfl
  · rintro b - _ ⟨⟩
  · rintro r e met advance running mem concerns turn - b done _ ⟨⟩
    exact ⟨r, running, .turns mem rfl concerns turn done⟩
  · rintro r e running mem b done _ ⟨⟩
    exact ⟨r, running, .dropped mem rfl done⟩

/-- A running request has the deadline that it began with. -/
theorem Move.deadline (move : Move s m σ event (.running r') deeds) :
    (σ = .starting ∧ r'.deadline = s.requestTimeout.map m.now.after) ∨
      ∃ r, σ = .running r ∧ r'.deadline = r.deadline := by
  generalize htarget : State.running r' = σ' at move
  cases move with
  | begins =>
    cases htarget
    exact .inl ⟨rfl, rfl⟩
  | advances | speculates | timesOutLate =>
    cases htarget
    exact .inr ⟨_, rfl, rfl⟩
  | cancels _ _ goes | exhausts _ _ goes | speculatesInVain _ _ _ goes =>
    subst htarget
    obtain rfl := goes.of_running
    exact .inr ⟨_, rfl, rfl⟩
  | findsNothing | forgoes | settles | timesOut | drops | finishes | forsakes => cases htarget

end Steps

-- ============================================================================
-- Runs
-- ============================================================================

/-- The observers began to be told in a step that an attempt had started. -/
def AnnouncedIn (t : Transition) (index number : Nat) : Prop :=
  ∃ node, ⟨some index, .notify (.nodeStarted ⟨node, index, number⟩)⟩ ∈ t.deeds

/-- A step started an attempt of an execution. -/
structure StartedIn (t : Transition) (e : Execution) (a : Attempt) : Prop where
  time : t.moment.now = a.started
  announced : ⟨some e.index, .notify (.nodeStarted (e.host a))⟩ ∈ t.deeds

/-- A step announced none but the attempts that an execution has started by now, and the one under
    way only at the time when it started. -/
def Dated (e : Execution) (t : Transition) : Prop :=
  ∀ number, AnnouncedIn t e.index number → number ≤ e.attempts ∧
    ∀ a, e.attempt? = some a → number = a.number → t.moment.now = a.started

/-- A step gave an attempt of an execution its connection. -/
structure AcquiredIn (t : Transition) (e : Execution) (a : Attempt) (c : Connection) : Prop where
  event : t.event = .execution e.index (.connection (.ok c))
  waited : ∃ o ∈ t.source.executions, o.index = e.index ∧ o.phase = .acquiring a

section Runs

variable {s : Settings} {ts : List Transition} {t : Transition} {σ : State} {a : Attempt}
  {c : Connection} {deadline : Option Instant} {m : Moment} {sh sh' : Shared} {e o : Execution}
  {event : ExecutionEvent} {actions : List Action}

/-- Every attempt in flight was started, at the time that it notes. -/
theorem Run.attempted (h : Run s ts σ) : ∀ e ∈ σ.executions, ∀ a, e.attempt? = some a →
    ∃ t ∈ ts, StartedIn t e a := by
  refine h.invariant (fun ts σ => ∀ e ∈ σ.executions, ∀ a, e.attempt? = some a →
    ∃ t ∈ ts, StartedIn t e a) (by simp [State.executions]) ?_
  intro ts m σ event σ' deeds run ih move o ho a hattempt
  have earlier {e : Execution} (he : e ∈ σ.executions) (attempt : e.attempt? = some a) :
      ∃ t ∈ ts ++ [⟨m, σ, event, σ', deeds⟩], StartedIn t e a := by
    obtain ⟨t, ht, hstarted⟩ := ih e he a attempt
    exact ⟨t, List.mem_append_left _ ht, hstarted⟩
  cases move.arrival o ho with
  | stays mem => exact earlier mem hattempt
  | @turns r e met sh actions source mem _ turn done =>
    subst source
    have hindex := turn.index
    rcases turn.attempted hattempt with ⟨htime, hnotice⟩ | ⟨hbefore, hhost⟩
    · refine ⟨_, List.mem_append_right _ (List.mem_singleton_self _), htime.symm, ?_⟩
      rw [done, hindex]
      exact Deed.mem_ofExecution.mpr ⟨rfl, hnotice⟩
    · obtain ⟨t, ht, htime, hnotice⟩ := earlier mem hbefore
      exact ⟨t, ht, htime, by rw [hindex, hhost]; exact hnotice⟩
  | opens fresh =>
    rw [Execution.attempt?, fresh] at hattempt
    cases hattempt

/-- A turn leaves the steps before it dated: it counts on and starts the next attempt, or leaves
    the count as it was and goes on with the attempt under way. -/
theorem Dated.turn (h : Dated e t)
    (turn : e.Turn s deadline m sh event ⟨sh', .goesOn o, actions⟩) : Dated o t := by
  intro number hannounced
  rw [turn.index] at hannounced
  obtain ⟨hle, hstarted⟩ := h number hannounced
  rcases turn.counts with ⟨hcount, hnone⟩ | ⟨hcount, next, phase, -, hnumber, -⟩
  · refine ⟨hcount ▸ hle, fun a hattempt => ?_⟩
    rcases turn.attempted hattempt with ⟨-, hnew⟩ | ⟨hbefore, -⟩
    · exact absurd hnew (hnone _)
    · exact hstarted a hbefore
  · -- what was announced before has a smaller number than the attempt that starts
    refine ⟨by omega, fun a hattempt heq => ?_⟩
    rw [Execution.attempt?, phase] at hattempt
    cases hattempt
    omega

/-- The step in which an execution makes its turn is dated. -/
theorem Dated.ofTurn (turn : e.Turn s deadline t.moment sh event ⟨sh', .goesOn o, actions⟩)
    (done : t.deeds = Deed.ofExecution e.index actions) : Dated o t := by
  rintro number ⟨node, hnotice⟩
  rw [done] at hnotice
  have hdone := (Deed.mem_ofExecution.mp hnotice).2
  rcases turn.counts with ⟨-, hnone⟩ | ⟨-, next, phase, htime, hnumber, hown⟩
  · exact absurd hdone (hnone _)
  · have hsame : number = next.number := congrArg HostInfo.attempt (hown _ hdone)
    refine ⟨by omega, fun a hattempt _ => ?_⟩
    rw [Execution.attempt?, phase] at hattempt
    cases hattempt
    exact htime.symm

/-- No step but the one that started an attempt announced it. -/
theorem Run.dated (h : Run s ts σ) : ∀ e ∈ σ.executions, ∀ t ∈ ts, Dated e t := by
  refine h.invariant (fun ts σ => ∀ e ∈ σ.executions, ∀ t ∈ ts, Dated e t) (by simp) ?_
  intro ts m σ event σ' deeds run ih move o ho
  refine List.forall_mem_append.mpr ?_
  rw [List.forall_mem_singleton]
  cases move.arrival o ho with
  | stays mem other =>
    refine ⟨ih o mem, ?_⟩
    rintro number ⟨node, hnotice⟩
    obtain ⟨r, -, own⟩ := move.ownDeed hnotice
    cases own with
    | turns _ _ concerns => exact absurd concerns (other _)
    | dropped _ _ done => cases Execution.abandon_inner _ _ done
  | turns source mem _ turn done =>
    subst source
    exact ⟨fun t ht => (ih _ mem t ht).turn turn, .ofTurn turn done⟩
  | opens fresh index general =>
    -- nothing was done yet by an execution that has just been opened
    obtain ⟨origins, chronicle, hopened⟩ := (Law.attempts s).chronicle run
    have hnothing := chronicle.unopened o.index (Nat.le_of_eq (hopened _ index))
    refine ⟨?_, ?_⟩
    · rintro t ht number ⟨node, hnotice⟩
      have hlog : (⟨some o.index, .notify (.nodeStarted ⟨node, o.index, number⟩)⟩ : Deed) ∈
          log ts := List.mem_append_right _ (List.mem_flatMap.mpr ⟨t, ht, hnotice⟩)
      rw [← Deed.mem_actionsOf, hnothing] at hlog
      cases hlog
    · rintro number ⟨node, hnotice⟩
      cases general _ hnotice

/-- Every attempt that exchanges messages got its connection in some step. Under a punctual clock
    no more time passes than up to its alarm, or to this step if that was later. -/
theorem Run.acquired {r : Running} (h : Run s ts (.running r)) : ∀ e ∈ r.executions, ∀ a c,
    e.phase = .exchanging a c → ∃ t ∈ ts, AcquiredIn t e a c ∧
      ∀ tolerance, EachAfter (Punctual s tolerance) ts →
        ∀ alarm, e.expiry? s r.deadline = some alarm →
          clock ts ≤ (alarm.later t.moment.now).after tolerance := by
  refine h.invariant (fun ts σ => ∀ r, σ = .running r → ∀ e ∈ r.executions, ∀ a c,
    e.phase = .exchanging a c → ∃ t ∈ ts, AcquiredIn t e a c ∧
      ∀ tolerance, EachAfter (Punctual s tolerance) ts →
        ∀ alarm, e.expiry? s r.deadline = some alarm →
          clock ts ≤ (alarm.later t.moment.now).after tolerance) (by simp) ?_ r rfl
  rintro ts m σ event _ deeds run ih move r' rfl o ho a c hphase
  cases move.arrival o ho with
  | stays mem =>
    cases σ with
    | starting | concluding | finished | dropped => cases mem
    | running r =>
      obtain ⟨t, ht, hacquired, hbound⟩ := ih r rfl o mem a c hphase
      have hdeadline : r'.deadline = r.deadline := by
        rcases move.deadline with ⟨hstart, -⟩ | ⟨_, hrunning, hdeadline⟩
        · cases hstart
        · cases hrunning
          exact hdeadline
      refine ⟨t, List.mem_append_left _ ht, hacquired, fun tolerance punctual alarm hexpiry => ?_⟩
      obtain ⟨hpunctual, hlast⟩ := EachAfter.concat_iff.mp punctual
      rw [hdeadline] at hexpiry
      have hbefore := hbound tolerance hpunctual alarm hexpiry
      rw [clock_concat]
      by_cases hpasses : clock ts < m.now
      · have hontime := hlast.onTime alarm (expiry_mem_alarms mem hexpiry) hpasses
        exact Instant.le_trans hontime (Instant.after_le_after (Instant.le_later_left ..) _)
      · exact Instant.le_trans (Instant.le_of_not_lt hpasses) hbefore
  | @turns r e met sh actions source mem concerns turn done =>
    obtain ⟨hbefore, rfl⟩ := turn.exchanging hphase
    subst source
    have hindex := turn.index
    have hacquired : AcquiredIn ⟨m, .running r, event, .running r', deeds⟩ o a c :=
      ⟨hindex ▸ concerns, e, mem, hindex.symm, hbefore⟩
    refine ⟨_, List.mem_append_right _ (List.mem_singleton_self _), hacquired, ?_⟩
    intro tolerance _ alarm _
    rw [clock_concat]
    exact Instant.le_trans (Instant.le_later_right ..) (Instant.le_after ..)
  | opens fresh =>
    rw [fresh] at hphase
    cases hphase

end Runs

end Request

end RequestEngine
