/-
  RequestEngine.Proofs.Request.Hooks

  What the load balancing policy is told of the attempts.  Its hooks are called
  for answers and errors that arrive over a connection, whether or not somebody
  else has resolved the request by then, and before anybody else hears of them;
  they are not called for attempts that never had a connection or were dropped.

    * `HookCall`, `Transition.call?` — the call that is due in a step, read off the
      attempt that waits for its answer and what it meets;
    * `Turn.calls`, `Move.calls`     — a step makes the calls that are due in it;
    * `State.Attempting`, `Transition.Ends` — attempts that are pending, and steps in
      which they cease to be; `Run.endsOnce`;
    * `CallsHooks`                   — what a policy can rely on in a whole run.
-/
import RequestEngine.Proofs.Request.Endings
import RequestEngine.Proofs.Request.Expiry
import RequestEngine.Proofs.Request.Work

namespace RequestEngine

-- ============================================================================
-- Calls
-- ============================================================================

/-- Whether an action calls a hook of the load balancing policy. -/
def Action.isHook : Action → Bool
  | .reportSuccess .. | .reportFailure .. => true
  | _ => false

theorem Action.isHook_of_isGeneral {a : Action} (general : a.isGeneral = true) :
    a.isHook = false := by
  cases a <;> first | rfl | cases general

/-- Whether an action deals with the end of some attempt. -/
def Action.isVerdict : Action → Bool
  | .decide .. => true
  | .notify n => n.report?.isSome
  | _ => false

theorem Action.isVerdict_of_isGeneral {a : Action} (general : a.isGeneral = true) :
    a.isVerdict = false := by
  cases a with
  | notify n => cases n <;> first | rfl | cases general
  | _ => first | rfl | cases general

/-- The execution of an attempt and its number within that execution. -/
def HostInfo.ordinal (h : HostInfo) : Nat × Nat :=
  (h.execution, h.attempt)

/-- A deed that deals with the end of an attempt: its failure is put to the retry policy, or
    observers are told that it has succeeded or failed. -/
inductive Deed.Judges (k : Nat × Nat) : Deed → Prop where
  | decides {failed : FailedAttempt} {remark : Option String} {decision : Decision}
      (number : failed.number = k.2) : Judges k ⟨some k.1, .decide failed remark decision⟩
  | tells {execution : Option Nat} {n : Notification} {host : HostInfo}
      (report : n.report? = some host) (own : host.ordinal = k) :
      Judges k ⟨execution, .notify n⟩

theorem Deed.Judges.isVerdict {k : Nat × Nat} {d : Deed} (h : d.Judges k) :
    d.action.isVerdict = true := by
  cases h with
  | decides => rfl
  | tells report => exact Option.isSome_of_eq_some report

/-- A call of a hook: the attempt it is about, what the policy is told of the request, the time
    since the attempt started, and the error unless there is an answer. -/
structure HookCall where
  host : HostInfo
  routing : Routing
  latency : Duration
  error? : Option AttemptError
  deriving DecidableEq

namespace HookCall

/-- The call as an action. -/
def action (c : HookCall) : Action :=
  match c.error? with
  | none => .reportSuccess c.routing c.host.node c.latency
  | some error => .reportFailure c.routing c.host.node c.latency error

/-- The call as a deed of the execution that makes the attempt. -/
def deed (c : HookCall) : Deed :=
  ⟨some c.host.execution, c.action⟩

theorem isHook_action (c : HookCall) : c.action.isHook = true := by
  unfold action
  split <;> rfl

end HookCall

namespace ExecutionEvent

/-- How an attempt that waits for its answer ends with what it meets: with an answer, or in an
    error. -/
def ending? (s : Settings) : ExecutionEvent → Option (Option AttemptError)
  | .answer (.ok (.ok (.result _))) => some none
  | .answer (.ok (.ok reply)) => some (some (.unexpected reply.kind))
  | .answer (.ok (.error reply)) => some (some (.database reply.error reply.reason))
  | .answer (.error cause) => some (some (.broken cause))
  | .expire => s.attemptTimeout.map fun limit => some (.timeout limit)
  | .begin | .told | .connection _ => none

/-- Whether a pending attempt ends with what it meets. -/
def isLast : ExecutionEvent → Bool
  | .answer _ | .expire | .connection (.error _) => true
  | .begin | .told | .connection (.ok _) => false

theorem isLast_of_ending {s : Settings} {event : ExecutionEvent} {error? : Option AttemptError}
    (ending : event.ending? s = some error?) : event.isLast = true := by
  cases event with
  | answer | expire => rfl
  | begin | told | connection => cases ending

end ExecutionEvent

namespace Execution

/-- The call that is due when an execution meets something. -/
def call? (s : Settings) (now : Instant) (e : Execution) (event : ExecutionEvent) :
    Option HookCall :=
  match e.phase with
  | .exchanging a _ => (event.ending? s).map fun error? =>
      ⟨e.host a, s.routing, now.since a.started, error?⟩
  | _ => none

variable {s : Settings} {deadline : Option Instant} {m : Moment} {sh sh' : Shared}
  {e e' : Execution} {event : ExecutionEvent} {advance : Advance} {a : Attempt}
  {lead actions : List Action} {x : Action}

theorem call?_of_phase {c : Connection} (phase : e.phase = .exchanging a c) :
    e.call? s m.now event = (event.ending? s).map fun error? =>
      ⟨e.host a, s.routing, m.now.since a.started, error?⟩ := by
  rw [call?, phase]

/-- No call is due while no answer is awaited. -/
theorem call?_eq_none (idle : ∀ a c, e.phase ≠ .exchanging a c) :
    e.call? s m.now event = none := by
  unfold call?
  split
  · rename_i a c phase
    exact absurd phase (idle a c)
  · rfl

/-- A call is due for the attempt that an execution makes. -/
theorem host_of_call {c : HookCall} (due : e.call? s m.now event = some c) :
    ∃ a conn, e.phase = .exchanging a conn ∧ event.ending? s = some c.error? ∧
      c.host = e.host a := by
  unfold call? at due
  split at due
  · rename_i a conn phase
    obtain ⟨error?, hending, rfl⟩ := Option.map_eq_some_iff.mp due
    exact ⟨a, conn, phase, hending, rfl⟩
  · cases due

theorem deed_of_call {c : HookCall} (due : e.call? s m.now event = some c) :
    (⟨some e.index, c.action⟩ : Deed) = c.deed := by
  obtain ⟨a, conn, -, -, hhost⟩ := host_of_call due
  rw [HookCall.deed, hhost]
  rfl

theorem Onward.call? (h : Onward s m sh e event sh' e' lead) : e.call? s m.now event = none := by
  refine call?_eq_none fun a c phase => ?_
  rcases h.origin with ⟨before, -⟩ | ⟨_, _, _, before, -⟩ <;> rw [phase] at before <;> cases before

theorem Fails.before_calls {error : AttemptError} {back : List Action}
    (h : Fails s deadline m e event a error back) :
    ∀ x ∈ back, x.isHook = false ∧ x.isVerdict = false := by
  cases h <;> exact List.forall_mem_singleton.mpr ⟨rfl, rfl⟩

/-- A hook is called with the error of an attempt, unless it had no connection. -/
theorem Fails.call? {error : AttemptError} {back : List Action}
    (h : Fails s deadline m e event a error back) :
    ((e.call? s m.now event).map HookCall.action).toList =
      if error.wasSent then [.reportFailure s.routing e.node (m.now.since a.started) error]
      else [] := by
  cases h with
  | refused phase =>
    rw [call?_eq_none fun a c exchanging => by rw [phase] at exchanging; cases exchanging]
    rfl
  | broken phase | database phase =>
    rw [call?_of_phase phase]
    rfl
  | @unexpected a c reply phase other =>
    rw [call?_of_phase phase]
    cases reply with
    | result body => exact absurd rfl (other body)
    | ready | supported | event => rfl
  | expired phase bound =>
    rw [call?_of_phase phase, ExecutionEvent.ending?, (attemptExpiry_eq_some.mp bound).1]
    rfl

theorem not_hook_of_quiet (quiet : ∀ x ∈ actions, x.isQuiet = true) :
    ∀ x ∈ actions, x.isHook = false :=
  fun x hx => Action.isHook_of_isGeneral (Action.isGeneral_of_isQuiet (quiet x hx))

/-- Dropping an execution calls no hook, and deals with the end of no attempt. -/
theorem abandon_silent (e : Execution) :
    ∀ x ∈ e.abandon, x.isHook = false ∧ x.isVerdict = false := by
  intro x hx
  simp only [abandon, List.mem_append, Option.mem_toList, Option.map_eq_some_iff] at hx
  rcases hx with ⟨c, -, rfl⟩ | ⟨a, -, rfl⟩ <;> exact ⟨rfl, rfl⟩

/-- The calls of a turn, among what is done before and after them. -/
def Calls (actions : List Action) (call : Option HookCall) : Prop :=
  ∃ before after, actions = before ++ ((call.map HookCall.action).toList ++ after) ∧
    (∀ x ∈ before, x.isHook = false ∧ x.isVerdict = false) ∧ ∀ x ∈ after, x.isHook = false

theorem Calls.nothing (others : ∀ x ∈ actions, x.isHook = false) : Calls actions none :=
  ⟨[], actions, rfl, by simp, others⟩

theorem Calls.filter {call : Option HookCall} (h : Calls actions call) :
    actions.filter Action.isHook = (call.map HookCall.action).toList := by
  obtain ⟨before, after, rfl, hbefore, hafter⟩ := h
  have hcall : ((call.map HookCall.action).toList).filter Action.isHook =
      (call.map HookCall.action).toList := by
    cases call with
    | none => rfl
    | some c => simp [c.isHook_action]
  rw [List.filter_append, List.filter_append, hcall,
    List.filter_eq_nil_iff.mpr fun x hx => by simp [(hbefore x hx).1],
    List.filter_eq_nil_iff.mpr fun x hx => by simp [hafter x hx], List.append_nil, List.nil_append]

theorem Fails.calls {error : AttemptError} {back rest : List Action}
    (h : Fails s deadline m e event a error back) (others : ∀ x ∈ rest, x.isHook = false) :
    Calls (back ++ (e.assess s m a error ++ rest)) (e.call? s m.now event) := by
  refine ⟨back, [.decide (failed s a error) (s.retry.remark (failed s a error))
    (s.retry.decide (failed s a error)),
      .remark (.attemptFailed error (s.retry.decide (failed s a error)))] ++ rest, ?_,
    h.before_calls, List.forall_mem_append.mpr ⟨?_, others⟩⟩
  · rw [h.call?, assess, List.append_assoc]
  · exact List.forall_mem_cons.mpr ⟨rfl, List.forall_mem_singleton.mpr rfl⟩

/-- A turn makes the call that is due, before the attempt is judged in any other way, and makes no
    other. -/
theorem Turn.calls (h : Turn s deadline m sh e event advance) :
    Calls advance.actions (e.call? s m.now event) := by
  have idle {phase : Phase} (is : e.phase = phase) (other : ∀ a c, phase ≠ .exchanging a c) :
      e.call? s m.now event = none :=
    call?_eq_none fun a c exchanging => other a c (is ▸ exchanging)
  cases h with
  | starts onward =>
    rw [onward.call?]
    refine .nothing (List.forall_mem_append.mpr ⟨not_hook_of_quiet onward.quiet, ?_⟩)
    simp [Action.isHook]
  | stops onward =>
    rw [onward.call?]
    exact .nothing (not_hook_of_quiet onward.stopping_quiet)
  | exhausts phase moves take =>
    rw [idle phase (by simp)]
    exact .nothing (not_hook_of_quiet (moves.exhausting_quiet take))
  | asks phase | sends phase | returns phase | throws phase =>
    rw [idle phase (by simp)]
    refine .nothing ?_
    simp [Action.isHook]
  | @succeeds a c _ phase | @succeedsLate a c _ phase =>
    rw [call?_of_phase phase]
    refine ⟨[.release e.node c], _, rfl, ?_, ?_⟩ <;> simp [Action.isHook, Action.isVerdict]
  | rethrows fails | fails fails => exact fails.calls (by simp [Action.isHook])
  | failsLate fails asked =>
    refine fails.calls (List.forall_mem_append.mpr ⟨?_, by simp [Action.isHook]⟩)
    subst asked
    split <;> simp [Action.isHook]

-- ============================================================================
-- Ends of attempts in a turn
-- ============================================================================

theorem Fails.isLast {error : AttemptError} {back : List Action}
    (h : Fails s deadline m e event a error back) : event.isLast = true := by
  cases h <;> rfl

/-- An execution that still makes an attempt has met nothing that ends it, or has just started
    it. -/
theorem Turn.pending_of (h : Turn s deadline m sh e event ⟨sh', .goesOn e', actions⟩)
    (pending : e'.pending? = some a) :
    (e.pending? = some a ∧ event.isLast = false) ∨
      (e.pending? = none ∧ a.number = e.attempts + 1) := by
  cases h with
  | starts onward =>
    cases pending
    refine .inr ⟨?_, congrArg (· + 1) onward.attempts⟩
    rcases onward.origin with ⟨phase, -⟩ | ⟨_, _, _, phase, -⟩ <;> rw [pending?, phase]
  | asks phase | sends phase =>
    cases pending
    exact .inl ⟨by rw [pending?, phase], rfl⟩
  | succeeds | rethrows | fails => cases pending

/-- A pending attempt is the current one of its execution. -/
theorem attempt_of_pending (pending : e.pending? = some a) : e.attempt? = some a := by
  unfold pending? at pending
  split at pending <;> simp_all [attempt?]

theorem not_verdict_of_quiet (quiet : ∀ x ∈ actions, x.isQuiet = true) :
    ∀ x ∈ actions, x.isVerdict = false :=
  fun x hx => Action.isVerdict_of_isGeneral (Action.isGeneral_of_isQuiet (quiet x hx))

/-- An action that deals with the end of an attempt. -/
structure Judges (e : Execution) (a : Attempt) (x : Action) : Prop where
  failed : ∀ failure remark decision, x = .decide failure remark decision →
    failure.number = a.number
  reported : ∀ n host, x = .notify n → n.report? = some host → host = e.host a

/-- The retry policy is asked about a failure under the number of the attempt that failed. -/
theorem judges_asked {error : AttemptError} {remark : Option String} {decision : Decision} :
    Judges e a (.decide (failed s a error) remark decision) where
  failed := by
    rintro _ _ _ ⟨⟩
    rfl
  reported := by rintro _ _ ⟨⟩

/-- Observers are told of the attempt that ended. -/
theorem judges_told {n : Notification} (report : n.report? = some (e.host a)) :
    Judges e a (.notify n) where
  failed := by rintro _ _ _ ⟨⟩
  reported := by
    rintro _ host ⟨⟩ hreport
    exact Option.some.inj (hreport.symm.trans report)

theorem assess_judges (a : Attempt) (error : AttemptError) :
    ∀ x ∈ e.assess s m a error, x.isVerdict = true → Judges e a x := by
  cases hsent : error.wasSent <;> simp [assess, hsent, Action.isVerdict, judges_asked]

/-- What is done about an attempt that fails deals with the end of no other. -/
theorem Fails.judges {error : AttemptError} {back rest : List Action}
    (h : Fails s deadline m e event a error back)
    (others : ∀ x ∈ rest, x.isVerdict = true → Judges e a x) :
    ∀ x ∈ back ++ (e.assess s m a error ++ rest), x.isVerdict = true → Judges e a x := by
  refine List.forall_mem_append.mpr ⟨fun x hx verdict => ?_,
    List.forall_mem_append.mpr ⟨assess_judges a error, others⟩⟩
  exact absurd ((h.before_calls x hx).2.symm.trans verdict) Bool.false_ne_true

/-- A turn that deals with the end of an attempt is the one in which it ends. -/
theorem Turn.verdict (h : Turn s deadline m sh e event advance) (done : x ∈ advance.actions)
    (verdict : x.isVerdict = true) :
    ∃ a, e.pending? = some a ∧ event.isLast = true ∧ Judges e a x := by
  have none {actions : List Action} (mem : x ∈ actions)
      (other : ∀ y ∈ actions, y.isVerdict = false) : False :=
    Bool.false_ne_true ((other x mem).symm.trans verdict)
  cases h with
  | starts onward =>
    refine (none done (List.forall_mem_append.mpr ⟨not_verdict_of_quiet onward.quiet, ?_⟩)).elim
    simp [Action.isVerdict, Notification.report?]
  | stops onward => exact (none done (not_verdict_of_quiet onward.stopping_quiet)).elim
  | exhausts phase moves take =>
    exact (none done (not_verdict_of_quiet (moves.exhausting_quiet take))).elim
  | asks | sends | returns | throws | succeedsLate =>
    refine (none done ?_).elim
    simp [Action.isVerdict]
  | @succeeds a c body phase =>
    refine ⟨a, by rw [pending?, phase], rfl, ?_⟩
    have htold : x = .notify (.nodeSucceeded (e.host a)) := by
      simp only [List.mem_cons, List.not_mem_nil, or_false] at done
      rcases done with rfl | rfl | rfl | rfl | rfl <;> first | rfl | cases verdict
    rw [htold]
    exact judges_told rfl
  | rethrows fails =>
    refine ⟨_, fails.cancels?.2, fails.isLast, fails.judges ?_ x done verdict⟩
    exact List.forall_mem_cons.mpr ⟨by simp [Action.isVerdict],
      List.forall_mem_singleton.mpr fun _ => judges_told rfl⟩
  | fails fails =>
    refine ⟨_, fails.cancels?.2, fails.isLast, fails.judges ?_ x done verdict⟩
    exact List.forall_mem_singleton.mpr fun _ => judges_told rfl
  | failsLate fails asked =>
    refine ⟨_, fails.cancels?.2, fails.isLast, fails.judges ?_ x done verdict⟩
    subst asked
    split <;> simp [Action.isVerdict]

end Execution

namespace Request

variable {s : Settings} {m : Moment} {ts : List Transition} {t t' : Transition} {σ σ' : State}
  {event : Event} {deeds : List Deed} {k : Nat × Nat} {c : HookCall} {e : Execution}
  {a : Attempt} {met : ExecutionEvent} {d : Deed}

-- ============================================================================
-- Calls of a step
-- ============================================================================

/-- The call that is due in a step. -/
def Transition.call? (s : Settings) (t : Transition) : Option HookCall :=
  match t.event with
  | .execution index met =>
    (t.source.executions.find? fun e => e.index = index).bind fun e =>
      e.call? s t.moment.now met
  | _ => none

theorem Transition.call?_of_mem (distinct : (t.source.executions.map Execution.index).Nodup)
    (mem : e ∈ t.source.executions) (concerns : t.event = .execution e.index met) :
    t.call? s = e.call? s t.moment.now met := by
  simp only [call?, concerns]
  rw [find?_of_mem distinct mem]
  rfl

/-- An execution whose attempt has got what a call is due for. -/
theorem Transition.of_call (due : t.call? s = some c) : ∃ e ∈ t.source.executions, ∃ a conn met,
    t.event = .execution e.index met ∧ e.phase = .exchanging a conn ∧
      met.ending? s = some c.error? ∧ c.host = e.host a := by
  unfold call? at due
  split at due
  · rename_i index met hevent
    obtain ⟨e, hfind, hcall⟩ := Option.bind_eq_some_iff.mp due
    have hindex : e.index = index := by simpa using List.find?_some hfind
    obtain ⟨a, conn, hphase, hending, hhost⟩ := Execution.host_of_call hcall
    exact ⟨e, List.mem_of_find?_eq_some hfind, a, conn, met, hindex ▸ hevent, hphase, hending,
      hhost⟩
  · cases due

/-- What a step does on behalf of an execution that meets something begins with its turn; the rest
    is done by others. -/
theorem Move.ofExecution {index : Nat} (move : Move s m σ (.execution index met) σ' deeds) :
    ∃ r e advance more, σ = .running r ∧ e ∈ r.executions ∧ e.index = index ∧
      e.Turn s r.deadline m r.shared met advance ∧
        deeds = Deed.ofExecution e.index advance.actions ++ more ∧
          ∀ d ∈ more, d.execution ≠ some e.index ∧ d.action.isHook = false := by
  have request {actions : List Action} {index : Nat} (general : ∀ x ∈ actions, x.isHook = false) :
      ∀ d ∈ Deed.ofRequest actions, d.execution ≠ some index ∧ d.action.isHook = false := by
    intro d hd
    obtain ⟨hnone, haction⟩ := Deed.mem_ofRequest.mp hd
    exact ⟨by simp [hnone], general _ haction⟩
  have goesOn {r' : Running} {σ : State} {more : List Deed} {index : Nat}
      (goes : GoesOn r' σ more) :
      ∀ d ∈ more, d.execution ≠ some index ∧ d.action.isHook = false := by
    cases goes with
    | still => simp
    | ended =>
      rw [exhaust_eq]
      exact request (by simp [Action.isHook])
  generalize hevent : Event.execution index met = event at move
  cases move with
  | advances mem turn =>
    cases hevent
    exact ⟨_, _, _, [], rfl, mem, rfl, turn, (List.append_nil _).symm, by simp⟩
  | settles mem turn =>
    cases hevent
    refine ⟨_, _, _, _, rfl, mem, rfl, turn, rfl, List.forall_mem_append.mpr ⟨fun d hd => ?_,
      request (by simp [Action.isHook])⟩⟩
    obtain ⟨o, ho, hdone⟩ := List.mem_flatMap.mp hd
    obtain ⟨hindex, haction⟩ := Deed.mem_ofExecution.mp hdone
    refine ⟨fun heq => ?_, (o.abandon_silent _ haction).1⟩
    have hsame := Option.some.inj (hindex.symm.trans heq)
    exact absurd hsame (by simpa using (List.mem_filter.mp ho).2)
  | cancels mem turn goes | exhausts mem turn goes =>
    cases hevent
    exact ⟨_, _, _, _, rfl, mem, rfl, turn, rfl, goesOn goes⟩
  | begins | findsNothing | forgoes | speculates | speculatesInVain | timesOut | timesOutLate
  | drops | finishes | forsakes => cases hevent

/-- A step makes the call that is due in it, and no other. -/
theorem Move.calls (move : Move s m σ event σ' deeds)
    (distinct : (σ.executions.map Execution.index).Nodup) :
    (deeds.filter fun d => d.action.isHook) =
      ((Transition.call? s ⟨m, σ, event, σ', deeds⟩).map HookCall.deed).toList := by
  cases event with
  | execution index met =>
    obtain ⟨r, e, advance, more, rfl, mem, rfl, turn, rfl, hmore⟩ := move.ofExecution
    have hcall : Transition.call? s ⟨m, .running r, .execution e.index met, σ',
        Deed.ofExecution e.index advance.actions ++ more⟩ = e.call? s m.now met :=
      Transition.call?_of_mem distinct mem rfl
    have hothers : (more.filter fun d => d.action.isHook) = [] :=
      List.filter_eq_nil_iff.mpr fun d hd => by simp [(hmore d hd).2]
    rw [hcall, List.filter_append, hothers, List.append_nil, Deed.ofExecution, List.filter_map]
    change (advance.actions.filter Action.isHook).map _ = _
    rw [turn.calls.filter]
    cases hdue : e.call? s m.now met with
    | none => rfl
    | some c => exact congrArg ([·]) (Execution.deed_of_call hdue)
  | told | speculate | timeUp | drop =>
    refine List.filter_eq_nil_iff.mpr fun d hd => ?_
    obtain ⟨execution, action⟩ := d
    cases execution with
    | none => simp [Action.isHook_of_isGeneral (move.general _ hd rfl)]
    | some index =>
      obtain ⟨r, -, own⟩ := move.ownDeed hd
      cases own with
      | turns _ _ concerns => cases concerns
      | dropped _ _ done => simp [(Execution.abandon_silent _ _ done).1]

-- ============================================================================
-- Ends of attempts in a run
-- ============================================================================

/-- An attempt is pending. -/
def State.Attempting (σ : State) (k : Nat × Nat) : Prop :=
  ∃ e ∈ σ.executions, ∃ a, e.pending? = some a ∧ k = (e.index, a.number)

/-- An attempt ceases to be pending in a step. -/
structure Transition.Ends (t : Transition) (k : Nat × Nat) : Prop where
  before : t.source.Attempting k
  after : ¬ t.target.Attempting k

/-- A pending attempt ends when it meets something that ends it. -/
theorem Move.ends (move : Move s m σ event σ' deeds)
    (distinct : (σ.executions.map Execution.index).Nodup) (mem : e ∈ σ.executions)
    (pending : e.pending? = some a) (concerns : event = .execution e.index met)
    (last : met.isLast = true) :
    Transition.Ends ⟨m, σ, event, σ', deeds⟩ (e.index, a.number) := by
  refine ⟨⟨e, mem, a, pending, rfl⟩, ?_⟩
  rintro ⟨o, ho, a', hpending, hkey⟩
  obtain ⟨hindex, hnumber⟩ := Prod.mk.inj hkey
  cases move.arrival o ho with
  | stays _ other => exact other met (hindex ▸ concerns)
  | @turns r e' met' sh actions source mem' concerns' turn =>
    subst source
    obtain ⟨hsame, rfl⟩ := Event.execution.inj (concerns.symm.trans concerns')
    obtain rfl : e = e' := eq_of_index_eq distinct mem' mem hsame
    rcases turn.pending_of hpending with ⟨-, hfirst⟩ | ⟨hnone, -⟩
    · exact Bool.false_ne_true (hfirst.symm.trans last)
    · cases hnone.symm.trans pending
  | opens fresh =>
    rw [Execution.pending?, fresh] at hpending
    cases hpending

/-- An attempt that has ended was announced once, and is not made again. -/
theorem Run.ended (h : Run s ts σ) : ∀ t ∈ ts, ∀ k, t.Ends k →
    (∃ t' ∈ ts, AnnouncedIn t' k.1 k.2) ∧ ¬ σ.Attempting k := by
  refine h.invariant (fun ts σ => ∀ t ∈ ts, ∀ k, t.Ends k →
    (∃ t' ∈ ts, AnnouncedIn t' k.1 k.2) ∧ ¬ σ.Attempting k) (by simp) ?_
  intro ts m σ event σ' deeds run ih move
  refine List.forall_mem_append.mpr ⟨fun t ht k hends => ?_, List.forall_mem_singleton.mpr ?_⟩
  · obtain ⟨⟨t', ht', hannounced⟩, hover⟩ := ih t ht k hends
    refine ⟨⟨t', List.mem_append_left _ ht', hannounced⟩, ?_⟩
    rintro ⟨o, ho, a, hpending, rfl⟩
    cases move.arrival o ho with
    | stays mem => exact hover ⟨o, mem, a, hpending, rfl⟩
    | @turns r e met sh actions source mem _ turn =>
      subst source
      have hindex := turn.index
      rcases turn.pending_of hpending with ⟨hbefore, -⟩ | ⟨-, hnext⟩
      · exact hover ⟨e, mem, a, hbefore, by rw [hindex]⟩
      · -- the number of an attempt that starts was not announced before
        rw [hindex] at hannounced
        have hle := (run.dated e mem t' ht' a.number hannounced).1
        omega
    | opens fresh =>
      rw [Execution.pending?, fresh] at hpending
      cases hpending
  · rintro k ⟨⟨e, mem, a, hpending, rfl⟩, hafter⟩
    obtain ⟨t, ht, hstarted⟩ := run.attempted e mem a (Execution.attempt_of_pending hpending)
    exact ⟨⟨t, List.mem_append_left _ ht, e.node, hstarted.announced⟩, hafter⟩

/-- No attempt is pending after a step in which it ended. -/
theorem Run.endsOnce (h : Run s ts σ) : EachAfter (fun before t => ∀ t' ∈ before, ∀ k,
    t'.Ends k → ¬ t.source.Attempting k) ts :=
  h.eachStep fun _ _ _ _ _ _ run _ t' ht' k hends => (run.ended t' ht' k hends).2

/-- An attempt ends in one step. -/
theorem Run.ends_unique (h : Run s ts σ) (mem : t ∈ ts) (mem' : t' ∈ ts) (ends : t.Ends k)
    (ends' : t'.Ends k) : t = t' := by
  obtain ⟨before, after, hsplit⟩ := List.append_of_mem mem
  rw [hsplit] at mem'
  rcases List.mem_append.mp mem' with mem' | mem'
  · exact absurd ends.before (h.endsOnce before t after hsplit t' mem' k ends')
  · rcases List.mem_cons.mp mem' with rfl | mem'
    · rfl
    · obtain ⟨between, rest, rfl⟩ := List.append_of_mem mem'
      have hlater : ts = (before ++ t :: between) ++ t' :: rest := by
        rw [hsplit, List.append_assoc, List.cons_append]
      have hover :=
        h.endsOnce _ t' rest hlater t (List.mem_append_right _ List.mem_cons_self) k ends
      exact absurd ends'.before hover

/-- Whatever deals with the end of an attempt is done in the step in which it ends. -/
theorem Move.judges (move : Move s m σ event σ' deeds)
    (distinct : (σ.executions.map Execution.index).Nodup) (mem : d ∈ deeds)
    (judges : d.Judges k) : Transition.Ends ⟨m, σ, event, σ', deeds⟩ k := by
  have hverdict := judges.isVerdict
  obtain ⟨execution, action⟩ := d
  cases execution with
  | none =>
    have hgeneral := Action.isVerdict_of_isGeneral (move.general _ mem rfl)
    exact absurd (hgeneral.symm.trans hverdict) Bool.false_ne_true
  | some index =>
    obtain ⟨r, rfl, own⟩ := move.ownDeed mem
    cases own with
    | @turns e met advance he own concerns turn done =>
      obtain ⟨a, hpending, hlast, hjudges⟩ := turn.verdict done hverdict
      have hends := move.ends distinct he hpending (own ▸ concerns) hlast
      have hkey : (e.index, a.number) = k := by
        cases judges with
        | decides number => exact Prod.ext own ((hjudges.failed _ _ _ rfl).symm.trans number)
        | tells report same =>
          rw [hjudges.reported _ _ rfl report] at same
          exact same
      exact hkey ▸ hends
    | @dropped e _ _ done =>
      exact absurd ((e.abandon_silent _ done).2.symm.trans hverdict) Bool.false_ne_true

theorem Run.ends_of_judges (h : Run s ts σ) : ∀ t ∈ ts, ∀ d ∈ t.deeds, ∀ k, d.Judges k →
    t.Ends k :=
  h.everyStep fun _ _ _ _ _ _ run move _ hd _ judges => move.judges run.distinct hd judges

theorem Run.calls (h : Run s ts σ) : ∀ t ∈ ts,
    (t.deeds.filter fun d => d.action.isHook) = ((t.call? s).map HookCall.deed).toList :=
  h.everyStep fun _ _ _ _ _ _ run move => move.calls run.distinct

/-- A call precedes whatever else deals with the end of its attempt in the same step. -/
theorem Move.callsFirst (move : Move s m σ event σ' deeds)
    (distinct : (σ.executions.map Execution.index).Nodup)
    (due : Transition.call? s ⟨m, σ, event, σ', deeds⟩ = some c) :
    ∃ earlier later, deeds = earlier ++ c.deed :: later ∧
      ∀ d ∈ earlier, d.action.isVerdict = false := by
  obtain ⟨e, mem, a, conn, met, rfl, -⟩ := Transition.of_call due
  obtain ⟨r, o, advance, more, rfl, ho, hindex, turn, rfl, -⟩ := move.ofExecution
  obtain rfl := eq_of_index_eq distinct mem ho hindex
  rw [Transition.call?_of_mem distinct mem rfl] at due
  obtain ⟨before, after, hactions, hbefore, -⟩ := turn.calls
  rw [due] at hactions
  refine ⟨Deed.ofExecution o.index before, Deed.ofExecution o.index after ++ more, ?_,
    fun d hd => ?_⟩
  · rw [hactions, ← Execution.deed_of_call due]
    simp [Deed.ofExecution]
  · exact (hbefore _ (Deed.mem_ofExecution.mp hd).2).2

theorem Run.callsFirst (h : Run s ts σ) : ∀ t ∈ ts, ∀ c, t.call? s = some c →
    ∃ earlier later, t.deeds = earlier ++ c.deed :: later ∧
      ∀ d ∈ earlier, d.action.isVerdict = false :=
  h.everyStep fun _ _ _ _ _ _ run move _ due => move.callsFirst run.distinct due

/-- An attempt ends in the step in which a call is due for it. -/
theorem Run.ends_of_call (h : Run s ts σ) : ∀ t ∈ ts, ∀ c, t.call? s = some c →
    t.Ends c.host.ordinal := by
  refine h.everyStep fun ts m σ event σ' deeds run move c due => ?_
  obtain ⟨e, mem, a, conn, met, hevent, hphase, hending, hhost⟩ := Transition.of_call due
  rw [hhost]
  exact move.ends run.distinct mem (by rw [Execution.pending?, hphase]) hevent
    (ExecutionEvent.isLast_of_ending hending)

/-- No attempt has two calls. -/
theorem Run.callsOnce (h : Run s ts σ) :
    ((ts.filterMap (Transition.call? s)).map fun c => c.host.ordinal).Nodup := by
  rw [List.Nodup, List.pairwise_map, List.pairwise_filterMap]
  have hordered : EachAfter (fun before t => ∀ t' ∈ before, ∀ c', t'.call? s = some c' →
      ∀ c, t.call? s = some c → c'.host.ordinal ≠ c.host.ordinal) ts := by
    intro before t after hsplit t' ht' c' hcall' c hcall same
    have hmem : t ∈ ts := hsplit ▸ List.mem_append_right _ List.mem_cons_self
    have hmem' : t' ∈ ts := hsplit ▸ List.mem_append_left _ ht'
    have hends' := h.ends_of_call t' hmem' c' hcall'
    rw [same] at hends'
    exact h.endsOnce before t after hsplit t' ht' _ hends' (h.ends_of_call t hmem c hcall).before
  exact hordered.pairwise

-- ============================================================================
-- Attempts without a call
-- ============================================================================

/-- An attempt was refused a connection in a step. -/
def RefusedIn (t : Transition) (k : Nat × Nat) : Prop :=
  ∃ e ∈ t.source.executions, ∃ a cause, e.phase = .acquiring a ∧
    t.event = .execution e.index (.connection (.error cause)) ∧ k = (e.index, a.number)

/-- An attempt was dropped while it was pending. -/
def DroppedIn (t : Transition) (k : Nat × Nat) : Prop :=
  ∃ node, ⟨some k.1, .remark (.attemptCancelled node k.1 k.2)⟩ ∈ t.deeds

theorem Run.ends_of_refused (h : Run s ts σ) : ∀ t ∈ ts, ∀ k, RefusedIn t k → t.Ends k := by
  refine h.everyStep fun ts m σ event σ' deeds run move k refused => ?_
  obtain ⟨e, mem, a, cause, phase, hevent, rfl⟩ := refused
  exact move.ends run.distinct mem (by rw [Execution.pending?, phase]) hevent rfl

end Request

/-- A turn does not drop its own attempt. -/
theorem Execution.Turn.not_dropped {s : Settings} {deadline : Option Instant} {m : Moment}
    {sh : Shared} {e : Execution} {event : ExecutionEvent} {advance : Advance} {node : Node}
    {execution number : Nat} (h : e.Turn s deadline m sh event advance) :
    .remark (.attemptCancelled node execution number) ∉ advance.actions := by
  intro done
  have hmem : Remark.attemptCancelled node execution number ∈
      advance.actions.filterMap Action.cancels? := List.mem_filterMap.mpr ⟨_, done, rfl⟩
  obtain ⟨sh', progress, actions⟩ := advance
  cases progress with
  | goesOn e' =>
    rw [h.cancels_nothing] at hmem
    cases hmem
  | resolved | cancelled | exhausted =>
    rcases h.cancels_last (by simp) with ⟨-, hnone⟩ | ⟨-, a, r, -, hlate, hlist⟩
    · rw [hnone] at hmem
      cases hmem
    · rw [hlist, List.mem_singleton] at hmem
      subst hmem
      rcases hlate with hlate | hlate <;> cases hlate

namespace Request

variable {s : Settings} {m : Moment} {ts : List Transition} {t : Transition} {σ σ' : State}
  {event : Event} {deeds : List Deed} {k : Nat × Nat}

/-- An execution that is dropped with its pending attempt meets nothing in that step. -/
theorem Move.attempting_of_dropped (move : Move s m σ event σ' deeds)
    (dropped : DroppedIn ⟨m, σ, event, σ', deeds⟩ k) :
    σ.Attempting k ∧ ∀ met, event ≠ .execution k.1 met := by
  obtain ⟨node, done⟩ := dropped
  constructor
  · obtain ⟨r, rfl, own⟩ := move.ownDeed done
    cases own with
    | turns _ _ _ turn done => exact absurd done turn.not_dropped
    | @dropped e mem own done =>
      have hcancels : Remark.attemptCancelled node k.1 k.2 ∈ e.abandon.filterMap Action.cancels? :=
        List.mem_filterMap.mpr ⟨_, done, rfl⟩
      rw [e.abandon_cancels?, Option.mem_toList, Option.map_eq_some_iff] at hcancels
      obtain ⟨a, hpending, hremark⟩ := hcancels
      obtain ⟨-, hindex, hnumber⟩ := Remark.attemptCancelled.inj hremark
      exact ⟨e, mem, a, hpending, Prod.ext hindex.symm hnumber.symm⟩
  · rintro met rfl
    obtain ⟨r, e, advance, more, -, -, hindex, turn, rfl, hmore⟩ := move.ofExecution
    rcases List.mem_append.mp done with done | done
    · exact turn.not_dropped (Deed.mem_ofExecution.mp done).2
    · exact (hmore _ done).1 (congrArg some hindex.symm)

/-- An execution that was dropped is gone. -/
theorem Run.gone_of_dropped {index number : Nat} {node : Node} (h : Run s ts σ)
    (done : ⟨some index, .remark (.attemptCancelled node index number)⟩ ∈ log ts) :
    ∀ e ∈ σ.executions, e.index ≠ index := by
  have hmem : Remark.attemptCancelled node index number ∈
      (Deed.actionsOf index (log ts)).filterMap Action.cancels? :=
    List.mem_filterMap.mpr ⟨_, Deed.mem_actionsOf.mpr done, rfl⟩
  cases (Law.accounted s).record h index with
  | live _ _ holds =>
    rw [holds.2] at hmem
    cases hmem
  | ended absent | never absent => exact absent

/-- An attempt that is dropped ends, in a step in which its execution meets nothing. -/
theorem Run.ends_of_dropped (h : Run s ts σ) : ∀ t ∈ ts, ∀ k, DroppedIn t k →
    t.Ends k ∧ ∀ met, t.event ≠ .execution k.1 met := by
  induction h with
  | start => simp
  | @step ts m σ σ' event deeds run taken ih =>
    refine List.forall_mem_append.mpr ⟨ih, List.forall_mem_singleton.mpr fun k dropped => ?_⟩
    obtain ⟨hbefore, hmeets⟩ := (step_move taken).attempting_of_dropped dropped
    refine ⟨⟨hbefore, ?_⟩, hmeets⟩
    rintro ⟨o, ho, a, -, rfl⟩
    obtain ⟨node, done⟩ := dropped
    have hdone : ⟨some o.index, .remark (.attemptCancelled node o.index a.number)⟩ ∈
        log (ts ++ [⟨m, σ, event, σ', deeds⟩]) := by
      rw [log_concat]
      exact List.mem_append_right _ done
    exact (run.step taken).gone_of_dropped hdone o ho rfl

/-- An attempt that is refused its connection, or is dropped, has no call. -/
theorem Run.uncalled (h : Run s ts σ) (mem : t ∈ ts)
    (without : RefusedIn t k ∨ DroppedIn t k) :
    ∀ t' ∈ ts, ∀ c, t'.call? s = some c → c.host.ordinal ≠ k := by
  rintro t' ht' c due rfl
  obtain ⟨e, -, a, conn, met, hevent, hphase, hending, hhost⟩ := Transition.of_call due
  have hends := h.ends_of_call t' ht' c due
  rcases without with refused | dropped
  · obtain rfl := h.ends_unique ht' mem hends (h.ends_of_refused t mem _ refused)
    obtain ⟨o, -, a', cause, -, hrefused, -⟩ := refused
    obtain ⟨-, rfl⟩ := Event.execution.inj (hevent.symm.trans hrefused)
    cases hending
  · obtain ⟨hends', hmeets⟩ := h.ends_of_dropped t mem _ dropped
    obtain rfl := h.ends_unique ht' mem hends hends'
    exact hmeets met (by rw [hevent, hhost]; rfl)

-- ============================================================================
-- What a policy can rely on
-- ============================================================================

/-- What the load balancing policy of a request can rely on. -/
structure CallsHooks (s : Settings) (ts : List Transition) : Prop where
  /-- In each step the hook is called that is due, and no other. -/
  called : ∀ t ∈ ts,
    (t.deeds.filter fun d => d.action.isHook) = ((t.call? s).map HookCall.deed).toList
  /-- No attempt has two calls. -/
  once : ((ts.filterMap (Transition.call? s)).map fun c => c.host.ordinal).Nodup
  /-- The attempt of a call was started, on the node of the call, and got its connection. -/
  acquired : EachAfter (fun before t => ∀ c, t.call? s = some c →
    .nodeStarted c.host ∈ Deed.notices (log before) ∧
      ∃ t' ∈ before, ∃ e a conn, AcquiredIn t' e a conn ∧ c.host = e.host a) ts
  /-- An attempt that was refused a connection, or was dropped while it was pending, has no
      call. -/
  uncalled : ∀ t ∈ ts, ∀ k, RefusedIn t k ∨ DroppedIn t k →
    ∀ t' ∈ ts, ∀ c, t'.call? s = some c → c.host.ordinal ≠ k
  /-- The retry policy and the observers hear of the end of an attempt after its call. -/
  first : EachAfter (fun before t => ∀ c, t.call? s = some c →
    ∃ earlier later, t.deeds = earlier ++ c.deed :: later ∧
      ∀ d ∈ log before ++ earlier, ¬ d.Judges c.host.ordinal) ts

/-- In every run the hooks are called as the policy can rely on. -/
theorem Run.callsHooks (h : Run s ts σ) : CallsHooks s ts where
  called := h.calls
  once := h.callsOnce
  acquired := by
    refine h.eachStep fun ts m σ event σ' deeds run _ c due => ?_
    obtain ⟨e, mem, a, conn, met, hevent, hphase, hending, hhost⟩ := Transition.of_call due
    constructor
    · have hattempt : e.attempt? = some a := by rw [Execution.attempt?, hphase]
      obtain ⟨t, ht, hstarted⟩ := run.attempted e mem a hattempt
      rw [hhost]
      exact Deed.mem_seen.mpr ⟨_, List.mem_append_right _
        (List.mem_flatMap.mpr ⟨t, ht, hstarted.announced⟩), rfl⟩
    · cases σ with
      | running r =>
        obtain ⟨t, ht, hacquired, -⟩ := run.acquired e mem a conn hphase
        exact ⟨t, ht, e, a, conn, hacquired, hhost⟩
      | starting | concluding | finished | dropped => cases mem
  uncalled _ ht _ without := h.uncalled ht without
  first := by
    intro before t after hsplit c due
    have hmem : t ∈ ts := hsplit ▸ List.mem_append_right _ List.mem_cons_self
    have hends := h.ends_of_call t hmem c due
    obtain ⟨earlier, later, hdeeds, hearlier⟩ := h.callsFirst t hmem c due
    refine ⟨earlier, later, hdeeds, List.forall_mem_append.mpr ⟨fun d hd judges => ?_, ?_⟩⟩
    · rcases List.mem_append.mp hd with hd | hd
      · cases List.mem_singleton.mp hd
        cases judges with
        | tells report => cases report
      · obtain ⟨t', ht', hd⟩ := List.mem_flatMap.mp hd
        have hmem' : t' ∈ ts := hsplit ▸ List.mem_append_left _ ht'
        have hends' := h.ends_of_judges t' hmem' d hd _ judges
        exact h.endsOnce before t after hsplit t' ht' _ hends' hends.before
    · exact fun d hd judges => by simpa [hearlier d hd] using judges.isVerdict

/-- Of the four attempts three have a call, among them the one that is too late. -/
theorem Run.callsHooks_of_contested :
    CallsHooks stubbornSettings contestedSteps ∧
      contestedSteps.filterMap (Transition.call? stubbornSettings) =
        [⟨⟨default, 0, 2⟩, stubbornSettings.routing, ⟨2⟩, some (.database .overloaded "busy")⟩,
          ⟨⟨default, 0, 3⟩, stubbornSettings.routing, ⟨3⟩, none⟩,
          ⟨⟨otherNode, 1, 1⟩, stubbornSettings.routing, ⟨6⟩, none⟩] ∧
        Deed.starts (log contestedSteps) =
          [⟨default, 0, 1⟩, ⟨otherNode, 1, 1⟩, ⟨default, 0, 2⟩, ⟨default, 0, 3⟩] ∧
          ⟨some 1, .remark .succeededTooLate⟩ ∈ log contestedSteps := by
  refine ⟨Run.callsHooks contestedRun, ?_, ?_, ?_⟩
  · decide +kernel
  · decide +kernel
  · decide +kernel

end Request

end RequestEngine
