/-
  RequestEngine.Proofs.Execution.Turn

  What one step of an execution can do, said once.  `Turn` lists the ways in
  which a step goes, each with its guards, the new state and the actions taken;
  `step_turn` says that there are no others.  Three smaller relations say how
  parts of it come about:

    * `MovesOn` — which decisions leave the node, and with what remark;
    * `Onward`  — how an execution comes to the attempt that is about to start;
    * `Fails`   — which error an attempt ends with, and what precedes it.

  Facts about runs are derived from these and do not unfold the step again.
-/
import RequestEngine.Request.Execution

namespace RequestEngine

/-- Actions that concern neither an observer, nor the claim, nor a connection, nor the end of an
    attempt: policies are consulted, an execution is opened, or something is remarked. -/
def Action.isQuiet : Action → Bool
  | .remark (.attemptCancelled ..) => false
  | .consult _ | .askDelay .. | .openExecution _ | .remark _ => true
  | _ => false

/-- Actions that neither claim the resolution nor tell an observer anything. -/
def Action.isInner : Action → Bool
  | .claim .. | .notify _ => false
  | _ => true

theorem Action.isInner_of_isQuiet {a : Action} (h : a.isQuiet = true) : a.isInner = true := by
  cases a <;> first | rfl | cases h

/-- Whoever does not look at notes about the plan sees nothing in them. -/
theorem Action.consult_shows_nothing {α : Type} {f : Action → Option α}
    (blind : ∀ note, f (.consult note) = none) (notes : List PlanNote) :
    (notes.map consult).filterMap f = [] := by
  rw [List.filterMap_map]
  exact List.filterMap_eq_nil_iff.mpr fun note _ => blind note

section Shared

variable {sh sh' : Shared} {live : Liveness} {found : Option Node} {consulted : List Action}

/-- Asking the shared plan for a node changes nothing else that is shared. -/
theorem Shared.nextNode_rest (take : sh.nextNode live = (found, sh', consulted)) :
    sh' = { sh with plan := sh'.plan } := by
  simp only [nextNode, Prod.mk.injEq] at take
  rw [← take.2.1]

/-- Asking the shared plan for a node is asking the plan, and noting what it did. -/
theorem Shared.nextNode_notes (take : sh.nextNode live = (found, sh', consulted)) :
    ∃ notes, sh.plan.next live = (found, sh'.plan, notes) ∧ notes.map .consult = consulted := by
  simp only [nextNode, Prod.mk.injEq] at take
  obtain ⟨rfl, rfl, rfl⟩ := take
  exact ⟨_, rfl, rfl⟩

theorem Shared.nextNode_shows_nothing {α : Type} {f : Action → Option α}
    (blind : ∀ note, f (.consult note) = none)
    (take : sh.nextNode live = (found, sh', consulted)) : consulted.filterMap f = [] := by
  obtain ⟨notes, -, rfl⟩ := nextNode_notes take
  exact Action.consult_shows_nothing blind notes

end Shared

namespace Execution

/-! ## Between two attempts -/

/-- The execution after a failure, with the level and the ignored error that the decision
    about it leaves behind. -/
def heed (e : Execution) (error : AttemptError) : Decision → Execution
  | .ignore => { e with lastIgnored := some error }
  | d => { e with lastIgnored := none, level := d.level?.getD e.level }

@[simp] theorem heed_index (e : Execution) (error : AttemptError) (d : Decision) :
    (e.heed error d).index = e.index := by
  cases d <;> rfl

@[simp] theorem heed_attempts (e : Execution) (error : AttemptError) (d : Decision) :
    (e.heed error d).attempts = e.attempts := by
  cases d <;> rfl

/-- The attempt that an execution would start now. -/
def nextAttempt (e : Execution) (now : Instant) : Attempt :=
  ⟨e.attempts + 1, e.level, now⟩

/-- The execution once its next attempt is started. -/
def announce (e : Execution) (now : Instant) : Execution :=
  { e with attempts := e.attempts + 1, phase := .announcing (e.nextAttempt now) }

/-- The party that an attempt of this execution claims the resolution for. -/
def claimant (e : Execution) (a : Attempt) : Claimant :=
  .attempt e.index a.number

/-- A failed attempt, as the retry policy is told of it. -/
def failed (s : Settings) (a : Attempt) (error : AttemptError) : FailedAttempt :=
  ⟨error, s.routing.idempotent, a.level, a.number⟩

/-- What is said of a failure before anybody asks for the claim: the hook of the load balancing
    policy if the request was sent, the decision, and a remark. -/
def assess (s : Settings) (m : Moment) (e : Execution) (a : Attempt) (error : AttemptError) :
    List Action :=
  (if error.wasSent then [.reportFailure s.routing e.node (m.now.since a.started) error]
    else []) ++
    [.decide (failed s a error) (s.retry.remark (failed s a error))
        (s.retry.decide (failed s a error)),
      .remark (.attemptFailed error (s.retry.decide (failed s a error)))]

/-! ## The relations -/

/-- A decision after which the execution leaves its node, and the remark about it. -/
inductive MovesOn (s : Settings) (m : Moment) (e : Execution) : Decision → List Action → Prop where
  | ignored : MovesOn s m e .ignore []
  | elsewhere (level : Option Level) : MovesOn s m e (.retryNext level) []
  | refused (level : Option Level)
      (stay : ¬ (e.retries < s.sameTargetCap ∧ m.liveness.isUp e.node = true)) :
      MovesOn s m e (.retrySame level) [.remark (.leavesNode e.node e.retries)]

/-- How an execution comes to the attempt that is about to start: what is shared and the
    execution as they are then, and the actions on the way. -/
inductive Onward (s : Settings) (m : Moment) (sh : Shared) (e : Execution) :
    ExecutionEvent → Shared → Execution → List Action → Prop where
  | fresh (phase : e.phase = .fresh) : Onward s m sh e .begin sh e []
  | same {a : Attempt} {error : AttemptError} {level : Option Level}
      (phase : e.phase = .reportingFailure a error (.retrySame level))
      (below : e.retries < s.sameTargetCap) (up : m.liveness.isUp e.node = true) :
      Onward s m sh e .told (sh.addError e.node error)
        { e.heed error (.retrySame level) with retries := e.retries + 1 } []
  | next {a : Attempt} {error : AttemptError} {d : Decision} {node : Node} {sh' : Shared}
      {left consulted : List Action}
      (phase : e.phase = .reportingFailure a error d) (moves : MovesOn s m e d left)
      (take : (sh.addError e.node error).nextNode m.liveness = (some node, sh', consulted)) :
      Onward s m sh e .told sh' { e.heed error d with node, retries := 0 } (left ++ consulted)

/-- How an attempt fails: the event, the attempt, its error, and what is done first. -/
inductive Fails (s : Settings) (deadline : Option Instant) (m : Moment) (e : Execution) :
    ExecutionEvent → Attempt → AttemptError → List Action → Prop where
  | refused {a : Attempt} {cause : PoolError} (phase : e.phase = .acquiring a) :
      Fails s deadline m e (.connection (.error cause)) a (.pool cause)
        [.acquireFailed e.node cause]
  | broken {a : Attempt} {c : Connection} {cause : BrokenConnection}
      (phase : e.phase = .exchanging a c) :
      Fails s deadline m e (.answer (.error cause)) a (.broken cause) [.release e.node c]
  | database {a : Attempt} {c : Connection} {reply : ErrorReply}
      (phase : e.phase = .exchanging a c) :
      Fails s deadline m e (.answer (.ok (.error reply))) a (.database reply.error reply.reason)
        [.release e.node c]
  | unexpected {a : Attempt} {c : Connection} {reply : Reply}
      (phase : e.phase = .exchanging a c) (other : ∀ body, reply ≠ .result body) :
      Fails s deadline m e (.answer (.ok (.ok reply))) a (.unexpected reply.kind)
        [.release e.node c]
  | expired {a : Attempt} {c : Connection} {expiry : Instant} {limit : Duration}
      (phase : e.phase = .exchanging a c)
      (bound : s.attemptExpiry deadline a.started = some (expiry, limit))
      (due : expiry ≤ m.now) :
      Fails s deadline m e .expire a (.timeout limit) [.release e.node c]

/-- What one step of an execution does. -/
inductive Turn (s : Settings) (deadline : Option Instant) (m : Moment) (sh : Shared)
    (e : Execution) : ExecutionEvent → Advance → Prop where
  /-- The next attempt starts. -/
  | starts {event : ExecutionEvent} {sh' : Shared} {e' : Execution} {lead : List Action}
      (onward : Onward s m sh e event sh' e' lead) (free : sh'.claim = none) :
      Turn s deadline m sh e event
        ⟨sh', .goesOn (e'.announce m.now),
          lead ++ [.remark (.attemptStarted e'.node (e'.attempts + 1) e'.level),
            .notify (.nodeStarted (e'.host (e'.nextAttempt m.now)))]⟩
  /-- It does not start, because the request is resolved already. -/
  | stops {event : ExecutionEvent} {sh' : Shared} {e' : Execution} {lead : List Action}
      (onward : Onward s m sh e event sh' e' lead) (taken : sh'.claim ≠ none) :
      Turn s deadline m sh e event ⟨sh', .cancelled, lead ++ [.remark .notStarted]⟩
  /-- No node is left. -/
  | exhausts {a : Attempt} {error : AttemptError} {d : Decision} {sh' : Shared}
      {left consulted : List Action}
      (phase : e.phase = .reportingFailure a error d) (moves : MovesOn s m e d left)
      (take : (sh.addError e.node error).nextNode m.liveness = (none, sh', consulted)) :
      Turn s deadline m sh e .told
        ⟨sh', .exhausted (e.heed error d).lastIgnored,
          left ++ (consulted ++ [.remark .planExhausted])⟩
  /-- The observers know of the attempt, and a connection is asked for. -/
  | asks {a : Attempt} (phase : e.phase = .announcing a) :
      Turn s deadline m sh e .told
        ⟨sh, .goesOn { e with phase := .acquiring a }, [.askConnection e.node]⟩
  /-- The connection is there. -/
  | sends {a : Attempt} {c : Connection} (phase : e.phase = .acquiring a) :
      Turn s deadline m sh e (.connection (.ok c))
        ⟨sh, .goesOn { e with phase := .exchanging a c },
          [.acquired e.node c, .send e.node c a.level s.routing.serial]⟩
  /-- A result arrived, and the attempt resolves the request. -/
  | succeeds {a : Attempt} {c : Connection} {body : String}
      (phase : e.phase = .exchanging a c) (free : sh.claim = none) :
      Turn s deadline m sh e (.answer (.ok (.ok (.result body))))
        ⟨{ sh with claim := some (e.claimant a) },
          .goesOn { e with phase := .reportingSuccess a ⟨.result body, e.node, c.address⟩ },
          [.release e.node c, .reportSuccess s.routing e.node (m.now.since a.started),
            .claim (e.claimant a) true, .remark (.attemptSucceeded (m.now.since a.started)),
            .notify (.nodeSucceeded (e.host a))]⟩
  /-- A result arrived, but somebody else had resolved the request. -/
  | succeedsLate {a : Attempt} {c : Connection} {body : String}
      (phase : e.phase = .exchanging a c) (taken : sh.claim ≠ none) :
      Turn s deadline m sh e (.answer (.ok (.ok (.result body))))
        ⟨sh, .cancelled,
          [.release e.node c, .reportSuccess s.routing e.node (m.now.since a.started),
            .claim (e.claimant a) false, .remark .succeededTooLate]⟩
  /-- The attempt failed, and its error stands: it resolves the request. -/
  | rethrows {event : ExecutionEvent} {a : Attempt} {error : AttemptError}
      {back : List Action} (fails : Fails s deadline m e event a error back)
      (decision : s.retry.decide (failed s a error) = .rethrow) (free : sh.claim = none) :
      Turn s deadline m sh e event
        ⟨{ sh with claim := some (e.claimant a) },
          .goesOn { e with phase := .reportingFailure a error .rethrow },
          back ++ (e.assess s m a error ++ [.claim (e.claimant a) true,
            .notify (.nodeFailed (e.host a) error.errorType .rethrow error)])⟩
  /-- The attempt failed, and the execution is to go on. -/
  | fails {event : ExecutionEvent} {a : Attempt} {error : AttemptError} {d : Decision}
      {back : List Action} (fails : Fails s deadline m e event a error back)
      (decision : s.retry.decide (failed s a error) = d) (again : d ≠ .rethrow)
      (free : sh.claim = none) :
      Turn s deadline m sh e event
        ⟨sh, .goesOn { e with phase := .reportingFailure a error d },
          back ++ (e.assess s m a error ++
            [.notify (.nodeFailed (e.host a) error.errorType d error)])⟩
  /-- The attempt failed, but somebody else had resolved the request. -/
  | failsLate {event : ExecutionEvent} {a : Attempt} {error : AttemptError}
      {back lost : List Action} (fails : Fails s deadline m e event a error back)
      (asked : lost = if s.retry.decide (failed s a error) = .rethrow
        then [.claim (e.claimant a) false] else [])
      (taken : sh.claim ≠ none) :
      Turn s deadline m sh e event
        ⟨sh, .cancelled, back ++ (e.assess s m a error ++ (lost ++ [.remark .failedTooLate]))⟩
  /-- The observers know of the success. -/
  | returns {a : Attempt} {answer : Answer} (phase : e.phase = .reportingSuccess a answer) :
      Turn s deadline m sh e .told ⟨sh, .resolved (.ok answer), []⟩
  /-- The observers know of the error that stands. -/
  | throws {a : Attempt} {error : AttemptError}
      (phase : e.phase = .reportingFailure a error .rethrow) :
      Turn s deadline m sh e .told ⟨sh, .resolved (.error (.lastAttempt error)), []⟩

/-! ## Every step is a turn -/

variable {s : Settings} {deadline : Option Instant} {m : Moment} {sh sh' : Shared}
  {e e' : Execution} {event : ExecutionEvent} {lead : List Action}

theorem startAttempt_turn (onward : Onward s m sh e event sh' e' lead) :
    Turn s deadline m sh e event ((startAttempt m sh' e').after lead) := by
  cases hc : sh'.claim with
  | none =>
    have h : Turn s deadline m sh e event _ := .starts onward hc
    simpa [startAttempt, Shared.claimed, hc, Advance.after, announce, nextAttempt, host] using h
  | some who =>
    have h : Turn s deadline m sh e event _ := .stops onward (by simp [hc])
    simpa [startAttempt, Shared.claimed, hc, Advance.after] using h

theorem moveOn_turn {a : Attempt} {error : AttemptError} {d : Decision} {left : List Action}
    (phase : e.phase = .reportingFailure a error d) (moves : MovesOn s m e d left) :
    Turn s deadline m sh e .told
      ((moveOn m (sh.addError e.node error) (e.heed error d)).after left) := by
  rcases htake : (sh.addError e.node error).nextNode m.liveness with ⟨found, rest, consulted⟩
  cases found with
  | none =>
    have h : Turn s deadline m sh e .told _ := .exhausts phase moves htake
    simpa [moveOn, htake, Advance.after] using h
  | some node =>
    have h : Turn s deadline m sh e .told _ := startAttempt_turn (.next phase moves htake)
    simpa [moveOn, htake, Advance.after] using h

theorem succeed_turn {a : Attempt} {c : Connection} {body : String}
    (phase : e.phase = .exchanging a c) :
    Turn s deadline m sh e (.answer (.ok (.ok (.result body))))
      ((succeed s m sh e a ⟨.result body, e.node, c.address⟩).after [.release e.node c]) := by
  cases hc : sh.claim with
  | none =>
    have h : Turn s deadline m sh e (.answer (.ok (.ok (.result body)))) _ :=
      .succeeds phase hc
    simpa [succeed, Shared.tryClaim, Shared.claimed, hc, Advance.after, claimant] using h
  | some who =>
    have h : Turn s deadline m sh e (.answer (.ok (.ok (.result body)))) _ :=
      .succeedsLate phase (by simp [hc])
    simpa [succeed, Shared.tryClaim, Shared.claimed, hc, Advance.after, claimant] using h

theorem fail_turn {a : Attempt} {error : AttemptError} {back : List Action}
    (fails : Fails s deadline m e event a error back) :
    Turn s deadline m sh e event ((fail s m sh e a error).after back) := by
  by_cases hd : s.retry.decide (failed s a error) = .rethrow
  · cases hc : sh.claim with
    | none =>
      have h := Turn.rethrows fails hd hc
      simp only [failed] at hd
      simpa [fail, assess, failed, hd, Shared.tryClaim, Shared.claimed, hc, Advance.after,
        claimant] using h
    | some who =>
      have h : Turn s deadline m sh e event _ := .failsLate fails rfl (by simp [hc])
      simp only [failed] at hd
      simpa [fail, assess, failed, hd, Shared.tryClaim, Shared.claimed, hc, Advance.after,
        claimant] using h
  · cases hc : sh.claim with
    | none =>
      have h := Turn.fails fails rfl hd hc
      simp only [failed] at hd
      simpa [fail, assess, failed, hd, Shared.claimed, hc, Advance.after] using h
    | some who =>
      have h : Turn s deadline m sh e event _ := .failsLate fails rfl (by simp [hc])
      simp only [failed] at hd
      simpa [fail, assess, failed, hd, Shared.claimed, hc, Advance.after] using h

theorem receive_turn {a : Attempt} {c : Connection} (phase : e.phase = .exchanging a c)
    (result : Except BrokenConnection Response) :
    Turn s deadline m sh e (.answer result)
      ((receive s m sh e a c result).after [.release e.node c]) := by
  match result with
  | .error cause => exact fail_turn (.broken phase)
  | .ok (.error reply) => exact fail_turn (.database phase)
  | .ok (.ok (.result body)) => exact succeed_turn phase
  | .ok (.ok .ready) => exact fail_turn (.unexpected phase (by simp))
  | .ok (.ok .supported) => exact fail_turn (.unexpected phase (by simp))
  | .ok (.ok (.event body)) => exact fail_turn (.unexpected phase (by simp))

theorem follow_turn {a : Attempt} {error : AttemptError} {d : Decision}
    (phase : e.phase = .reportingFailure a error d) :
    Turn s deadline m sh e .told (follow s m sh e error d) := by
  cases d with
  | rethrow => exact .throws phase
  | ignore => exact moveOn_turn phase .ignored
  | retryNext level => exact moveOn_turn phase (.elsewhere level)
  | retrySame level =>
    simp only [follow]
    split
    · rename_i stay
      simp only [Bool.and_eq_true, decide_eq_true_eq] at stay
      exact startAttempt_turn (.same phase stay.1 stay.2)
    · rename_i leave
      simp only [Bool.and_eq_true, decide_eq_true_eq] at leave
      exact moveOn_turn phase (.refused level leave)

/-- Whatever an execution does in one step is one of its turns. -/
theorem step_turn {advance : Advance}
    (h : e.step s deadline m sh event = some advance) :
    Turn s deadline m sh e event advance := by
  unfold step at h
  split at h <;> try cases h
  · rename_i phase
    exact startAttempt_turn (.fresh phase)
  · rename_i phase
    exact .asks phase
  · rename_i phase
    exact .sends phase
  · rename_i phase
    exact fail_turn (.refused phase)
  · rename_i phase
    exact receive_turn phase _
  · rename_i phase
    split at h
    · rename_i bound
      split at h <;> cases h
      rename_i due
      exact fail_turn (.expired phase bound due)
    · cases h
  · rename_i phase
    exact .returns phase
  · rename_i phase
    exact follow_turn phase

/-! ## What happens on the way to an attempt -/

@[simp] theorem addError_claim (sh : Shared) (n : Node) (error : AttemptError) :
    (sh.addError n error).claim = sh.claim := rfl

theorem nextNode_claim {found : Option Node} {consulted : List Action} {live : Liveness}
    (take : sh.nextNode live = (found, sh', consulted)) : sh'.claim = sh.claim := by
  rw [Shared.nextNode_rest take]

theorem nextNode_quiet {found : Option Node} {consulted : List Action} {live : Liveness}
    (take : sh.nextNode live = (found, sh', consulted)) :
    ∀ a ∈ consulted, a.isQuiet = true := by
  obtain ⟨notes, -, rfl⟩ := Shared.nextNode_notes take
  exact List.forall_mem_map.mpr fun _ _ => rfl

theorem MovesOn.quiet {d : Decision} {left : List Action} (h : MovesOn s m e d left) :
    ∀ a ∈ left, a.isQuiet = true := by
  cases h <;> simp [Action.isQuiet]

/-- An execution that finds no node any more only consults and remarks. -/
theorem MovesOn.exhausting_quiet {d : Decision} {left consulted : List Action} {live : Liveness}
    {found : Option Node} (h : MovesOn s m e d left)
    (take : sh.nextNode live = (found, sh', consulted)) :
    ∀ a ∈ left ++ (consulted ++ [.remark .planExhausted]), a.isQuiet = true :=
  List.forall_mem_append.mpr ⟨h.quiet,
    List.forall_mem_append.mpr ⟨nextNode_quiet take, List.forall_mem_singleton.mpr rfl⟩⟩

theorem MovesOn.ne_rethrow {d : Decision} {left : List Action} (h : MovesOn s m e d left) :
    d ≠ .rethrow := by
  cases h <;> simp

theorem Fails.inner {a : Attempt} {error : AttemptError} {back : List Action}
    (h : Fails s deadline m e event a error back) : ∀ x ∈ back, x.isInner = true := by
  cases h <;> simp [Action.isInner]

theorem assess_inner (a : Attempt) (error : AttemptError) :
    ∀ x ∈ e.assess s m a error, x.isInner = true := by
  cases h : error.wasSent <;> simp [assess, h, Action.isInner]

theorem abandon_inner (e : Execution) : ∀ x ∈ e.abandon, x.isInner = true := by
  intro x hx
  simp only [abandon, List.mem_append, Option.mem_toList, Option.map_eq_some_iff] at hx
  rcases hx with ⟨c, -, rfl⟩ | ⟨a, -, rfl⟩ <;> rfl

namespace Onward

/-- An attempt is the first of its execution, or follows a failed one. -/
theorem origin (h : Onward s m sh e event sh' e' lead) :
    (e.phase = .fresh ∧ e' = e) ∨
      ∃ a error d, e.phase = .reportingFailure a error d ∧ d ≠ .rethrow := by
  cases h with
  | fresh phase => exact .inl ⟨phase, rfl⟩
  | same phase => exact .inr ⟨_, _, _, phase, by simp⟩
  | next phase moves => exact .inr ⟨_, _, _, phase, moves.ne_rethrow⟩

theorem index (h : Onward s m sh e event sh' e' lead) : e'.index = e.index := by
  cases h <;> simp

theorem attempts (h : Onward s m sh e event sh' e' lead) : e'.attempts = e.attempts := by
  cases h <;> simp

theorem claim (h : Onward s m sh e event sh' e' lead) : sh'.claim = sh.claim := by
  cases h with
  | fresh => rfl
  | same => rfl
  | next _ _ take => exact (nextNode_claim take).trans (addError_claim ..)

theorem quiet (h : Onward s m sh e event sh' e' lead) : ∀ a ∈ lead, a.isQuiet = true := by
  cases h with
  | fresh => simp
  | same => simp
  | next _ moves take => exact List.forall_mem_append.mpr ⟨moves.quiet, nextNode_quiet take⟩

theorem stopping_quiet (h : Onward s m sh e event sh' e' lead) :
    ∀ a ∈ lead ++ [.remark .notStarted], a.isQuiet = true :=
  List.forall_mem_append.mpr ⟨h.quiet, List.forall_mem_singleton.mpr rfl⟩

end Onward

/-- A step never gives an execution another index. -/
theorem Turn.index {actions : List Action}
    (h : Turn s deadline m sh e event ⟨sh', .goesOn e', actions⟩) : e'.index = e.index := by
  cases h with
  | starts onward => exact onward.index
  | asks | sends | succeeds | rethrows | fails => rfl

end Execution

end RequestEngine
