/-
  RequestEngine.Proofs.Request.Resolution

  A request is resolved exactly once.  Executions, the timer, the deadline and
  the end of the plan race for one claim; whoever gets it fixes the outcome, and
  only this outcome is reported.

    * `Effect`   — what one turn of an execution means for the resolution;
    * `Fixes`    — how each party that can win fixes the outcome;
    * `Standing` — the invariant: while the claim is free nothing has been
      decided, and while it is taken the execution that took it is in flight and
      reports its verdict, so the end of the plan is never reached in vain;
    * `Resolution` — what this comes to for a request that is not dropped.
-/
import RequestEngine.Proofs.Request.Chronicle
import RequestEngine.Proofs.Request.Progress

namespace RequestEngine

namespace Action

/-- The host of an attempt that an action reports as successful. -/
def success? : Action → Option HostInfo
  | .notify (.nodeSucceeded h) => some h
  | _ => none

/-- The last notification of a request. -/
def final? : Action → Option Notification
  | .notify n => if n.isFinal then some n else none
  | _ => none

@[simp] theorem winner?_notify (n : Notification) : (notify n).winner? = none := rfl

@[simp] theorem winner?_won (who : Claimant) : (claim who true).winner? = some who := rfl

@[simp] theorem success?_claim (who : Claimant) (won : Bool) :
    (claim who won).success? = none := rfl

@[simp] theorem success?_finalNotice (o : Outcome) :
    (notify (Request.finalNotice o)).success? = none := by
  cases o <;> rfl

@[simp] theorem final?_claim (who : Claimant) (won : Bool) : (claim who won).final? = none := rfl

@[simp] theorem final?_finalNotice (o : Outcome) :
    (notify (Request.finalNotice o)).final? = some (Request.finalNotice o) := by
  cases o <;> rfl

theorem final?_blind : Blind final? := by
  intro a h
  cases a <;> first | rfl | cases h

/-- Actions that neither win the claim nor report a success or the end of the request. -/
def isNeutral : Action → Bool
  | .claim _ won => !won
  | .notify (.nodeSucceeded _) => false
  | .notify n => !n.isFinal
  | _ => true

theorem isNeutral_of_isInner {a : Action} (h : a.isInner = true) : a.isNeutral = true := by
  cases a <;> first | rfl | cases h

section Neutral

variable {actions : List Action}

theorem neutral_of_inner (inner : ∀ a ∈ actions, a.isInner = true) :
    ∀ a ∈ actions, a.isNeutral = true :=
  fun a ha => isNeutral_of_isInner (inner a ha)

theorem neutral_of_quiet (quiet : ∀ a ∈ actions, a.isQuiet = true) :
    ∀ a ∈ actions, a.isNeutral = true :=
  neutral_of_inner fun a ha => isInner_of_isQuiet (quiet a ha)

variable (neutral : ∀ a ∈ actions, a.isNeutral = true)

include neutral

theorem filterMap_winner? : actions.filterMap winner? = [] := by
  refine List.filterMap_eq_nil_iff.mpr fun a ha => ?_
  have h := neutral a ha
  cases a with
  | claim who won => cases won <;> first | rfl | cases h
  | _ => rfl

theorem filterMap_success? : actions.filterMap success? = [] := by
  refine List.filterMap_eq_nil_iff.mpr fun a ha => ?_
  have h := neutral a ha
  cases a with
  | notify n => cases n <;> first | rfl | cases h
  | _ => rfl

theorem filterMap_final? : actions.filterMap final? = [] := by
  refine List.filterMap_eq_nil_iff.mpr fun a ha => ?_
  have h := neutral a ha
  cases a with
  | notify n => cases n <;> first | rfl | cases h
  | _ => rfl

end Neutral

end Action

namespace Deed

/-- The hosts that were reported as successful, in order. -/
abbrev successes (log : List Deed) : List HostInfo :=
  seen Action.success? log

/-- The notifications that end a request. -/
abbrev finals (log : List Deed) : List Notification :=
  seen Action.final? log

/-- Deeds that do not bear on the resolution. -/
def Neutral (deeds : List Deed) : Prop :=
  ∀ a ∈ deeds.map Deed.action, a.isNeutral = true

theorem seen_eq_filterMap {α : Type} (view : Action → Option α) (deeds : List Deed) :
    seen view deeds = (deeds.map Deed.action).filterMap view := by
  simp [seen, List.filterMap_map]

variable {deeds deeds' : List Deed} {index : Nat} {actions : List Action}

namespace Neutral

theorem winners (h : Neutral deeds) : Deed.winners deeds = [] :=
  (seen_eq_filterMap ..).trans (Action.filterMap_winner? h)

theorem successes (h : Neutral deeds) : Deed.successes deeds = [] :=
  (seen_eq_filterMap ..).trans (Action.filterMap_success? h)

theorem finals (h : Neutral deeds) : Deed.finals deeds = [] :=
  (seen_eq_filterMap ..).trans (Action.filterMap_final? h)

end Neutral

@[simp] theorem neutral_ofExecution :
    Neutral (ofExecution index actions) ↔ ∀ a ∈ actions, a.isNeutral = true := by
  simp [Neutral, ofExecution]

@[simp] theorem neutral_ofRequest :
    Neutral (ofRequest actions) ↔ ∀ a ∈ actions, a.isNeutral = true := by
  simp [Neutral, ofRequest]

@[simp] theorem neutral_abandonAll (executions : List Execution) :
    Neutral (Request.abandonAll executions) := by
  intro a ha
  obtain ⟨d, hd, rfl⟩ := List.mem_map.mp ha
  obtain ⟨e, -, hd⟩ := List.mem_flatMap.mp hd
  exact Action.isNeutral_of_isInner (e.abandon_inner _ (mem_ofExecution.mp hd).2)

end Deed

-- ============================================================================
-- Verdicts of an execution
-- ============================================================================

namespace Execution

/-- The attempt that is being reported and the outcome that it gives the request. -/
def verdict? (e : Execution) : Option (Attempt × Outcome) :=
  match e.phase with
  | .reportingSuccess a answer => some (a, .ok answer)
  | .reportingFailure a error .rethrow => some (a, .error (.lastAttempt error))
  | _ => none

/-- How an attempt comes to a verdict: its result arrived, or it failed and its error stands. -/
inductive Settles (s : Settings) (deadline : Option Instant) (m : Moment) (e : Execution) :
    ExecutionEvent → Attempt → Outcome → Prop where
  | success {a : Attempt} {c : Connection} {body : String}
      (phase : e.phase = .exchanging a c) :
      Settles s deadline m e (.answer (.ok (.ok (.result body)))) a
        (.ok ⟨.result body, e.node, c.address⟩)
  | failure {event : ExecutionEvent} {a : Attempt} {error : AttemptError}
      {back : List Action} (fails : Fails s deadline m e event a error back)
      (decision : s.retry.decide (failed s a error) = .rethrow) :
      Settles s deadline m e event a (.error (.lastAttempt error))

/-- The hosts to report as successful under an outcome. -/
def heralded (e : Execution) (a : Attempt) : Outcome → List HostInfo
  | .ok _ => [e.host a]
  | .error _ => []

/-- What a turn of an execution means for the resolution of its request. -/
inductive Effect (s : Settings) (deadline : Option Instant) (m : Moment) (sh : Shared)
    (e : Execution) (event : ExecutionEvent) : Shared → Progress → List Action → Prop where
  /-- Nothing: an execution without a verdict comes to none. -/
  | none {sh' : Shared} {progress : Progress} {actions : List Action}
      (claim : sh'.claim = sh.claim) (before : e.verdict? = none)
      (after : ∀ e', progress = .goesOn e' → e'.verdict? = none)
      (unresolved : ∀ o, progress ≠ .resolved o)
      (late : progress = .cancelled → sh.claim ≠ none)
      (neutral : ∀ x ∈ actions, x.isNeutral = true) :
      Effect s deadline m sh e event sh' progress actions
  /-- It claims the resolution for one of its attempts. -/
  | claims {e' : Execution} {a : Attempt} {o : Outcome} {actions : List Action}
      (free : sh.claim = none) (after : e'.verdict? = some (a, o)) (index : e'.index = e.index)
      (settles : e.Settles s deadline m event a o)
      (claim : .claim (e.claimant a) true ∈ actions)
      (winners : actions.filterMap Action.winner? = [e.claimant a])
      (successes : actions.filterMap Action.success? = e.heralded a o)
      (finals : actions.filterMap Action.final? = []) :
      Effect s deadline m sh e event { sh with claim := some (e.claimant a) } (.goesOn e') actions
  /-- Its verdict has been reported and resolves the request. -/
  | resolves {a : Attempt} {o : Outcome} (before : e.verdict? = some (a, o)) :
      Effect s deadline m sh e event sh (.resolved o) []

variable {s : Settings} {deadline : Option Instant} {m : Moment} {sh sh' : Shared}
  {e e' : Execution} {event : ExecutionEvent} {lead : List Action} {advance : Advance}

theorem MovesOn.verdict? {a : Attempt} {error : AttemptError} {d : Decision}
    {left : List Action} (h : MovesOn s m e d left)
    (phase : e.phase = .reportingFailure a error d) : e.verdict? = none := by
  cases h <;> simp [Execution.verdict?, phase]

theorem Onward.verdict? (h : Onward s m sh e event sh' e' lead) : e.verdict? = none := by
  cases h with
  | fresh phase => simp [Execution.verdict?, phase]
  | same phase => simp [Execution.verdict?, phase]
  | next phase moves => exact moves.verdict? phase

theorem Fails.verdict? {a : Attempt} {error : AttemptError} {back : List Action}
    (h : Fails s deadline m e event a error back) : e.verdict? = none := by
  cases h <;> simp [Execution.verdict?, *]

/-- Every turn has its effect. -/
theorem Turn.effect (h : Turn s deadline m sh e event advance) :
    Effect s deadline m sh e event advance.shared advance.progress advance.actions := by
  cases h with
  | starts onward =>
    refine .none onward.claim onward.verdict? (by rintro _ ⟨⟩; rfl) (by simp) (by simp) ?_
    exact List.forall_mem_append.mpr
      ⟨Action.neutral_of_quiet onward.quiet, by simp; exact ⟨rfl, rfl⟩⟩
  | stops onward taken =>
    exact .none onward.claim onward.verdict? (by simp) (by simp)
      (fun _ => onward.claim ▸ taken) (Action.neutral_of_quiet onward.stopping_quiet)
  | exhausts phase moves take =>
    have claim := (nextNode_claim take).trans (addError_claim ..)
    exact .none claim (moves.verdict? phase) (by simp) (by simp) (by simp)
      (Action.neutral_of_quiet (moves.exhausting_quiet take))
  | asks phase | sends phase =>
    refine .none rfl (by simp [verdict?, phase]) (by rintro _ ⟨⟩; rfl) (by simp) (by simp) ?_
    simp [Action.isNeutral]
  | succeeds phase free =>
    exact .claims free rfl rfl (.success phase) (by simp) rfl rfl rfl
  | succeedsLate phase taken =>
    refine .none rfl (by simp [verdict?, phase]) (by simp) (by simp) (fun _ => taken) ?_
    simp [Action.isNeutral]
  | @rethrows _ a error _ fails decision free =>
    have hback := Action.neutral_of_inner fails.inner
    have hassess := Action.neutral_of_inner (e.assess_inner (s := s) (m := m) a error)
    refine .claims free rfl rfl (.failure fails decision) (by simp) ?_ ?_ ?_
    · simp [Action.filterMap_winner? hback, Action.filterMap_winner? hassess]
    · simp [Action.filterMap_success? hback, Action.filterMap_success? hassess, heralded,
        Action.success?]
    · simp [Action.filterMap_final? hback, Action.filterMap_final? hassess, Action.final?,
        Notification.isFinal]
  | @fails _ _ _ d _ fails _ again =>
    refine .none rfl fails.verdict? ?_ (by simp) (by simp) ?_
    · rintro _ ⟨⟩
      cases d <;> first | rfl | exact absurd rfl again
    · refine List.forall_mem_append.mpr ⟨Action.neutral_of_inner fails.inner, ?_⟩
      exact List.forall_mem_append.mpr ⟨Action.neutral_of_inner (assess_inner _ _), by simp; rfl⟩
  | failsLate fails asked taken =>
    subst asked
    refine .none rfl fails.verdict? (by simp) (by simp) (fun _ => taken) ?_
    refine List.forall_mem_append.mpr ⟨Action.neutral_of_inner fails.inner, ?_⟩
    refine List.forall_mem_append.mpr ⟨Action.neutral_of_inner (assess_inner _ _), ?_⟩
    split <;> simp [Action.isNeutral]
  | @returns a answer phase =>
    exact .resolves (a := a) (by simp [verdict?, phase])
  | @throws a error phase =>
    exact .resolves (a := a) (by simp [verdict?, phase])

/-- An execution never reports the end of its request. -/
theorem Turn.finals (h : Turn s deadline m sh e event advance) :
    advance.actions.filterMap Action.final? = [] := by
  have heffect := h.effect
  generalize advance.shared = sh', advance.progress = progress, advance.actions = actions
    at heffect
  cases heffect with
  | none _ _ _ _ _ neutral => exact Action.filterMap_final? neutral
  | claims _ _ _ _ _ _ _ finals => exact finals
  | resolves => rfl

/-- An execution that ends because the plan is exhausted remarks that, and hands over the error
    that it ignored last. -/
theorem Turn.exhausted {lastIgnored : Option AttemptError} {actions : List Action}
    (h : Turn s deadline m sh e event ⟨sh', .exhausted lastIgnored, actions⟩) :
    .remark .planExhausted ∈ actions ∧
      ∀ error, lastIgnored = some error → ∃ a, e.phase = .reportingFailure a error .ignore := by
  cases h with
  | @exhausts a _ _ _ _ _ phase moves =>
    refine ⟨by simp, fun error herror => ?_⟩
    cases moves with
    | ignored =>
      cases herror
      exact ⟨a, phase⟩
    | elsewhere | refused => cases herror

end Execution

-- ============================================================================
-- The invariant
-- ============================================================================

namespace Request

/-- The outcome of a request that has one. -/
def State.outcome? : State → Option Outcome
  | .concluding o | .finished o => some o
  | _ => none

/-- Every execution that was opened is among those in flight or found the plan exhausted. -/
def Accounted (log : List Deed) (executions : List Execution) : Prop :=
  ∀ index, ⟨none, .openExecution index⟩ ∈ log →
    (∃ e ∈ executions, e.index = index) ∨ ⟨some index, .remark .planExhausted⟩ ∈ log

/-- The retry policy decided to ignore an error. -/
def Ignored (log : List Deed) (error : AttemptError) : Prop :=
  ∃ index a remark, ⟨some index, .decide a remark .ignore⟩ ∈ log ∧ a.error = error

/-- How a party that claimed the resolution fixes the outcome: an attempt by the step that
    brought it to its verdict, the deadline by the limit, and the end of the plan, where every
    execution found the plan exhausted, by the lack of a host or an error that was ignored. -/
inductive Fixes (s : Settings) (ts : List Transition) : Claimant → Outcome → Prop where
  | attempt {t : Transition} {r : Running} {e : Execution} {met : ExecutionEvent}
      {a : Attempt} {o : Outcome} (taken : t ∈ ts) (source : t.source = .running r)
      (mem : e ∈ r.executions) (event : t.event = .execution e.index met)
      (settles : e.Settles s r.deadline t.moment met a o)
      (claim : ⟨some e.index, .claim (.attempt e.index a.number) true⟩ ∈ t.deeds) :
      Fixes s ts (.attempt e.index a.number) o
  | deadline {t : Transition} {limit : Duration} (taken : t ∈ ts) (event : t.event = .timeUp)
      (bound : s.requestTimeout = some limit)
      (claim : ⟨none, .claim .deadline true⟩ ∈ t.deeds) :
      Fixes s ts .deadline (.error (.requestTimeout limit))
  | noHost {tried : List HostError} (exhausted : Accounted (log ts) []) :
      Fixes s ts .exhaustion (.error (.noHostAvailable tried))
  | ignored {error : AttemptError} (exhausted : Accounted (log ts) [])
      (ignored : Ignored (log ts) error) :
      Fixes s ts .exhaustion (.error (.lastAttempt error))

/-- One party has claimed the resolution and fixed the outcome; its success, if it is one, has
    been reported for the node that coordinated it, and no other has. -/
structure Decided (s : Settings) (ts : List Transition) (who : Claimant) (o : Outcome) :
    Prop where
  claimed : Deed.winners (log ts) = [who]
  fixed : Fixes s ts who o
  succeeded : ∀ answer, o = .ok answer → ∃ index number, who = .attempt index number ∧
    Deed.successes (log ts) = [⟨answer.coordinator, index, number⟩]
  failed : ∀ error, o = .error error → Deed.successes (log ts) = []

/-- What holds of a running request. -/
structure Pending (s : Settings) (ts : List Transition) (r : Running) : Prop where
  silent : Deed.finals (log ts) = []
  free : r.shared.claim = none → Deed.winners (log ts) = [] ∧ Deed.successes (log ts) = [] ∧
    Accounted (log ts) r.executions
  held : ∀ e ∈ r.executions, ∀ a o, e.verdict? = some (a, o) →
    r.shared.claim = some (e.claimant a) ∧ Decided s ts (e.claimant a) o
  holder : r.shared.claim ≠ none → ∃ e ∈ r.executions, e.verdict? ≠ none
  ignored : ∀ error, r.lastIgnored = some error → Ignored (log ts) error

/-- What holds of a request on its way to being resolved. -/
def Standing (s : Settings) (ts : List Transition) : State → Prop
  | .starting => log ts = [⟨none, .notify .requestStarted⟩]
  | .running r => Pending s ts r
  | .concluding o | .finished o =>
    ∃ who, Decided s ts who o ∧ Deed.finals (log ts) = [finalNotice o]
  | .dropped => True

-- ============================================================================
-- Every move keeps the invariant
-- ============================================================================

variable {s : Settings} {ts : List Transition} {t : Transition} {who : Claimant} {o : Outcome}
  {r r' : Running} {done more : List Deed} {executions : List Execution} {error : AttemptError}

theorem Accounted.append (h : Accounted done executions)
    (closed : ∀ index, ⟨none, .openExecution index⟩ ∉ more) :
    Accounted (done ++ more) executions := by
  intro index hopen
  rcases List.mem_append.mp hopen with hopen | hopen
  · exact (h index hopen).imp_right (List.mem_append_left _)
  · exact absurd hopen (closed index)

theorem Ignored.append (h : Ignored done error) : Ignored (done ++ more) error := by
  obtain ⟨index, a, remark, mem, rfl⟩ := h
  exact ⟨index, a, remark, List.mem_append_left _ mem, rfl⟩

theorem Fixes.concat (h : Fixes s ts who o)
    (closed : ∀ index, ⟨none, .openExecution index⟩ ∉ t.deeds) : Fixes s (ts ++ [t]) who o := by
  cases h with
  | attempt taken source mem event settles claim =>
    exact .attempt (List.mem_append_left _ taken) source mem event settles claim
  | deadline taken event bound claim =>
    exact .deadline (List.mem_append_left _ taken) event bound claim
  | noHost exhausted =>
    refine .noHost ?_
    rw [log_concat]
    exact exhausted.append closed
  | ignored exhausted ignored =>
    refine .ignored ?_ ?_ <;> rw [log_concat]
    · exact exhausted.append closed
    · exact ignored.append

/-- A decision stands as long as nobody claims anything and no success is reported. -/
theorem Decided.concat (h : Decided s ts who o)
    (closed : ∀ index, ⟨none, .openExecution index⟩ ∉ t.deeds)
    (winners : Deed.winners t.deeds = []) (successes : Deed.successes t.deeds = []) :
    Decided s (ts ++ [t]) who o where
  claimed := by simpa [winners] using h.claimed
  fixed := h.fixed.concat closed
  succeeded := by simpa [successes] using h.succeeded
  failed := by simpa [successes] using h.failed

/-- The end of the plan decides if nobody else has. -/
theorem Decided.ofExhaustion (winners : Deed.winners (log ts) = [.exhaustion])
    (successes : Deed.successes (log ts) = []) (exhausted : Accounted (log ts) [])
    (ignored : ∀ error, r.lastIgnored = some error → Ignored (log ts) error) :
    Decided s ts .exhaustion (exhaustion r) := by
  cases h : r.lastIgnored with
  | none =>
    simp only [exhaustion, h]
    exact ⟨winners, .noHost exhausted, by simp, fun _ _ => successes⟩
  | some error =>
    simp only [exhaustion, h]
    exact ⟨winners, .ignored exhausted (ignored error h), by simp, fun _ _ => successes⟩

/-- Whoever holds the claim is in flight. -/
theorem Pending.free_of_nobody (h : Pending s ts r)
    (kept : ∀ e ∈ r.executions, e.verdict? ≠ none → e ∈ executions) (nobody : executions = []) :
    r.shared.claim = none := by
  by_contra htaken
  obtain ⟨e, he, hverdict⟩ := h.holder htaken
  have hleft := kept e he hverdict
  rw [nobody] at hleft
  exact List.not_mem_nil hleft

/-- A request goes on, or comes to the end of its plan, after one of its parties without a
    verdict is gone. -/
theorem Pending.goesOn {σ : State} (h : Pending s ts r) (first : List Deed)
    (goes : GoesOn r' σ more) (deeds : t.deeds = first ++ more)
    (claim : r'.shared.claim = r.shared.claim) (fewer : ∀ e ∈ r'.executions, e ∈ r.executions)
    (kept : ∀ e ∈ r.executions, e.verdict? ≠ none → e ∈ r'.executions)
    (closed : ∀ index, ⟨none, .openExecution index⟩ ∉ first) (neutral : Deed.Neutral first)
    (accounted : r.shared.claim = none → Accounted (log ts ++ first) r'.executions)
    (ignored : ∀ error, r'.lastIgnored = some error → Ignored (log ts ++ first) error) :
    Standing s (ts ++ [t]) σ := by
  cases goes with
  | still =>
    rw [List.append_nil] at deeds
    subst deeds
    refine ⟨?_, fun hfree => ?_, fun e he a o hverdict => ?_, fun htaken => ?_, ?_⟩
    · simp [neutral.finals, h.silent]
    · rw [claim] at hfree
      obtain ⟨hwinners, hsuccesses, -⟩ := h.free hfree
      refine ⟨by simp [neutral.winners, hwinners], by simp [neutral.successes, hsuccesses], ?_⟩
      rw [log_concat]
      exact accounted hfree
    · obtain ⟨hclaim, hdecided⟩ := h.held e (fewer e he) a o hverdict
      exact ⟨claim.trans hclaim, hdecided.concat closed neutral.winners neutral.successes⟩
    · obtain ⟨e, he, hverdict⟩ := h.holder (claim ▸ htaken)
      exact ⟨e, kept e he hverdict, hverdict⟩
    · rw [log_concat]
      exact ignored
  | ended noExecution =>
    have hfree : r.shared.claim = none := h.free_of_nobody kept noExecution
    obtain ⟨hwinners, hsuccesses, -⟩ := h.free hfree
    have hnotice : (exhaust r').2 = Deed.ofRequest
        [.claim .exhaustion true, .notify (finalNotice (exhaustion r'))] := by
      simp [exhaust_eq, claim, hfree]
    rw [hnotice] at deeds
    rw [exhaust_eq]
    refine ⟨.exhaustion, .ofExhaustion ?_ ?_ ?_ ?_, ?_⟩
    · simp [deeds, neutral.winners, hwinners]
    · simp [deeds, neutral.successes, hsuccesses]
    · have hall := accounted hfree
      rw [noExecution] at hall
      rw [log_concat, deeds, ← List.append_assoc]
      exact hall.append (by simp)
    · rw [log_concat, deeds, ← List.append_assoc]
      exact fun error herror => (ignored error herror).append
    · simp [deeds, neutral.finals, h.silent, List.filterMap_cons]

/-- An execution that has no verdict is not the one that holds the claim. -/
theorem index_ne_of_verdict {e o : Execution}
    (distinct : (executions.map Execution.index).Nodup) (he : e ∈ executions)
    (ho : o ∈ executions) (without : e.verdict? = none) (verdict : o.verdict? ≠ none) :
    o.index ≠ e.index := by
  intro heq
  rw [eq_of_index_eq distinct he ho heq] at verdict
  exact verdict without

/-- Whoever holds a verdict is left when an execution without one is gone. -/
theorem mem_others_of_verdict {e o : Execution}
    (distinct : (r.executions.map Execution.index).Nodup) (he : e ∈ r.executions)
    (without : e.verdict? = none) (ho : o ∈ r.executions) (verdict : o.verdict? ≠ none) :
    o ∈ r.others e.index := by
  have hne := index_ne_of_verdict distinct he ho without verdict
  exact List.mem_filter.mpr ⟨ho, by simpa using hne⟩

/-- The executions that replace others account for what those do. -/
theorem Accounted.replace {e e' : Execution} (h : Accounted done r.executions)
    (index : e'.index = e.index) : Accounted done (r.replaced e.index e') := by
  intro opened hopen
  refine (h opened hopen).imp_left ?_
  rintro ⟨o, ho, rfl⟩
  refine ⟨_, List.mem_map.mpr ⟨o, ho, rfl⟩, ?_⟩
  by_cases heq : o.index = e.index
  · simp [heq, index]
  · simp [heq]

section Turns

variable {sh : Shared} {e e' : Execution} {a : Attempt}

/-- An execution without a verdict goes on without one. -/
theorem Pending.remain (h : Pending s ts r)
    (distinct : (r.executions.map Execution.index).Nodup) (mem : e ∈ r.executions)
    (index : e'.index = e.index) (claim : sh.claim = r.shared.claim)
    (before : e.verdict? = none) (after : e'.verdict? = none)
    (closed : ∀ index, ⟨none, .openExecution index⟩ ∉ t.deeds) (neutral : Deed.Neutral t.deeds) :
    Pending s (ts ++ [t]) { r with shared := sh, executions := r.replaced e.index e' } where
  silent := by simp [neutral.finals, h.silent]
  free hfree := by
    obtain ⟨hwinners, hsuccesses, haccounted⟩ := h.free (claim ▸ hfree)
    refine ⟨by simp [neutral.winners, hwinners], by simp [neutral.successes, hsuccesses], ?_⟩
    rw [log_concat]
    exact (haccounted.append closed).replace index
  held := by
    refine forall_mem_replaced (fun a outcome hverdict => ?_) fun o ho _ a outcome hverdict => ?_
    · rw [after] at hverdict
      cases hverdict
    · obtain ⟨hclaim, hdecided⟩ := h.held o ho a outcome hverdict
      exact ⟨claim.trans hclaim, hdecided.concat closed neutral.winners neutral.successes⟩
  holder htaken := by
    obtain ⟨o, ho, hverdict⟩ := h.holder (claim ▸ htaken)
    have hne := index_ne_of_verdict distinct mem ho before hverdict
    exact ⟨o, List.mem_map.mpr ⟨o, ho, if_neg hne⟩, hverdict⟩
  ignored error herror := by
    rw [log_concat]
    exact (h.ignored error herror).append

/-- An attempt that claims the resolution before anyone else has decided it. -/
theorem Decided.ofAttempt (winners : Deed.winners (log ts) = [])
    (successes : Deed.successes (log ts) = []) (fixed : Fixes s (ts ++ [t]) (e.claimant a) o)
    (claimed : Deed.winners t.deeds = [e.claimant a])
    (heralded : Deed.successes t.deeds = e.heralded a o)
    (coordinated : ∀ answer, o = .ok answer → answer.coordinator = e.node) :
    Decided s (ts ++ [t]) (e.claimant a) o where
  claimed := by simp [winners, claimed]
  fixed := fixed
  succeeded answer success := by
    refine ⟨e.index, a.number, rfl, ?_⟩
    simp [successes, heralded, success, coordinated answer success, Execution.heralded,
      Execution.host]
  failed error failure := by simp [successes, heralded, failure, Execution.heralded]

/-- An execution claims the resolution while nobody has it, and comes to its verdict. -/
theorem Pending.decide (h : Pending s ts r) (mem : e ∈ r.executions) (index : e'.index = e.index)
    (free : r.shared.claim = none) (after : e'.verdict? = some (a, o))
    (decided : Decided s (ts ++ [t]) (e.claimant a) o) (finals : Deed.finals t.deeds = []) :
    Pending s (ts ++ [t])
      { r with
        shared := { r.shared with claim := some (e.claimant a) }
        executions := r.replaced e.index e' } where
  silent := by simp [finals, h.silent]
  free hfree := by simp at hfree
  held := by
    refine forall_mem_replaced (fun a' outcome hverdict => ?_) fun o ho _ a' outcome hverdict => ?_
    · rw [after] at hverdict
      cases hverdict
      have hclaimant : e'.claimant a = e.claimant a := by
        rw [Execution.claimant, index, Execution.claimant]
      rw [hclaimant]
      exact ⟨rfl, decided⟩
    · -- nobody else can hold a verdict while the claim is free
      have hclaim := (h.held o ho a' outcome hverdict).1
      rw [free] at hclaim
      cases hclaim
  holder _ := ⟨e', List.mem_map.mpr ⟨e, mem, if_pos rfl⟩, by simp [after]⟩
  ignored error herror := by
    rw [log_concat]
    exact (h.ignored error herror).append

/-- An execution goes on: it claims the resolution or stays without a verdict. -/
theorem Pending.advance {m : Moment} {event : ExecutionEvent} {actions : List Action}
    (h : Pending s ts r)
    (distinct : (r.executions.map Execution.index).Nodup) (mem : e ∈ r.executions)
    (turn : e.Turn s r.deadline m r.shared event ⟨sh, .goesOn e', actions⟩)
    (source : t.source = .running r) (met : t.event = .execution e.index event)
    (moment : t.moment = m) (deeds : t.deeds = Deed.ofExecution e.index actions) :
    Pending s (ts ++ [t]) { r with shared := sh, executions := r.replaced e.index e' } := by
  cases turn.effect with
  | none claim before after unresolved late neutral =>
    exact h.remain distinct mem turn.index claim before (after e' rfl) (by simp [deeds])
      (by simpa [deeds] using neutral)
  | @claims _ a outcome _ free after index settles claim winners successes finals =>
    obtain ⟨hwinners, hsuccesses, -⟩ := h.free free
    have hfixed : Fixes s (ts ++ [t]) (e.claimant a) outcome := by
      refine .attempt (List.mem_append_right _ (List.mem_singleton_self t)) source mem met
        (moment ▸ settles) ?_
      rw [deeds]
      exact Deed.mem_ofExecution.mpr ⟨rfl, claim⟩
    have hcoordinated : ∀ answer, outcome = .ok answer → answer.coordinator = e.node := by
      rintro answer rfl
      cases settles
      rfl
    refine h.decide mem index free after (.ofAttempt hwinners hsuccesses hfixed ?_ ?_ hcoordinated)
      (by simp [deeds, finals])
    · simp [deeds, winners]
    · simp [deeds, successes]

end Turns

theorem nextNode_not_opened {sh rest : Shared} {live : Liveness} {found : Option Node}
    {consulted : List Action} (take : sh.nextNode live = (found, rest, consulted))
    (index : Nat) : .openExecution index ∉ consulted := by
  obtain ⟨notes, -, rfl⟩ := Shared.nextNode_notes take
  simp

theorem Armed.not_opened {now : Instant} {metrics : Metrics} {started : Nat}
    {timer : Option Timer} {asked : List Action} (h : Armed s now metrics started timer asked)
    (index : Nat) : .openExecution index ∉ asked := by
  cases h <;> simp

theorem NoNode.not_opened {m : Moment} {sh rest : Shared} {consulted : List Action}
    (h : NoNode m sh rest consulted) (index : Nat) : .openExecution index ∉ consulted := by
  cases h with
  | taken => simp
  | planEmpty _ take => exact nextNode_not_opened take index

theorem NoNode.claim {m : Moment} {sh rest : Shared} {consulted : List Action}
    (h : NoNode m sh rest consulted) : rest.claim = sh.claim := by
  cases h with
  | taken => rfl
  | planEmpty _ take => exact Execution.nextNode_claim take

/-- Another execution begins while the claim is free. -/
theorem Pending.launch {m : Moment} {sh rest : Shared} {node : Node} {metrics : Metrics}
    {started : Nat} {timer : Option Timer} {consulted asked : List Action}
    (h : Pending s ts r) (announced : List Action) (free : r.shared.claim = none)
    (claim : r'.shared.claim = none)
    (executions : r'.executions = r.executions ++ [Execution.new r.started node s.routing.level])
    (lastIgnored : r'.lastIgnored = r.lastIgnored)
    (take : sh.nextNode m.liveness = (some node, rest, consulted))
    (armed : Armed s m.now metrics started timer asked)
    (closed : ∀ index, .openExecution index ∉ announced)
    (neutral : ∀ a ∈ announced, a.isNeutral = true)
    (deeds : t.deeds = Deed.ofRequest
      (consulted ++ (announced ++ ([.openExecution r.started] ++ asked)))) :
    Pending s (ts ++ [t]) r' := by
  obtain ⟨hw, hs, ha⟩ := h.free free
  have hneutral : Deed.Neutral t.deeds := by
    rw [deeds, Deed.neutral_ofRequest]
    refine List.forall_mem_append.mpr
      ⟨Action.neutral_of_quiet (Execution.nextNode_quiet take), ?_⟩
    exact List.forall_mem_append.mpr ⟨neutral, Action.neutral_of_quiet (armed.opening_quiet _)⟩
  refine ⟨by simp [hneutral.finals, h.silent], fun _ => ⟨by simp [hneutral.winners, hw],
    by simp [hneutral.successes, hs], ?_⟩, ?_, fun htaken => absurd claim htaken, ?_⟩
  · intro index hopen
    rw [log_concat] at hopen ⊢
    rcases List.mem_append.mp hopen with hopen | hopen
    · rcases ha index hopen with ⟨e, he, hindex⟩ | hexhausted
      · exact .inl ⟨e, executions ▸ List.mem_append_left _ he, hindex⟩
      · exact .inr (List.mem_append_left _ hexhausted)
    · have hindex : index = r.started := by
        simpa [deeds, nextNode_not_opened take, closed, armed.not_opened] using hopen
      exact .inl ⟨_, executions ▸ List.mem_append_right _ (List.mem_singleton_self _),
        hindex.symm⟩
  · intro e he a o hverdict
    rw [executions] at he
    rcases List.mem_append.mp he with he | he
    · have hclaim := (h.held e he a o hverdict).1
      simp [free] at hclaim
    · rw [List.mem_singleton.mp he] at hverdict
      cases hverdict
  · rw [log_concat, lastIgnored]
    exact fun error herror => (h.ignored error herror).append

/-- A request that has started no execution yet. -/
theorem Pending.start (started : log ts = [⟨none, .notify .requestStarted⟩]) :
    Pending s ts { shared := freshShared s } := by
  refine ⟨?_, fun _ => ⟨?_, ?_, ?_⟩, by simp, by simp [freshShared], by simp⟩
  · rw [started]
    rfl
  · rw [started]
    rfl
  · rw [started]
    rfl
  · simp [Accounted, started]

theorem not_mem_abandonAll {a : Action} : ⟨none, a⟩ ∉ abandonAll executions := by
  intro h
  obtain ⟨e, -, he⟩ := List.mem_flatMap.mp h
  cases (Deed.mem_ofExecution.mp he).1

section Ends

variable {m : Moment} {sh : Shared} {e : Execution} {event : ExecutionEvent}
  {actions : List Action} {σ : State}

/-- The verdict of an execution becomes the outcome, and the others are dropped. -/
theorem Pending.settle {a : Attempt} (h : Pending s ts r) (mem : e ∈ r.executions)
    (verdict : e.verdict? = some (a, o))
    (deeds : t.deeds = abandonAll (r.others e.index) ++ Deed.ofRequest [.notify (finalNotice o)]) :
    Standing s (ts ++ [t]) (.concluding o) := by
  obtain ⟨-, hdecided⟩ := h.held e mem a o verdict
  have hneutral := Deed.neutral_abandonAll (r.others e.index)
  refine ⟨_, hdecided.concat ?_ ?_ ?_, ?_⟩
  · simp [deeds, not_mem_abandonAll]
  · simp [deeds, hneutral.winners]
  · simp [deeds, hneutral.successes]
  · simp [deeds, hneutral.finals, h.silent]

/-- An execution ends because somebody else has claimed the resolution. -/
theorem Pending.cancel (h : Pending s ts r) (distinct : (r.executions.map Execution.index).Nodup)
    (mem : e ∈ r.executions)
    (turn : e.Turn s r.deadline m r.shared event ⟨sh, .cancelled, actions⟩)
    (goes : GoesOn { r with shared := sh, executions := r.others e.index } σ more)
    (deeds : t.deeds = Deed.ofExecution e.index actions ++ more) : Standing s (ts ++ [t]) σ := by
  cases turn.effect with
  | none claim before _ _ late neutral =>
    exact h.goesOn _ goes deeds claim (fun o ho => List.mem_of_mem_filter ho)
      (fun o => mem_others_of_verdict distinct mem before) (by simp) (by simpa using neutral)
      (fun hfree => absurd hfree (late rfl)) (fun error herror => (h.ignored error herror).append)

/-- An execution ends because the plan is exhausted, and is accounted for by its remark. -/
theorem Pending.exhaust {lastIgnored : Option AttemptError} (h : Pending s ts r)
    (run : Run s ts (.running r)) (mem : e ∈ r.executions)
    (turn : e.Turn s r.deadline m r.shared event ⟨sh, .exhausted lastIgnored, actions⟩)
    (goes : GoesOn { r with
      shared := sh, executions := r.others e.index, timer := none, lastIgnored } σ more)
    (deeds : t.deeds = Deed.ofExecution e.index actions ++ more) : Standing s (ts ++ [t]) σ := by
  obtain ⟨hremark, hlast⟩ := turn.exhausted
  cases turn.effect with
  | none claim before _ _ _ neutral =>
    refine h.goesOn _ goes deeds claim (fun o ho => List.mem_of_mem_filter ho)
      (fun o => mem_others_of_verdict run.distinct mem before) (by simp) (by simpa using neutral)
      ?_ ?_
    · intro hfree index hopen
      rcases (h.free hfree).2.2.append (by simp) index hopen with ⟨o, ho, rfl⟩ | hexhausted
      · by_cases heq : o.index = e.index
        · rw [heq]
          exact .inr (List.mem_append_right _ (Deed.mem_ofExecution.mpr ⟨rfl, hremark⟩))
        · exact .inl ⟨o, List.mem_filter.mpr ⟨ho, by simpa using heq⟩, rfl⟩
      · exact .inr hexhausted
    · intro error herror
      obtain ⟨a, hphase⟩ := hlast error herror
      obtain ⟨remark, hdecide⟩ := run.decided mem hphase
      exact ⟨e.index, _, remark, List.mem_append_left _ hdecide, rfl⟩

/-- The timer finds no node for another execution. -/
theorem Pending.noNode {consulted : List Action} (h : Pending s ts r)
    (noNode : NoNode m r.shared sh consulted)
    (goes : GoesOn { r with shared := sh, timer := none } σ more)
    (deeds : t.deeds =
      Deed.ofRequest (consulted ++ [.remark .noNodeForSpeculation]) ++ more) :
    Standing s (ts ++ [t]) σ := by
  have hclosed : ∀ index, ⟨none, .openExecution index⟩ ∉
      Deed.ofRequest (consulted ++ [.remark .noNodeForSpeculation]) := by
    simp [noNode.not_opened]
  exact h.goesOn _ goes deeds noNode.claim (fun _ ho => ho) (fun _ ho _ => ho) hclosed
    (Deed.neutral_ofRequest.mpr (Action.neutral_of_quiet noNode.vain_quiet))
    (fun hfree => (h.free hfree).2.2.append hclosed)
    (fun error herror => (h.ignored error herror).append)

/-- The deadline claims the resolution, and all executions are dropped. -/
theorem Pending.timeOut {limit : Duration} (h : Pending s ts r) (free : r.shared.claim = none)
    (bound : s.requestTimeout = some limit) (event : t.event = .timeUp)
    (deeds : t.deeds = Deed.ofRequest [.claim .deadline true, .remark (.timedOut limit)] ++
      (abandonAll r.executions ++
        Deed.ofRequest [.notify (.requestFailed (.requestTimeout limit))])) :
    Standing s (ts ++ [t]) (.concluding (.error (.requestTimeout limit))) := by
  obtain ⟨hw, hs, -⟩ := h.free free
  have hneutral := Deed.neutral_abandonAll r.executions
  refine ⟨.deadline, ⟨?_, ?_, by simp, ?_⟩, ?_⟩
  · simp [deeds, hw, hneutral.winners]
    rfl
  · exact .deadline (List.mem_append_right _ (List.mem_singleton_self _)) event bound
      (by simp [deeds])
  · simp [deeds, hs, hneutral.successes]
    exact ⟨rfl, rfl⟩
  · simp [deeds, h.silent, hneutral.finals]
    rfl

/-- The deadline comes too late, and whoever has claimed the resolution goes on. -/
theorem Pending.timeOutLate (h : Pending s ts r) (taken : r.shared.claim ≠ none)
    (deeds : t.deeds = Deed.ofRequest [.claim .deadline false]) :
    Standing s (ts ++ [t]) (.running { r with deadlinePassed := true }) := by
  obtain ⟨e, he, -⟩ := h.holder taken
  exact h.goesOn _ (.still (.inl (List.ne_nil_of_mem he))) (deeds.trans (List.append_nil _).symm)
    rfl (fun _ ho => ho) (fun _ ho _ => ho) (by simp) (by simp [Action.isNeutral])
    (fun hfree => absurd hfree taken) (fun error herror => (h.ignored error herror).append)

end Ends

/-- A request whose plan has no node at all fails at once. -/
theorem Standing.findsNothing {m : Moment} {shared : Shared} {consulted : List Action}
    (started : log ts = [⟨none, .notify .requestStarted⟩])
    (take : (freshShared s).nextNode m.liveness = (none, shared, consulted))
    (deeds : t.deeds = Deed.ofRequest (consulted ++
      [.claim .exhaustion true, .notify (.requestFailed (.noHostAvailable []))])) :
    Standing s (ts ++ [t]) (.concluding (.error (.noHostAvailable []))) := by
  have hstart := Pending.start (s := s) started
  have hclosed : ∀ index, ⟨none, .openExecution index⟩ ∉ Deed.ofRequest consulted := by
    simp [nextNode_not_opened take]
  refine hstart.goesOn (Deed.ofRequest consulted) (GoesOn.ended rfl rfl) ?_ rfl
    (fun _ ho => ho) (fun _ ho _ => ho) hclosed
    (Deed.neutral_ofRequest.mpr (Action.neutral_of_quiet (Execution.nextNode_quiet take)))
    (fun hfree => (hstart.free hfree).2.2.append hclosed) (by simp)
  simp [deeds, Deed.ofRequest, exhaust_eq, freshShared, exhaustion, finalNotice]

/-- Every run stands where it should. -/
theorem Run.standing {σ : State} (h : Run s ts σ) : Standing s ts σ := by
  refine h.invariant (fun ts σ => Standing s ts σ) rfl ?_
  intro ts m σ event σ' deeds run ih move
  cases move with
  | begins take armed =>
    exact (Pending.start ih).launch [] rfl (Execution.nextNode_claim take) rfl rfl take armed
      (by simp) (by simp) rfl
  | findsNothing take => exact .findsNothing ih take rfl
  | forgoes | drops | forsakes => trivial
  | finishes =>
    obtain ⟨who, hdecided, hfinals⟩ := ih
    exact ⟨who, hdecided.concat (by simp) rfl rfl, by simpa using hfinals⟩
  | advances mem turn => exact ih.advance run.distinct mem turn rfl rfl rfl rfl
  | @settles r e event sh actions o mem turn =>
    cases turn.effect with
    | none _ _ _ unresolved => exact absurd rfl (unresolved o)
    | resolves verdict => exact ih.settle mem verdict rfl
  | cancels mem turn goes => exact ih.cancel run.distinct mem turn goes rfl
  | exhausts mem turn goes => exact ih.exhaust run mem turn goes rfl
  | @speculates r timer node _ _ _ _ _ set due free take counted armed =>
    exact ih.launch [.notify (.speculated ⟨node, r.started, 1⟩ timer.delay)] free
      ((Execution.nextNode_claim take).trans free) rfl rfl take armed (by simp)
      (List.forall_mem_singleton.mpr rfl) rfl
  | speculatesInVain set due noNode goes => exact ih.noNode noNode goes rfl
  | timesOut deadline bound first due free => exact ih.timeOut free bound rfl rfl
  | timesOutLate deadline bound first due taken => exact ih.timeOutLate taken rfl

end Request

end RequestEngine
