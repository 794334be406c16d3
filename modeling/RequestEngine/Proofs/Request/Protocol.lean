/-
  RequestEngine.Proofs.Request.Protocol

  What observers can rely on.  The notifications of a request come from its
  executions, its timer and its end, in whatever order these happen to step, and
  still obey one protocol (`ObeysProtocol`):

    * the start comes first, and an outcome or a cancellation last;
    * a speculative execution is announced, with the host of its first attempt,
      before its attempts start;
    * the attempts of one execution follow each other (`AttemptTrace`): numbers
      count from 1, an attempt ends at most once, only what started ends, and
      only a failed attempt is followed by another;
    * no attempt is reported as successful or failed once somebody else holds the
      claim.

  A step tells at most one thing (`Tells`), and what an execution tells is fixed
  by the phase that it enters (`Execution.told`).
-/
import RequestEngine.Proofs.Request.Resolution

namespace RequestEngine

-- ============================================================================
-- The protocol
-- ============================================================================

/-- How far an execution has come in the eyes of observers. -/
inductive Stage where
  /-- So many attempts have failed, and another may start. -/
  | between (attempts : Nat)
  /-- An attempt is being made. -/
  | during (h : HostInfo)
  /-- An attempt has succeeded. -/
  | closed
  deriving DecidableEq, Repr

/-- The notifications about the attempts of one execution, of which the first is made on a given
    node. -/
inductive AttemptTrace (index : Nat) (origin : Node) : List Notification → Stage → Prop where
  | nothing : AttemptTrace index origin [] (.between 0)
  | starts {ns : List Notification} {n : Nat} {node : Node}
      (before : AttemptTrace index origin ns (.between n)) (first : n = 0 → node = origin) :
      AttemptTrace index origin (ns ++ [.nodeStarted ⟨node, index, n + 1⟩])
        (.during ⟨node, index, n + 1⟩)
  | fails {ns : List Notification} {h : HostInfo} {errorType : ErrorType} {d : Decision}
      {error : AttemptError} (before : AttemptTrace index origin ns (.during h)) :
      AttemptTrace index origin (ns ++ [.nodeFailed h errorType d error]) (.between h.attempt)
  | succeeds {ns : List Notification} {h : HostInfo}
      (before : AttemptTrace index origin ns (.during h)) :
      AttemptTrace index origin (ns ++ [.nodeSucceeded h]) .closed

theorem AttemptTrace.during {index : Nat} {origin : Node} {ns : List Notification}
    {host : HostInfo} (h : AttemptTrace index origin ns (.during host)) :
    host.execution = index ∧ (host.attempt = 1 → host.node = origin) := by
  cases h with
  | starts _ first => exact ⟨rfl, fun hone => first (Nat.succ.inj hone)⟩

theorem AttemptTrace.execution {index : Nat} {origin : Node} {ns : List Notification}
    {stage : Stage} (h : AttemptTrace index origin ns stage) :
    ∀ n ∈ ns, n.attempt?.map HostInfo.execution = some index := by
  induction h with
  | nothing => simp
  | starts _ _ ih =>
    exact List.forall_mem_append.mpr ⟨ih, List.forall_mem_singleton.mpr rfl⟩
  | fails before ih | succeeds before ih =>
    refine List.forall_mem_append.mpr ⟨ih, List.forall_mem_singleton.mpr ?_⟩
    exact congrArg some before.during.1

/-- The notifications about the attempts of one execution. -/
def attemptsOf (index : Nat) (ns : List Notification) : List Notification :=
  ns.filter fun n => n.attempt?.map HostInfo.execution = some index

/-- The protocol that observers can rely on. -/
structure ObeysProtocol (log : List Deed) : Prop where
  /-- The start comes first, and only once. -/
  start : ∃ rest, Deed.notices log = .requestStarted :: rest ∧ .requestStarted ∉ rest
  /-- Speculative executions are announced in order, each with its first attempt. -/
  announced : ∀ i h, (Deed.announcements log)[i]? = some h → h.execution = i + 1 ∧ h.attempt = 1
  /-- The announcement of an execution comes before its attempts. -/
  ahead : EachAfter (fun before n => ∀ announced delay, n = .speculated announced delay →
    ∀ h, .nodeStarted h ∈ before → h.execution ≠ announced.execution) (Deed.notices log)
  /-- All executions but the initial one are announced, with the host of their first attempt. -/
  introduced : EachAfter (fun before n => ∀ h, n = .nodeStarted h → h.execution ≠ 0 →
    ∃ announced delay, .speculated announced delay ∈ before ∧
      announced.execution = h.execution ∧ (h.attempt = 1 → announced = h)) (Deed.notices log)
  /-- The attempts of each execution follow each other. -/
  attempts : ∀ index, ∃ origin stage,
    AttemptTrace index origin (attemptsOf index (Deed.notices log)) stage
  /-- Nothing is reported of an attempt once another party has claimed the resolution. -/
  unclaimed : EachAfter (fun before d => ∀ n h, d.action = .notify n → n.report? = some h →
    ∀ who ∈ Deed.winners before, who = .attempt h.execution h.attempt) log
  /-- Nothing follows the outcome or the cancellation. -/
  last : EachAfter (fun before _ => ∀ n ∈ before, n.isFinal = false) (Deed.notices log)

-- ============================================================================
-- What a step tells
-- ============================================================================

namespace Execution

/-- What observers are told when an execution comes to wait for them. -/
def told (e : Execution) : List Notification :=
  match e.phase with
  | .announcing a => [.nodeStarted (e.host a)]
  | .reportingSuccess a _ => [.nodeSucceeded (e.host a)]
  | .reportingFailure a error d => [.nodeFailed (e.host a) error.errorType d error]
  | _ => []

theorem told_eq_singleton {e : Execution} {n : Notification} (h : n ∈ e.told) : e.told = [n] := by
  cases hphase : e.phase <;>
    simp only [told, hphase, List.mem_singleton, List.not_mem_nil] at h ⊢ <;> rw [h]

theorem told_execution {e : Execution} {n : Notification} (h : n ∈ e.told) :
    n.attempt?.map HostInfo.execution = some e.index := by
  cases hphase : e.phase <;> simp only [told, hphase, List.mem_singleton, List.not_mem_nil] at h <;>
    subst h <;> rfl

/-- How far an execution has come in the eyes of observers. -/
def stage (e : Execution) : Stage :=
  match e.phase with
  | .fresh => .between 0
  | .announcing a | .acquiring a | .exchanging a _ => .during (e.host a)
  | .reportingSuccess .. => .closed
  | .reportingFailure a .. => .between a.number

end Execution

/-- What an execution tells on its way. -/
def Progress.told : Progress → List Notification
  | .goesOn e => e.told
  | _ => []

namespace Execution

variable {s : Settings} {deadline : Option Instant} {m : Moment} {sh sh' : Shared}
  {e e' : Execution} {event : ExecutionEvent} {advance : Advance}

/-- An execution reports on an attempt only if nobody has claimed the resolution but, in the
    same turn, this attempt. -/
theorem Turn.reports {actions : List Action} {n : Notification} {host : HostInfo}
    (h : Turn s deadline m sh e event ⟨sh', .goesOn e', actions⟩) (tells : n ∈ e'.told)
    (report : n.report? = some host) : sh.claim = none ∧
      ∀ who ∈ actions.filterMap Action.winner?, who = .attempt host.execution host.attempt := by
  have unclaimed {actions : List Action} (h : ∀ a ∈ actions, a.isInner = true) :=
    Action.winner?_blind.inner h
  cases h with
  | starts =>
    rw [List.mem_singleton.mp tells] at report
    cases report
  | asks | sends => cases tells
  | succeeds phase free =>
    rw [List.mem_singleton.mp tells] at report
    cases report
    exact ⟨free, fun who hwho => List.mem_singleton.mp hwho⟩
  | rethrows fails decision free =>
    rw [List.mem_singleton.mp tells] at report
    cases report
    refine ⟨free, fun who hwho => ?_⟩
    rw [List.filterMap_append, unclaimed fails.inner, List.filterMap_append,
      unclaimed (assess_inner _ _)] at hwho
    exact List.mem_singleton.mp hwho
  | fails fails _ _ free =>
    refine ⟨free, fun who hwho => ?_⟩
    rw [List.filterMap_append, unclaimed fails.inner, List.filterMap_append,
      unclaimed (assess_inner _ _)] at hwho
    cases hwho

/-- The last thing that a turn does is to tell what the phase that it enters calls for. -/
theorem Turn.tells_last (h : Turn s deadline m sh e event advance) :
    ∃ lead, advance.actions = lead ++ advance.progress.told.map Action.notify ∧
      lead.filterMap Action.notice? = [] := by
  have inner {actions : List Action} (h : ∀ a ∈ actions, a.isInner = true) :=
    Action.notice?_blind.inner h
  cases h with
  | @starts _ _ e' lead onward =>
    refine ⟨lead ++ [.remark (.attemptStarted e'.node (e'.attempts + 1) e'.level)], ?_, ?_⟩
    · rw [List.append_assoc]
      rfl
    · simp [Action.notice?_blind.quiet onward.quiet]
  | stops onward =>
    exact ⟨_, (List.append_nil _).symm, Action.notice?_blind.quiet onward.stopping_quiet⟩
  | exhausts _ moves take =>
    exact ⟨_, (List.append_nil _).symm, Action.notice?_blind.quiet (moves.exhausting_quiet take)⟩
  | asks | sends | succeedsLate | returns | throws => exact ⟨_, (List.append_nil _).symm, rfl⟩
  | @succeeds a c =>
    exact ⟨[.release e.node c, .reportSuccess s.routing e.node (m.now.since a.started),
      .claim (e.claimant a) true, .remark (.attemptSucceeded (m.now.since a.started))], rfl, rfl⟩
  | @rethrows _ a error back fails =>
    refine ⟨back ++ (e.assess s m a error ++ [.claim (e.claimant a) true]), ?_, ?_⟩
    · rw [List.append_assoc, List.append_assoc]
      rfl
    · simp [inner fails.inner, inner (assess_inner _ _)]
  | @fails _ a error _ back fails =>
    refine ⟨back ++ e.assess s m a error, ?_, ?_⟩
    · rw [List.append_assoc]
      rfl
    · simp [inner fails.inner, inner (assess_inner _ _)]
  | failsLate fails asked =>
    subst asked
    refine ⟨_, (List.append_nil _).symm, ?_⟩
    split <;> simp [inner fails.inner, inner (assess_inner _ _)]

theorem Turn.told (h : Turn s deadline m sh e event advance) :
    advance.actions.filterMap Action.notice? = advance.progress.told := by
  obtain ⟨lead, hactions, hlead⟩ := h.tells_last
  rw [hactions, List.filterMap_append, hlead, List.filterMap_map]
  exact List.filterMap_some

theorem Fails.attempt {a : Attempt} {error : AttemptError} {back : List Action}
    (h : Fails s deadline m e event a error back) :
    e.attempt? = some a ∧ e.stage = .during (e.host a) := by
  cases h <;> simp [attempt?, Execution.stage, *]

end Execution

namespace Request

/-- What observers were told of an execution, and how its state agrees with that. -/
structure Followed (origin : Node) (done : List Action) (e : Execution) : Prop where
  trace : AttemptTrace e.index origin (done.filterMap Action.notice?) e.stage
  fresh : e.phase = .fresh → e.node = origin ∧ e.attempts = 0
  numbered : ∀ a, e.attempt? = some a → a.number = e.attempts ∧ 0 < a.number

namespace Followed

variable {s : Settings} {deadline : Option Instant} {m : Moment} {sh sh' : Shared}
  {e e' : Execution} {event : ExecutionEvent} {origin : Node} {done actions : List Action}

theorem starts {lead : List Action} (h : Followed origin done e)
    (onward : e.Onward s m sh event sh' e' lead) :
    AttemptTrace e.index origin
      (done.filterMap Action.notice? ++ [.nodeStarted ⟨e'.node, e.index, e.attempts + 1⟩])
      (.during ⟨e'.node, e.index, e.attempts + 1⟩) := by
  have htrace := h.trace
  rcases onward.origin with ⟨hphase, rfl⟩ | ⟨a, error, d, hphase, -⟩
  · obtain ⟨hnode, hzero⟩ := h.fresh hphase
    simp only [Execution.stage, hphase] at htrace
    rw [hzero]
    exact htrace.starts fun _ => hnode
  · obtain ⟨hnumber, hpos⟩ := h.numbered a (by simp [Execution.attempt?, hphase])
    simp only [Execution.stage, hphase, hnumber] at htrace
    exact htrace.starts fun hzero => by omega

theorem goesOn (h : Followed origin done e)
    (turn : e.Turn s deadline m sh event ⟨sh', .goesOn e', actions⟩) :
    Followed origin (done ++ actions) e' := by
  have htold := turn.told
  have htrace := h.trace
  cases turn with
  | @starts _ _ e₁ lead onward free =>
    refine ⟨?_, by simp [Execution.announce], ?_⟩
    · have hstarts := h.starts onward
      rw [List.filterMap_append, htold]
      simpa [Progress.told, Execution.told, Execution.stage, Execution.announce, Execution.host,
        Execution.nextAttempt, onward.index, onward.attempts] using hstarts
    · rintro a ⟨⟩
      exact ⟨rfl, Nat.succ_pos _⟩
  | asks phase | sends phase =>
    refine ⟨?_, by simp, ?_⟩
    · rw [List.filterMap_append, htold]
      simpa [Progress.told, Execution.told, Execution.stage, Execution.host, phase] using htrace
    · rintro a ⟨⟩
      exact h.numbered _ (by simp [Execution.attempt?, phase])
  | succeeds phase =>
    refine ⟨?_, by simp, ?_⟩
    · rw [List.filterMap_append, htold]
      simp only [Execution.stage, phase] at htrace
      exact htrace.succeeds
    · rintro a ⟨⟩
      exact h.numbered _ (by simp [Execution.attempt?, phase])
  | rethrows fails | fails fails =>
    obtain ⟨hattempt, hstage⟩ := fails.attempt
    refine ⟨?_, by simp, ?_⟩
    · rw [List.filterMap_append, htold]
      rw [hstage] at htrace
      exact htrace.fails
    · rintro a ⟨⟩
      exact h.numbered _ hattempt

end Followed

/-- The law that the attempts of an execution follow each other. -/
def Law.attempts (s : Settings) : Law s where
  live := Followed
  ended index origin done :=
    ∃ stage, AttemptTrace index origin (done.filterMap Action.notice?) stage
  new index node := ⟨.nothing, fun _ => ⟨rfl, rfl⟩, by simp [Execution.new, Execution.attempt?]⟩
  goesOn := Followed.goesOn
  ends := by
    intro deadline m sh sh' e event progress origin done actions h turn last
    have htold : progress.told = [] := by
      cases progress with
      | goesOn e' => exact absurd rfl (last e')
      | resolved | cancelled | exhausted => rfl
    refine ⟨e.stage, ?_⟩
    rw [List.filterMap_append, turn.told, htold, List.append_nil]
    exact h.trace
  dropped := by
    intro e origin done h
    refine ⟨e.stage, ?_⟩
    rw [List.filterMap_append, Action.notice?_blind.inner e.abandon_inner, List.append_nil]
    exact h.trace

-- ============================================================================
-- What the steps of a request tell
-- ============================================================================

/-- What a step tells by its deeds. -/
inductive Tells (s : Settings) (m : Moment) : State → List Deed → List Notification → Prop where
  | nothing {σ : State} {deeds : List Deed} : Tells s m σ deeds []
  | attempt {r : Running} {e e' : Execution} {event : ExecutionEvent} {sh : Shared}
      {actions : List Action} (mem : e ∈ r.executions)
      (turn : e.Turn s r.deadline m r.shared event ⟨sh, .goesOn e', actions⟩) :
      Tells s m (.running r) (Deed.ofExecution e.index actions) e'.told
  | speculation {r : Running} {deeds : List Deed} {node : Node} {delay : Duration} :
      Tells s m (.running r) deeds [.speculated ⟨node, r.started, 1⟩ delay]
  | final {σ : State} {deeds : List Deed} {n : Notification} (unfinished : σ.started? ≠ none)
      (final : n.isFinal = true) : Tells s m σ deeds [n]

theorem Move.tells {s : Settings} {m : Moment} {σ σ' : State} {event : Event}
    {deeds : List Deed} (move : Move s m σ event σ' deeds) :
    Tells s m σ deeds (Deed.notices deeds) := by
  have goesOn {r r' : Running} {σ : State} {deeds more : List Deed} (h : GoesOn r' σ more) :
      Tells s m (.running r) deeds (Deed.notices more) := by
    cases h with
    | still => exact .nothing
    | ended =>
      rw [exhaust_eq]
      exact .final (by simp [State.started?]) (by cases exhaustion r' <;> rfl)
  cases move with
  | begins take armed =>
    rw [Deed.notices, Deed.seen_ofRequest,
      Action.notice?_blind.quiet (armed.beginning_quiet take 0)]
    exact .nothing
  | findsNothing take =>
    have hquiet := Action.notice?_blind.quiet (Execution.nextNode_quiet take)
    simp only [Deed.notices, Deed.seen_ofRequest, List.filterMap_append, hquiet]
    exact .final (by simp [State.started?]) rfl
  | forgoes | finishes | forsakes | timesOutLate => exact .nothing
  | advances mem turn =>
    have htold := turn.told
    rw [Deed.notices, Deed.seen_ofExecution, htold]
    exact .attempt mem turn
  | @settles r e event sh actions o mem turn =>
    have htold := turn.told
    simp only [Deed.notices, Deed.seen_append, Deed.seen_ofExecution, htold, Progress.told,
      seen_abandonAll Action.notice?_blind, Deed.seen_ofRequest, List.nil_append]
    exact .final (by simp [State.started?]) (by cases o <;> rfl)
  | cancels mem turn goes | exhausts mem turn goes =>
    have htold := turn.told
    rw [Deed.notices, Deed.seen_append, Deed.seen_ofExecution, htold]
    exact goesOn goes
  | @speculates r t node sh consulted asked metrics timer set due free take counted armed =>
    rw [Deed.notices, seen_speculation Action.notice?_blind take armed]
    exact .speculation
  | speculatesInVain set due noNode goes =>
    rw [Deed.notices, Deed.seen_append, Deed.seen_ofRequest,
      Action.notice?_blind.quiet noNode.vain_quiet]
    exact goesOn goes
  | timesOut =>
    simp only [Deed.notices, Deed.seen_append, seen_abandonAll Action.notice?_blind,
      Deed.seen_ofRequest]
    exact .final (by simp [State.started?]) rfl
  | drops =>
    simp only [Deed.notices, Deed.seen_append, seen_abandonAll Action.notice?_blind,
      Deed.seen_ofRequest]
    exact .final (by simp [State.started?]) rfl

namespace Tells

variable {s : Settings} {m : Moment} {σ : State} {deeds : List Deed} {ns : List Notification}
  {n : Notification}

/-- A step tells at most one thing. -/
theorem eq_nil_or_singleton (h : Tells s m σ deeds ns) : ns = [] ∨ ∃ n, ns = [n] := by
  cases h with
  | nothing => exact .inl rfl
  | @attempt _ _ e' =>
    unfold Execution.told
    split
    · exact .inr ⟨_, rfl⟩
    · exact .inr ⟨_, rfl⟩
    · exact .inr ⟨_, rfl⟩
    · exact .inl rfl
  | speculation | final => exact .inr ⟨_, rfl⟩

theorem unfinished (h : Tells s m σ deeds [n]) : σ.started? ≠ none := by
  generalize hns : [n] = ns at h
  cases h with
  | nothing => cases hns
  | attempt | speculation => simp [State.started?]
  | final unfinished => exact unfinished

theorem ne_started (h : Tells s m σ deeds ns) : .requestStarted ∉ ns := by
  cases h with
  | nothing => simp
  | attempt =>
    intro hmem
    cases Execution.told_execution hmem
  | speculation => simp
  | final _ final =>
    rw [List.mem_singleton]
    rintro rfl
    cases final

/-- Only an execution that goes on reports on an attempt. -/
theorem report {host : HostInfo} (h : Tells s m σ deeds ns) (mem : n ∈ ns)
    (report : n.report? = some host) : ∃ r e e' event sh actions, σ = .running r ∧
      e ∈ r.executions ∧ deeds = Deed.ofExecution e.index actions ∧ n ∈ e'.told ∧
      e.Turn s r.deadline m r.shared event ⟨sh, .goesOn e', actions⟩ := by
  cases h with
  | nothing => cases mem
  | speculation =>
    rw [List.mem_singleton.mp mem] at report
    cases report
  | final _ final =>
    rw [← List.mem_singleton.mp mem] at final
    cases n with
    | nodeFailed | nodeSucceeded => cases final
    | requestStarted | speculated | nodeStarted | requestSucceeded | requestFailed
    | requestCancelled => cases report
  | attempt he turn => exact ⟨_, _, _, _, _, _, rfl, he, rfl, mem, turn⟩

end Tells

variable {s : Settings} {ts : List Transition} {σ : State}

/-- Notifications are in order if each is in order after those of the steps before. -/
theorem Run.notices_eachAfter {ok : List Notification → Notification → Prop} (h : Run s ts σ)
    (start : ok [] .requestStarted)
    (tells : ∀ ts m σ deeds n, Run s ts σ → Tells s m σ deeds [n] →
      ok (Deed.notices (log ts)) n) :
    EachAfter ok (Deed.notices (log ts)) := by
  refine h.invariant (fun ts _ => EachAfter ok (Deed.notices (log ts))) ?_ ?_
  · simpa [Deed.seen] using start
  · intro ts m σ event σ' deeds run ih move
    have htells := move.tells
    rw [log_concat, Deed.notices, Deed.seen_append]
    refine ih.append ?_
    rcases htells.eq_nil_or_singleton with hns | ⟨n, hns⟩
    · rw [← Deed.notices, hns]
      exact EachAfter.nil
    · rw [← Deed.notices, hns]
      rw [hns] at htells
      simpa using tells ts m σ deeds n run htells

theorem finals_eq (log : List Deed) :
    Deed.finals log = (Deed.notices log).filter Notification.isFinal := by
  rw [Deed.finals, Deed.notices, Deed.seen, Deed.seen, ← List.filterMap_eq_filter,
    List.filterMap_filterMap]
  refine List.filterMap_congr fun d _ => ?_
  cases d.action with
  | notify n => cases hn : n.isFinal <;> simp [Action.final?, Action.notice?, Option.guard, hn]
  | _ => rfl

theorem Run.finals_eq_nil (h : Run s ts σ) (unfinished : σ.started? ≠ none) :
    Deed.finals (log ts) = [] := by
  have hstanding := h.standing
  cases σ with
  | starting =>
    have hlog : log ts = [⟨none, .notify .requestStarted⟩] := hstanding
    rw [hlog]
    rfl
  | running => exact hstanding.silent
  | concluding | finished | dropped => exact absurd rfl unfinished

/-- What was told of a request that goes on is not its end. -/
theorem Run.not_final (h : Run s ts σ) (unfinished : σ.started? ≠ none) :
    ∀ n ∈ Deed.notices (log ts), n.isFinal = false := by
  have hfinals := h.finals_eq_nil unfinished
  rw [finals_eq, List.filter_eq_nil_iff] at hfinals
  simpa using hfinals

-- ============================================================================
-- Who tells it
-- ============================================================================

/-- What an execution tells of is its own attempts. -/
theorem Run.ownTrace {s : Settings} {ts : List Transition} {σ : State} (h : Run s ts σ)
    (index : Nat) : ∃ origin stage, AttemptTrace index origin
      ((Deed.actionsOf index (log ts)).filterMap Action.notice?) stage := by
  cases (Law.attempts s).record h index with
  | @live e origin mem own holds => exact ⟨origin, e.stage, own ▸ holds.trace⟩
  | @ended origin absent holds =>
    obtain ⟨stage, htrace⟩ := holds
    exact ⟨origin, stage, htrace⟩
  | never absent nothing =>
    rw [nothing]
    exact ⟨default, .between 0, .nothing⟩

/-- Notifications about attempts come from the executions that make them, and all others from
    the request as a whole. -/
theorem Run.tagged {s : Settings} {ts : List Transition} {σ : State} (h : Run s ts σ) :
    ∀ d ∈ log ts, ∀ n, d.action.notice? = some n →
      n.attempt?.map HostInfo.execution = d.execution := by
  rintro ⟨execution, action⟩ hd n hn
  cases execution with
  | none =>
    have hgeneral := h.general _ hd rfl
    cases action <;> cases hn
    rw [Option.isNone_iff_eq_none.mp hgeneral]
    rfl
  | some index =>
    obtain ⟨origin, stage, htrace⟩ := h.ownTrace index
    exact htrace.execution n (List.mem_filterMap.mpr ⟨_, Deed.mem_actionsOf.mpr hd, hn⟩)

/-- What was told about the attempts of an execution is what it told. -/
theorem Run.attemptsOf_eq {s : Settings} {ts : List Transition} {σ : State} (h : Run s ts σ)
    (index : Nat) : attemptsOf index (Deed.notices (log ts)) =
      (Deed.actionsOf index (log ts)).filterMap Action.notice? := by
  have htagged := h.tagged
  rw [attemptsOf, Deed.notices, Deed.seen, List.filter_filterMap, Deed.actionsOf,
    List.filterMap_filterMap]
  refine List.filterMap_congr fun d hd => ?_
  cases hn : d.action.notice? with
  | none => by_cases hx : d.execution = some index <;> simp [hx, hn]
  | some n =>
    rw [Option.filter_some, htagged d hd n hn]
    by_cases hx : d.execution = some index <;> simp [hx, hn]

-- ============================================================================
-- The parts of the protocol
-- ============================================================================

/-- The announcement of an execution that was opened by the timer. -/
theorem Chronicle.speculated {s : Settings} {law : Law s} {done : List Deed}
    {executions : List Execution} {origins : List Node} {index : Nat} {origin : Node}
    (h : Chronicle law done executions origins) (opened : origins[index]? = some origin)
    (later : index ≠ 0) :
    ∃ delay, .speculated ⟨origin, index, 1⟩ delay ∈ Deed.notices done := by
  obtain ⟨k, rfl⟩ := Nat.exists_eq_succ_of_ne_zero later
  have hmem : (⟨origin, k + 1, 1⟩ : HostInfo) ∈ Deed.announcements done := by
    refine List.mem_of_getElem? (i := k) ?_
    rw [h.announced, List.getElem?_mapIdx, List.getElem?_tail, opened]
    rfl
  obtain ⟨d, hd, hannounced⟩ := Deed.mem_seen.mp hmem
  unfold Action.announced? at hannounced
  split at hannounced
  · rename_i host delay haction
    cases hannounced
    exact ⟨delay, Deed.mem_seen.mpr ⟨d, hd, by rw [haction]; rfl⟩⟩
  · cases hannounced

section Parts

variable {s : Settings} {ts : List Transition} {σ : State} {r : Running} {e : Execution}

theorem Run.starts_once (h : Run s ts σ) :
    ∃ rest, Deed.notices (log ts) = .requestStarted :: rest ∧ .requestStarted ∉ rest := by
  have horder : EachAfter (fun before n => before ≠ [] → n ≠ .requestStarted)
      (Deed.notices (log ts)) := by
    refine h.notices_eachAfter (fun hne => absurd rfl hne) ?_
    rintro ts m σ deeds n - htells - rfl
    exact htells.ne_started (List.mem_singleton_self _)
  have hlog : Deed.notices (log ts) =
      .requestStarted :: Deed.notices (ts.flatMap Transition.deeds) := rfl
  refine ⟨_, hlog, fun hmem => ?_⟩
  obtain ⟨before, after, hsplit⟩ := List.append_of_mem hmem
  refine horder (.requestStarted :: before) .requestStarted after ?_ (List.cons_ne_nil _ _) rfl
  rw [hlog, hsplit, List.cons_append]

theorem Run.announced (h : Run s ts σ) (i : Nat) (host : HostInfo)
    (hi : (Deed.announcements (log ts))[i]? = some host) :
    host.execution = i + 1 ∧ host.attempt = 1 := by
  obtain ⟨origins, chronicle, -⟩ := (Law.attempts s).chronicle h
  rw [chronicle.announced, List.getElem?_mapIdx, Option.map_eq_some_iff] at hi
  obtain ⟨node, -, rfl⟩ := hi
  exact ⟨rfl, rfl⟩

theorem Run.ahead (h : Run s ts σ) :
    EachAfter (fun before n => ∀ announced delay, n = .speculated announced delay →
      ∀ h, .nodeStarted h ∈ before → h.execution ≠ announced.execution)
      (Deed.notices (log ts)) := by
  refine h.notices_eachAfter (by simp) ?_
  intro ts m σ deeds n run htells announced delay hn host hmem heq
  subst hn
  generalize hns : [Notification.speculated announced delay] = ns at htells
  cases htells with
  | nothing => cases hns
  | attempt mem turn =>
    have := Execution.told_execution (hns ▸ List.mem_singleton_self _)
    cases this
  | final _ final =>
    cases hns
    cases final
  | @speculation r node delay =>
    cases hns
    -- nothing was done yet by the execution that is being announced
    obtain ⟨origins, chronicle, hlength⟩ := (Law.attempts s).chronicle run
    have hnone := chronicle.unopened r.started (Nat.le_of_eq (hlength r.started rfl))
    have hattempts : .nodeStarted host ∈ attemptsOf r.started (Deed.notices (log ts)) :=
      List.mem_filter.mpr ⟨hmem, by simpa [Notification.attempt?] using heq⟩
    rw [run.attemptsOf_eq, hnone] at hattempts
    cases hattempts

theorem Run.introduced (h : Run s ts σ) :
    EachAfter (fun before n => ∀ h, n = .nodeStarted h → h.execution ≠ 0 →
      ∃ announced delay, .speculated announced delay ∈ before ∧
        announced.execution = h.execution ∧ (h.attempt = 1 → announced = h))
      (Deed.notices (log ts)) := by
  refine h.notices_eachAfter (by simp) ?_
  intro ts m σ deeds n run htells host hn hlater
  subst hn
  generalize hns : [Notification.nodeStarted host] = ns at htells
  cases htells with
  | nothing => cases hns
  | speculation => cases hns
  | final _ final =>
    cases hns
    cases final
  | @attempt r e e' event sh actions mem turn =>
    have hhost : e'.stage = .during host := by
      unfold Execution.told at hns
      split at hns <;> cases hns
      rename_i a hphase
      simp [Execution.stage, hphase]
    obtain ⟨origins, chronicle, -⟩ := (Law.attempts s).chronicle run
    obtain ⟨origin, hopened, hfollowed⟩ := chronicle.live e mem
    have htrace := (hfollowed.goesOn turn).trace
    rw [hhost, turn.index] at htrace
    obtain ⟨hindex, hfirst⟩ := htrace.during
    obtain ⟨delay, hspeculated⟩ := chronicle.speculated hopened (hindex ▸ hlater)
    refine ⟨_, delay, hspeculated, hindex.symm, fun hone => ?_⟩
    obtain ⟨node, execution, attempt⟩ := host
    cases hindex
    cases hone
    obtain rfl : node = origin := hfirst rfl
    rfl

theorem Run.attemptTrace (h : Run s ts σ) (index : Nat) : ∃ origin stage,
    AttemptTrace index origin (attemptsOf index (Deed.notices (log ts))) stage := by
  rw [h.attemptsOf_eq]
  exact h.ownTrace index

theorem Run.unclaimed (h : Run s ts σ) :
    EachAfter (fun before d => ∀ n h, d.action = .notify n → n.report? = some h →
      ∀ who ∈ Deed.winners before, who = .attempt h.execution h.attempt) (log ts) := by
  refine h.eachAfter (by simp) ?_
  intro ts m σ event σ' deeds run _ move before d after hsplit n host haction hreport who hwho
  have hn : n ∈ Deed.notices deeds :=
    Deed.mem_seen.mpr ⟨d, by simp [hsplit], by rw [haction]; rfl⟩
  obtain ⟨r, e, e', event, sh, actions, rfl, mem, rfl, htold, turn⟩ :=
    move.tells.report hn hreport
  obtain ⟨hfree, hwinners⟩ := turn.reports htold hreport
  rw [Deed.winners, Deed.seen_append] at hwho
  rcases List.mem_append.mp hwho with hwho | hwho
  · have hnone := (run.standing.free hfree).1
    rw [← Deed.winners, hnone] at hwho
    cases hwho
  · refine hwinners who ?_
    rw [← @Deed.seen_ofExecution _ _ e.index, hsplit, Deed.seen_append]
    exact List.mem_append_left _ hwho

theorem Run.last (h : Run s ts σ) :
    EachAfter (fun before _ => ∀ n ∈ before, n.isFinal = false) (Deed.notices (log ts)) := by
  refine h.notices_eachAfter (by simp) ?_
  intro ts m σ deeds n run htells
  exact run.not_final htells.unfinished

end Parts

/-- Observers are told of every run in accordance with the protocol. -/
theorem Run.obeysProtocol {s : Settings} {ts : List Transition} {σ : State} (h : Run s ts σ) :
    ObeysProtocol (log ts) where
  start := h.starts_once
  announced := h.announced
  ahead := h.ahead
  introduced := h.introduced
  attempts := h.attemptTrace
  unclaimed := h.unclaimed
  last := h.last

/-- Four attempts of two executions are told of in accordance with the protocol, though that of
    the second execution is reported as neither failed nor successful. -/
theorem Run.obeysProtocol_of_contested : ObeysProtocol (log contestedSteps) ∧
    Deed.notices (log contestedSteps) =
      [.requestStarted, .nodeStarted ⟨default, 0, 1⟩, .speculated ⟨otherNode, 1, 1⟩ ⟨1⟩,
        .nodeStarted ⟨otherNode, 1, 1⟩,
        .nodeFailed ⟨default, 0, 1⟩ .connectionError (.retrySame none) (.pool .nodeDisabled),
        .nodeStarted ⟨default, 0, 2⟩,
        .nodeFailed ⟨default, 0, 2⟩ .overloaded (.retrySame none) (.database .overloaded "busy"),
        .nodeStarted ⟨default, 0, 3⟩, .nodeSucceeded ⟨default, 0, 3⟩,
        .requestSucceeded sampleAnswer] :=
  ⟨Run.obeysProtocol contestedRun, by decide +kernel⟩

end Request

end RequestEngine
