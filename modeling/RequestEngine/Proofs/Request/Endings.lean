/-
  RequestEngine.Proofs.Request.Endings

  What becomes of attempts.  An attempt that was started is reported as
  successful or failed, or it is pending, or it was cancelled: it was dropped
  while it was pending, or it finished after another party had claimed the
  resolution.  It is only one of these.

    * `Action.cancels?`      — the remarks about attempts that are cancelled;
    * `Cancelled`            — when an attempt ended as cancelled;
    * `Run.startsOnce`       — no attempt is told to start twice;
    * `Request.Closed`       — what became of the attempts of an execution that is over;
    * `Run.lateClaimed`      — who finishes late does so because of somebody else;
    * `Run.unreported_iff`   — which attempts are not reported.
-/
import RequestEngine.Proofs.Request.AtMostOnce
import RequestEngine.Proofs.Request.Reports

namespace RequestEngine

-- ============================================================================
-- Remarks about cancelled attempts
-- ============================================================================

namespace Action

/-- A remark about an attempt that is cancelled. -/
def cancels? : Action → Option Remark
  | .remark (.attemptCancelled node execution number) =>
    some (.attemptCancelled node execution number)
  | .remark .succeededTooLate => some .succeededTooLate
  | .remark .failedTooLate => some .failedTooLate
  | _ => none

end Action

/-- An attempt that finished although somebody else had claimed the resolution. -/
def Remark.IsLate (r : Remark) : Prop :=
  r = .succeededTooLate ∨ r = .failedTooLate

theorem Remark.IsLate.cancels? {r : Remark} (late : r.IsLate) :
    (Action.remark r).cancels? = some r := by
  rcases late with rfl | rfl <;> rfl

/-- Whether a remark of an execution is about its attempt on a given host. -/
def Remark.Cancels (r : Remark) (h : HostInfo) : Prop :=
  r = .attemptCancelled h.node h.execution h.attempt ∨ r.IsLate

namespace Execution

variable {s : Settings} {deadline : Option Instant} {m : Moment} {sh sh' : Shared}
  {e e' : Execution} {event : ExecutionEvent} {lead actions : List Action} {progress : Progress}

theorem nextNode_cancels? {found : Option Node} {live : Liveness} {consulted : List Action}
    (take : sh.nextNode live = (found, sh', consulted)) :
    consulted.filterMap Action.cancels? = [] :=
  Shared.nextNode_shows_nothing (fun _ => rfl) take

theorem MovesOn.cancels? {d : Decision} {left : List Action} (h : MovesOn s m e d left) :
    left.filterMap Action.cancels? = [] := by
  cases h <;> rfl

theorem Onward.cancels? (h : Onward s m sh e event sh' e' lead) :
    lead.filterMap Action.cancels? = [] := by
  cases h with
  | fresh | same => rfl
  | next _ moves take => rw [List.filterMap_append, moves.cancels?, nextNode_cancels? take]; rfl

theorem Fails.cancels? {a : Attempt} {error : AttemptError} {back : List Action}
    (h : Fails s deadline m e event a error back) :
    back.filterMap Action.cancels? = [] ∧ e.pending? = some a := by
  cases h <;> exact ⟨rfl, by simp [pending?, *]⟩

theorem assess_cancels? (a : Attempt) (error : AttemptError) :
    (e.assess s m a error).filterMap Action.cancels? = [] := by
  cases h : error.wasSent <;> simp [assess, h, List.filterMap_cons, Action.cancels?]

/-- An execution that goes on cancels nothing. -/
theorem Turn.cancels_nothing (h : Turn s deadline m sh e event ⟨sh', .goesOn e', actions⟩) :
    actions.filterMap Action.cancels? = [] := by
  cases h with
  | starts onward => simp [onward.cancels?, Action.cancels?]
  | asks | sends | succeeds => rfl
  | rethrows fails | fails fails =>
    simp [fails.cancels?.1, assess_cancels?, Action.cancels?]

/-- An execution that ends has no attempt pending, or somebody else has resolved the request, for
    which its attempt is late. -/
theorem Turn.cancels_last (h : Turn s deadline m sh e event ⟨sh', progress, actions⟩)
    (last : ∀ e', progress ≠ .goesOn e') :
    (e.pending? = none ∧ actions.filterMap Action.cancels? = []) ∨
      (sh.claim ≠ none ∧ ∃ a r, e.pending? = some a ∧ r.IsLate ∧
        actions.filterMap Action.cancels? = [r]) := by
  have idle {sh₁ : Shared} {e₁ : Execution} {lead : List Action}
      (onward : Onward s m sh e event sh₁ e₁ lead) : e.pending? = none := by
    rcases onward.origin with ⟨phase, -⟩ | ⟨a, error, d, phase, -⟩ <;> rw [pending?, phase]
  cases h with
  | starts | asks | sends | succeeds | rethrows | fails => exact absurd rfl (last _)
  | stops onward =>
    exact .inl ⟨idle onward, by simp [onward.cancels?, Action.cancels?]⟩
  | exhausts phase moves take =>
    refine .inl ⟨by rw [pending?, phase], ?_⟩
    simp [moves.cancels?, nextNode_cancels? take, Action.cancels?]
  | @succeedsLate a _ _ phase taken =>
    exact .inr ⟨taken, a, .succeededTooLate, by rw [pending?, phase], .inl rfl, rfl⟩
  | @failsLate _ a _ _ _ fails asked taken =>
    refine .inr ⟨taken, a, .failedTooLate, fails.cancels?.2, .inr rfl, ?_⟩
    subst asked
    simp only [List.filterMap_append, fails.cancels?.1, assess_cancels?]
    split <;> rfl
  | returns phase | throws phase => exact .inl ⟨by rw [pending?, phase], rfl⟩

theorem verdict?_of_pending {a : Attempt} (h : e.pending? = some a) : e.verdict? = none := by
  unfold pending? at h
  split at h <;> simp_all [verdict?]

/-- An attempt finishes late in a turn before which the claim was taken. -/
theorem Turn.late {r : Remark} (h : Turn s deadline m sh e event ⟨sh', progress, actions⟩)
    (done : .remark r ∈ actions) (late : r.IsLate) : sh.claim ≠ none ∧ e.verdict? = none := by
  have hcancels : r ∈ actions.filterMap Action.cancels? :=
    List.mem_filterMap.mpr ⟨_, done, late.cancels?⟩
  by_cases last : ∀ e', progress ≠ .goesOn e'
  · rcases h.cancels_last last with ⟨-, hnone⟩ | ⟨taken, a, -, hpending, -⟩
    · rw [hnone] at hcancels
      cases hcancels
    · exact ⟨taken, verdict?_of_pending hpending⟩
  · simp only [ne_eq, not_forall, not_not] at last
    obtain ⟨e', rfl⟩ := last
    rw [h.cancels_nothing] at hcancels
    cases hcancels

/-- Dropping an execution cancels its pending attempt. -/
theorem abandon_cancels? (e : Execution) : e.abandon.filterMap Action.cancels? =
    (e.pending?.map fun a => .attemptCancelled e.node e.index a.number).toList := by
  cases h : e.phase <;> simp only [abandon, connection?, pending?, h] <;> rfl

/-- While an attempt is pending, it is what observers were told last. -/
theorem stage_of_pending {a : Attempt} (h : e.pending? = some a) :
    e.stage = .during (e.host a) := by
  unfold pending? at h
  split at h <;> simp_all [stage]

theorem pending_of_stage {h : HostInfo} (during : e.stage = .during h) :
    ∃ a, e.pending? = some a ∧ h = e.host a := by
  cases hphase : e.phase <;> simp_all [stage, pending?]

/-- An execution that ends tells nothing any more. -/
theorem Turn.told_last (h : Turn s deadline m sh e event ⟨sh', progress, actions⟩)
    (last : ∀ e', progress ≠ .goesOn e') : actions.filterMap Action.notice? = [] := by
  rw [h.told]
  cases progress with
  | goesOn e' => exact absurd rfl (last e')
  | resolved | cancelled | exhausted => rfl

end Execution

-- ============================================================================
-- The attempts of one execution
-- ============================================================================

/-- The attempts on which somebody was told a report. -/
def Reported (ns : List Notification) (h : HostInfo) : Prop :=
  ∃ n ∈ ns, n.report? = some h

theorem Action.eq_remark_of_cancels? {a : Action} {r : Remark} (h : a.cancels? = some r) :
    a = .remark r := by
  unfold cancels? at h
  split at h <;> cases h <;> rfl

theorem Reported.append {ns more : List Notification} {h : HostInfo} (reported : Reported ns h) :
    Reported (ns ++ more) h := by
  obtain ⟨n, hn, hreport⟩ := reported
  exact ⟨n, List.mem_append_left _ hn, hreport⟩

namespace AttemptTrace

variable {index : Nat} {origin : Node} {ns : List Notification} {stage : Stage} {h : HostInfo}

/-- The attempts of an execution are numbered in the order of their starts. -/
theorem numbered (trace : AttemptTrace index origin ns stage) :
    ∀ n ∈ ns, n.attempt? = some h → h.execution = index ∧
      (∀ k, stage = .between k → h.attempt ≤ k) ∧
      ∀ h', stage = .during h' → h.attempt < h'.attempt ∨ n = .nodeStarted h' := by
  induction trace with
  | nothing => simp
  | starts before _ ih =>
    refine List.forall_mem_append.mpr ⟨fun n hn hattempt => ?_,
      List.forall_mem_singleton.mpr fun hattempt => ?_⟩
    · obtain ⟨hindex, hbetween, -⟩ := ih n hn hattempt
      refine ⟨hindex, by simp, ?_⟩
      rintro h' ⟨⟩
      exact .inl (Nat.lt_succ_of_le (hbetween _ rfl))
    · cases hattempt
      refine ⟨rfl, by simp, ?_⟩
      rintro h' ⟨⟩
      exact .inr rfl
  | @fails ns h₀ errorType d error before ih =>
    have hold (n : Notification) (hn : n ∈ ns) (hattempt : n.attempt? = some h) :
        h.execution = index ∧ h.attempt ≤ h₀.attempt := by
      obtain ⟨hindex, -, hduring⟩ := ih n hn hattempt
      refine ⟨hindex, ?_⟩
      rcases hduring h₀ rfl with hlt | rfl
      · exact Nat.le_of_lt hlt
      · cases hattempt
        exact Nat.le_refl _
    refine List.forall_mem_append.mpr ⟨fun n hn hattempt => ?_,
      List.forall_mem_singleton.mpr fun hattempt => ?_⟩
    · obtain ⟨hindex, hle⟩ := hold n hn hattempt
      exact ⟨hindex, by rintro k ⟨⟩; exact hle, by simp⟩
    · cases hattempt
      exact ⟨before.during.1, by rintro k ⟨⟩; exact Nat.le_refl _, by simp⟩
  | @succeeds ns h₀ before ih =>
    refine List.forall_mem_append.mpr ⟨fun n hn hattempt => ?_,
      List.forall_mem_singleton.mpr fun hattempt => ?_⟩
    · exact ⟨(ih n hn hattempt).1, by simp, by simp⟩
    · cases hattempt
      exact ⟨before.during.1, by simp, by simp⟩

/-- The start of an attempt is told once. -/
theorem startsOnce (trace : AttemptTrace index origin ns stage) :
    EachAfter (fun before n => ∀ h, n = .nodeStarted h → .nodeStarted h ∉ before) ns := by
  induction trace with
  | nothing => exact .nil
  | starts before _ ih =>
    refine ih.concat ?_
    rintro _ ⟨⟩ hmem
    exact absurd ((before.numbered _ hmem rfl).2.1 _ rfl) (Nat.not_succ_le_self _)
  | fails _ ih | succeeds _ ih => exact ih.concat (by simp)

/-- An attempt that is being made was not reported. -/
theorem unreported (trace : AttemptTrace index origin ns (.during h)) : ¬ Reported ns h := by
  rintro ⟨n, hn, hreport⟩
  rcases (trace.numbered n hn (Notification.attempt?_of_report hreport)).2.2 h rfl with hlt | rfl
  · exact Nat.lt_irrefl _ hlt
  · cases hreport

/-- An attempt that was started was reported or is being made. -/
theorem started_cases (trace : AttemptTrace index origin ns stage) :
    ∀ h, .nodeStarted h ∈ ns → Reported ns h ∨ stage = .during h := by
  induction trace with
  | nothing => simp
  | starts before _ ih =>
    intro h hmem
    rcases List.mem_append.mp hmem with hmem | hmem
    · rcases ih h hmem with hreported | hduring
      · exact .inl hreported.append
      · cases hduring
    · cases List.mem_singleton.mp hmem
      exact .inr rfl
  | @fails ns h₀ _ _ _ before ih | @succeeds ns h₀ before ih =>
    intro h hmem
    rcases List.mem_append.mp hmem with hmem | hmem
    · rcases ih h hmem with hreported | hduring
      · exact .inl hreported.append
      · cases hduring
        exact .inl ⟨_, List.mem_append_right _ (List.mem_singleton_self _), rfl⟩
    · cases List.mem_singleton.mp hmem

end AttemptTrace

namespace Request

/-- What became of the attempts of an execution that is over: all were reported, or the last one
    was cancelled, which was remarked. -/
inductive Closed (index : Nat) (origin : Node) (done : List Action) : Prop where
  | reported {stage : Stage}
      (trace : AttemptTrace index origin (done.filterMap Action.notice?) stage)
      (settled : ∀ h, stage ≠ .during h) (none : done.filterMap Action.cancels? = []) :
      Closed index origin done
  | cancelled {h : HostInfo} {r : Remark}
      (trace : AttemptTrace index origin (done.filterMap Action.notice?) (.during h))
      (remark : done.filterMap Action.cancels? = [r]) (about : r.Cancels h) :
      Closed index origin done

/-- The law that an execution accounts for its attempts. -/
def Law.accounted (s : Settings) : Law s where
  live origin done e := Followed origin done e ∧ done.filterMap Action.cancels? = []
  ended := Closed
  new index node := ⟨(Law.attempts s).new index node, rfl⟩
  goesOn := by
    rintro deadline m sh sh' e e' event origin done actions ⟨hfollowed, hnone⟩ turn
    refine ⟨hfollowed.goesOn turn, ?_⟩
    rw [List.filterMap_append, hnone, turn.cancels_nothing]
    rfl
  ends := by
    rintro deadline m sh sh' e event progress origin done actions ⟨hfollowed, hnone⟩ turn last
    have htrace := hfollowed.trace
    have htold : (done ++ actions).filterMap Action.notice? = done.filterMap Action.notice? := by
      rw [List.filterMap_append, turn.told_last last, List.append_nil]
    rw [← htold] at htrace
    rcases turn.cancels_last last with
      ⟨hpending, hcancels⟩ | ⟨-, a, r, hpending, hlate, hcancels⟩
    · have hcancelled : (done ++ actions).filterMap Action.cancels? = [] := by
        rw [List.filterMap_append, hnone, hcancels]
        rfl
      refine .reported htrace (fun h hduring => ?_) hcancelled
      obtain ⟨a, ha, -⟩ := e.pending_of_stage hduring
      rw [hpending] at ha
      cases ha
    · rw [Execution.stage_of_pending hpending] at htrace
      exact .cancelled htrace (by rw [List.filterMap_append, hnone, hcancels]; rfl) (.inr hlate)
  dropped := by
    rintro e origin done ⟨hfollowed, hnone⟩
    have htrace := hfollowed.trace
    have htold : (done ++ e.abandon).filterMap Action.notice? = done.filterMap Action.notice? := by
      rw [List.filterMap_append, Action.notice?_blind.inner e.abandon_inner, List.append_nil]
    rw [← htold] at htrace
    have hcancels : (done ++ e.abandon).filterMap Action.cancels? =
        (e.pending?.map fun a => .attemptCancelled e.node e.index a.number).toList := by
      rw [List.filterMap_append, hnone, e.abandon_cancels?]
      rfl
    cases hpending : e.pending? with
    | none =>
      refine .reported htrace (fun h hduring => ?_) (by rw [hcancels, hpending]; rfl)
      obtain ⟨a, ha, -⟩ := e.pending_of_stage hduring
      rw [hpending] at ha
      cases ha
    | some a =>
      rw [Execution.stage_of_pending hpending] at htrace
      exact .cancelled htrace (by rw [hcancels, hpending]; rfl) (.inl rfl)

-- ============================================================================
-- Whoever finishes late has lost the race
-- ============================================================================

section Late

variable {s : Settings} {m : Moment} {ts : List Transition} {σ σ' : State} {event : Event}
  {deeds : List Deed} {actions : List Action} {r : Remark} {d : Deed}

theorem not_late_ofRequest (none : actions.filterMap Action.cancels? = [])
    (done : d ∈ Deed.ofRequest actions) (remark : d.action = .remark r) : ¬ r.IsLate := by
  intro late
  have hnone := List.filterMap_eq_nil_iff.mp none _ (Deed.mem_ofRequest.mp done).2
  rw [remark, late.cancels?] at hnone
  cases hnone

theorem not_late_abandonAll {executions : List Execution} (done : d ∈ abandonAll executions)
    (remark : d.action = .remark r) : ¬ r.IsLate := by
  intro late
  obtain ⟨e, -, hd⟩ := List.mem_flatMap.mp done
  have hcancels : r ∈ e.abandon.filterMap Action.cancels? :=
    List.mem_filterMap.mpr ⟨_, (Deed.mem_ofExecution.mp hd).2, by rw [remark, late.cancels?]⟩
  rw [e.abandon_cancels?, Option.mem_toList, Option.map_eq_some_iff] at hcancels
  obtain ⟨a, -, rfl⟩ := hcancels
  rcases late with h | h <;> cases h

theorem Armed.cancels? {now : Instant} {metrics : Metrics} {started : Nat} {timer : Option Timer}
    {asked : List Action} (h : Armed s now metrics started timer asked) :
    asked.filterMap Action.cancels? = [] := by
  cases h <;> rfl

theorem GoesOn.not_late {r' : Running} {more : List Deed} (h : GoesOn r' σ more) (done : d ∈ more)
    (remark : d.action = .remark r) : ¬ r.IsLate := by
  cases h with
  | still => cases done
  | ended =>
    rw [exhaust_eq] at done
    exact not_late_ofRequest rfl done remark

/-- It is an execution that remarks that an attempt is late, for which the claim was taken. -/
theorem Move.late (move : Move s m σ event σ' deeds) (done : d ∈ deeds)
    (remark : d.action = .remark r) (late : r.IsLate) : ∃ running, σ = .running running ∧
      running.shared.claim ≠ none ∧ ∃ e ∈ running.executions,
        d.execution = some e.index ∧ e.verdict? = none := by
  have turned {running : Running} {e : Execution} {met : ExecutionEvent} {advance : Advance}
      (mem : e ∈ running.executions)
      (turn : e.Turn s running.deadline m running.shared met advance)
      (done : d ∈ Deed.ofExecution e.index advance.actions) :
      ∃ running', State.running running = .running running' ∧ running'.shared.claim ≠ none ∧
        ∃ e ∈ running'.executions, d.execution = some e.index ∧ e.verdict? = none := by
    obtain ⟨hindex, haction⟩ := Deed.mem_ofExecution.mp done
    obtain ⟨taken, undecided⟩ := turn.late (remark ▸ haction) late
    exact ⟨running, rfl, taken, e, mem, hindex, undecided⟩
  cases move with
  | begins take armed =>
    refine absurd late (not_late_ofRequest ?_ done remark)
    rw [List.filterMap_append, Execution.nextNode_cancels? take, List.filterMap_append,
      armed.cancels?]
    rfl
  | findsNothing take =>
    refine absurd late (not_late_ofRequest ?_ done remark)
    simp [Execution.nextNode_cancels? take, Action.cancels?]
  | forgoes | finishes | forsakes => cases done
  | timesOutLate => exact absurd late (not_late_ofRequest rfl done remark)
  | advances mem turn => exact turned mem turn done
  | settles mem turn =>
    rcases List.mem_append.mp done with done | done
    · exact turned mem turn done
    · rcases List.mem_append.mp done with done | done
      · exact absurd late (not_late_abandonAll done remark)
      · exact absurd late (not_late_ofRequest rfl done remark)
  | cancels mem turn goes | exhausts mem turn goes =>
    rcases List.mem_append.mp done with done | done
    · exact turned mem turn done
    · exact absurd late (goes.not_late done remark)
  | speculates set due free take counted armed =>
    refine absurd late (not_late_ofRequest ?_ done remark)
    rw [List.filterMap_append, Execution.nextNode_cancels? take, List.filterMap_cons,
      List.filterMap_append, armed.cancels?]
    rfl
  | speculatesInVain set due noNode goes =>
    rcases List.mem_append.mp done with done | done
    · refine absurd late (not_late_ofRequest ?_ done remark)
      simp [noNode.shows_nothing (f := Action.cancels?) fun _ => rfl, Action.cancels?]
    · exact absurd late (goes.not_late done remark)
  | timesOut =>
    rcases List.mem_append.mp done with done | done
    · exact absurd late (not_late_ofRequest rfl done remark)
    · rcases List.mem_append.mp done with done | done
      · exact absurd late (not_late_abandonAll done remark)
      · exact absurd late (not_late_ofRequest rfl done remark)
  | drops =>
    rcases List.mem_append.mp done with done | done
    · exact absurd late (not_late_abandonAll done remark)
    · exact absurd late (not_late_ofRequest rfl done remark)

/-- An attempt that finishes late does so because another execution has claimed the resolution. -/
theorem Run.lateClaimed (h : Run s ts σ) :
    EachAfter (fun before d => ∀ r, d.action = .remark r → r.IsLate → ∃ index,
      d.execution = some index ∧ ∃ who ∈ Deed.winners before, ∀ number,
        who ≠ .attempt index number) (log ts) := by
  refine h.eachAfter (by rintro r ⟨⟩) ?_
  rintro ts m σ event σ' deeds run - move before d after hsplit r hremark hlate
  obtain ⟨running, rfl, taken, e, mem, hindex, undecided⟩ :=
    move.late (hsplit ▸ List.mem_append_right before List.mem_cons_self) hremark hlate
  have hpending : Pending s ts running := run.standing
  obtain ⟨o, ho, hverdict⟩ := hpending.holder taken
  obtain ⟨⟨a, outcome⟩, hholds⟩ := Option.ne_none_iff_exists'.mp hverdict
  refine ⟨e.index, hindex, o.claimant a, ?_, ?_⟩
  · rw [Deed.winners, Deed.seen_append]
    refine List.mem_append_left _ ?_
    rw [← Deed.winners, (hpending.held o ho a outcome hholds).2.claimed]
    exact List.mem_singleton_self _
  · intro number heq
    have hne := index_ne_of_verdict run.distinct mem ho undecided hverdict
    exact hne (Claimant.attempt.inj heq).1

end Late

-- ============================================================================
-- Cancelled attempts
-- ============================================================================

end Request

/-- An attempt ended as cancelled: its execution was dropped while it was pending, or it finished
    after another party had claimed the resolution.  An execution ends with a late attempt, which
    is the last that it started. -/
inductive Cancelled (log : List Deed) (h : HostInfo) : Prop where
  | dropped
      (remark : ⟨some h.execution, .remark (.attemptCancelled h.node h.execution h.attempt)⟩ ∈ log)
  | late {before after : List Deed} {r : Remark}
      (remark : log = before ++ ⟨some h.execution, .remark r⟩ :: after) (late : r.IsLate)
      (last : (attemptsOf h.execution (Deed.notices log)).getLast? = some (.nodeStarted h))
      (lost : ∃ who ∈ Deed.winners before, ∀ number, who ≠ .attempt h.execution number)

namespace Request

variable {s : Settings} {ts : List Transition} {σ : State} {host : HostInfo}

theorem mem_attemptsOf {ns : List Notification} {n : Notification} (mem : n ∈ ns)
    (attempt : n.attempt? = some host) : n ∈ attemptsOf host.execution ns :=
  List.mem_filter.mpr ⟨mem, by simp [attempt]⟩

/-- No attempt is told to start twice. -/
theorem Run.startsOnce (h : Run s ts σ) :
    EachAfter (fun before n => ∀ host, n = .nodeStarted host → .nodeStarted host ∉ before)
      (Deed.notices (log ts)) := by
  rintro before _ after hsplit host rfl hmem
  obtain ⟨origin, stage, htrace⟩ := h.attemptTrace host.execution
  refine htrace.startsOnce (attemptsOf host.execution before) (.nodeStarted host)
    (attemptsOf host.execution after) ?_ host rfl (mem_attemptsOf hmem rfl)
  rw [hsplit, attemptsOf, List.filter_append,
    List.filter_cons_of_pos (by simp [Notification.attempt?])]
  rfl

/-- An attempt is reported among the notifications about its own execution. -/
theorem Run.reported_iff (h : Run s ts σ) : Reported (Deed.notices (log ts)) host ↔
    Reported ((Deed.actionsOf host.execution (log ts)).filterMap Action.notice?) host := by
  rw [← h.attemptsOf_eq]
  constructor
  · rintro ⟨n, hn, hreport⟩
    exact ⟨n, mem_attemptsOf hn (Notification.attempt?_of_report hreport), hreport⟩
  · rintro ⟨n, hn, hreport⟩
    exact ⟨n, (List.mem_filter.mp hn).1, hreport⟩

/-- An execution that cancelled an attempt ended with it. -/
theorem Run.cancelled_of_mem {index : Nat} {r : Remark} (h : Run s ts σ)
    (done : ⟨some index, .remark r⟩ ∈ log ts) (cancels : (Action.remark r).cancels? = some r) :
    ∃ origin h', AttemptTrace index origin
      ((Deed.actionsOf index (log ts)).filterMap Action.notice?) (.during h') ∧ r.Cancels h' := by
  have hmem : r ∈ (Deed.actionsOf index (log ts)).filterMap Action.cancels? :=
    List.mem_filterMap.mpr ⟨_, Deed.mem_actionsOf.mpr done, cancels⟩
  cases (Law.accounted s).record h index with
  | live mem own holds =>
    rw [holds.2] at hmem
    cases hmem
  | @ended origin absent holds =>
    cases holds with
    | reported trace settled none =>
      rw [none] at hmem
      cases hmem
    | @cancelled h' r' trace remark about =>
      rw [remark, List.mem_singleton] at hmem
      subst hmem
      exact ⟨origin, h', trace, about⟩
  | never absent nothing =>
    rw [nothing] at hmem
    cases hmem

/-- An attempt that was cancelled, either because it was dropped or because it was late, is what
    its execution ended with. -/
theorem Run.cancelled_of_trace {origin : Node} {r : Remark} (h : Run s ts σ)
    (trace : AttemptTrace host.execution origin
      ((Deed.actionsOf host.execution (log ts)).filterMap Action.notice?) (.during host))
    (remark : (Deed.actionsOf host.execution (log ts)).filterMap Action.cancels? = [r])
    (about : r.Cancels host) : Cancelled (log ts) host := by
  have hmem : r ∈ (Deed.actionsOf host.execution (log ts)).filterMap Action.cancels? := by
    rw [remark]
    exact List.mem_singleton_self r
  obtain ⟨a, ha, hcancels⟩ := List.mem_filterMap.mp hmem
  rw [Action.eq_remark_of_cancels? hcancels] at ha
  have hdone := Deed.mem_actionsOf.mp ha
  rcases about with rfl | hlate
  · exact .dropped hdone
  · obtain ⟨before, after, hsplit⟩ := List.append_of_mem hdone
    obtain ⟨index, hindex, hlost⟩ := h.lateClaimed _ _ _ hsplit r rfl hlate
    cases hindex
    refine .late hsplit hlate ?_ hlost
    rw [h.attemptsOf_eq]
    exact trace.last_of_during

/-- An attempt that was started and is not reported is pending or was cancelled. -/
theorem Run.pending_or_cancelled (h : Run s ts σ)
    (started : .nodeStarted host ∈ Deed.notices (log ts))
    (unreported : ¬ Reported (Deed.notices (log ts)) host) :
    host ∈ σ.pending ∨ Cancelled (log ts) host := by
  rw [h.reported_iff] at unreported
  have hown : .nodeStarted host ∈
      (Deed.actionsOf host.execution (log ts)).filterMap Action.notice? := by
    rw [← h.attemptsOf_eq]
    exact mem_attemptsOf started rfl
  -- the execution of the attempt is live or has ended, since it has told something
  cases (Law.accounted s).record h host.execution with
  | @live e _ mem own holds =>
    obtain ⟨hfollowed, -⟩ := holds
    have hduring := (hfollowed.trace.started_cases host hown).resolve_left unreported
    obtain ⟨a, hpending, rfl⟩ := e.pending_of_stage hduring
    exact .inl (List.mem_filterMap.mpr ⟨e, mem, by rw [hpending]; rfl⟩)
  | ended absent holds =>
    refine .inr ?_
    cases holds with
    | reported trace settled =>
      exact absurd ((trace.started_cases host hown).resolve_left unreported) (settled host)
    | @cancelled h' r trace remark about =>
      obtain rfl : h' = host :=
        Stage.during.inj ((trace.started_cases host hown).resolve_left unreported)
      exact h.cancelled_of_trace trace remark about
  | never absent nothing =>
    rw [nothing] at hown
    cases hown

/-- Nothing is pending any more once the end of the request was told. -/
theorem Run.pending_eq_nil (h : Run s ts σ)
    (ended : ∃ n ∈ Deed.notices (log ts), n.isFinal = true) : σ.pending = [] := by
  obtain ⟨n, hn, hfinal⟩ := ended
  cases σ with
  | running r =>
    have hopen : n.isFinal = false := h.not_final (by simp [State.started?]) n hn
    exact absurd (hopen.symm.trans hfinal) Bool.false_ne_true
  | starting | concluding | finished | dropped => rfl

/-- As long as an attempt that was started is not reported, its start is the latest that was told
    about its host: its execution has stopped there. -/
theorem Run.latestOn_unreported (h : Run s ts σ)
    (started : .nodeStarted host ∈ Deed.notices (log ts))
    (unreported : ¬ Reported (Deed.notices (log ts)) host) :
    latestOn host.node.host (Deed.notices (log ts)) = some (.nodeStarted host) := by
  refine h.latestOn_of_last ?_
  obtain ⟨origin, stage, htrace⟩ := h.attemptTrace host.execution
  rcases htrace.started_cases host (mem_attemptsOf started rfl) with ⟨n, hn, hreport⟩ | rfl
  · exact absurd ⟨n, (List.mem_filter.mp hn).1, hreport⟩ unreported
  · exact htrace.last_of_during

/-- An attempt that is pending is not reported. -/
theorem Run.unreported_of_pending (h : Run s ts σ) (pending : host ∈ σ.pending) :
    ¬ Reported (Deed.notices (log ts)) host := by
  rw [h.reported_iff]
  obtain ⟨e, mem, he⟩ := List.mem_filterMap.mp pending
  obtain ⟨a, ha, rfl⟩ := Option.map_eq_some_iff.mp he
  obtain ⟨origins, chronicle, -⟩ := (Law.attempts s).chronicle h
  obtain ⟨origin, -, hfollowed⟩ := chronicle.live e mem
  exact (Execution.stage_of_pending ha ▸ hfollowed.trace).unreported

/-- Neither is one that was cancelled. -/
theorem Run.unreported_of_cancelled (h : Run s ts σ) (cancelled : Cancelled (log ts) host) :
    ¬ Reported (Deed.notices (log ts)) host := by
  rw [h.reported_iff]
  cases cancelled with
  | dropped remark =>
    obtain ⟨origin, h', htrace, habout⟩ := h.cancelled_of_mem remark rfl
    rcases habout with hsame | hlate
    · obtain rfl : host = h' := by
        cases host
        cases h'
        simpa using hsame
      exact htrace.unreported
    · rcases hlate with hlate | hlate <;> cases hlate
  | @late before after r remark late last =>
    have hdone : ⟨some host.execution, .remark r⟩ ∈ log ts :=
      remark ▸ List.mem_append_right _ List.mem_cons_self
    obtain ⟨origin, h', htrace, -⟩ := h.cancelled_of_mem hdone late.cancels?
    rw [h.attemptsOf_eq, htrace.last_of_during] at last
    cases last
    exact htrace.unreported

/-- The attempts that are not reported are those that are pending and those that were
    cancelled. -/
theorem Run.unreported_iff (h : Run s ts σ)
    (started : .nodeStarted host ∈ Deed.notices (log ts)) :
    ¬ Reported (Deed.notices (log ts)) host ↔ host ∈ σ.pending ∨ Cancelled (log ts) host :=
  ⟨h.pending_or_cancelled started, fun ended =>
    ended.elim h.unreported_of_pending h.unreported_of_cancelled⟩

end Request

end RequestEngine
