/-
  RequestEngine.Proofs.Request.Timeout

  Requests that run out of their time.  The deadline is one of the parties that
  race for the claim: in a punctual run on whose end of time nothing else falls,
  it wins the claim just then unless somebody has won it before, and from then on
  only an attempt that was already telling the observers how it had ended can
  still fix an outcome.

    * `ClaimedIn`   — the step in which an attempt won the claim;
    * `Wins`        — who may win the claim in a step;
    * `Apart`       — nothing else falls on the end of a request's time;
    * `FixedLate`   — how an outcome comes about after this end;
    * `TimeoutLaw`  — this and what `Expiry` says of attempts, as one.
-/
import RequestEngine.Proofs.Request.Expiry
import RequestEngine.Proofs.Request.Protocol

namespace RequestEngine

namespace Execution

variable {s : Settings} {deadline : Option Instant} {m : Moment} {sh sh' : Shared}
  {e e' : Execution} {event : ExecutionEvent} {actions : List Action} {advance : Advance}
  {a : Attempt} {o : Outcome}

/-- An execution with a verdict is telling the observers how its attempt ended. -/
theorem told_of_verdict (verdict : e.verdict? = some (a, o)) :
    ∃ n, e.told = [n] ∧ n.report? = some (e.host a) := by
  cases phase : e.phase with
  | reportingSuccess =>
    simp only [verdict?, phase, Option.some.injEq, Prod.mk.injEq] at verdict
    obtain ⟨rfl, -⟩ := verdict
    exact ⟨_, by rw [told, phase], rfl⟩
  | reportingFailure a' error d =>
    have hown : a' = a := by
      cases d <;> simp only [verdict?, phase, reduceCtorEq, Option.some.injEq, Prod.mk.injEq]
        at verdict
      exact verdict.1
    subst hown
    exact ⟨_, by rw [told, phase], rfl⟩
  | fresh | announcing | acquiring | exchanging =>
    rw [verdict?, phase] at verdict
    cases verdict

/-- An execution comes to a verdict in a turn that wins the claim and tells the observers. -/
theorem Turn.comes_to_verdict (h : Turn s deadline m sh e event ⟨sh', .goesOn e', actions⟩)
    (verdict : e'.verdict? = some (a, o)) : .claim (e'.claimant a) true ∈ actions ∧
      ∃ n, n.report? = some (e'.host a) ∧ .notify n ∈ actions := by
  constructor
  · cases h.effect with
    | none _ _ after =>
      rw [after e' rfl] at verdict
      cases verdict
    | claims _ after index _ claim =>
      rw [after] at verdict
      cases verdict
      rw [claimant, index]
      exact claim
  · obtain ⟨n, htold, hreport⟩ := told_of_verdict verdict
    obtain ⟨lead, hactions, -⟩ := h.tells_last
    refine ⟨n, hreport, ?_⟩
    change actions = lead ++ e'.told.map Action.notify at hactions
    rw [hactions, htold]
    exact List.mem_append_right _ (List.mem_singleton_self _)

/-- An execution with a verdict only waits for the observers. -/
theorem Turn.of_resolved {o : Outcome}
    (h : Turn s deadline m sh e event ⟨sh', .resolved o, actions⟩) :
    event = .told ∧ ∃ a, e.verdict? = some (a, o) := by
  cases h with
  | returns phase => exact ⟨rfl, _, by rw [verdict?, phase]⟩
  | throws phase => exact ⟨rfl, _, by rw [verdict?, phase]⟩

end Execution

namespace Request

variable {s : Settings} {ts : List Transition} {t : Transition} {m : Moment} {σ σ' : State}
  {event : Event} {deeds more : List Deed} {r r' : Running} {e : Execution} {a : Attempt}
  {o : Outcome} {total : Option Duration} {d : Instant}

-- ============================================================================
-- Who wins the claim
-- ============================================================================

/-- A step in which an attempt of an execution won the claim and the observers began to be told
    how it had ended. -/
structure ClaimedIn (t : Transition) (e : Execution) (a : Attempt) : Prop where
  won : ⟨some e.index, .claim (e.claimant a) true⟩ ∈ t.deeds
  told : ∃ n, n.report? = some (e.host a) ∧ ⟨some e.index, .notify n⟩ ∈ t.deeds

/-- Steps in which nothing happens to an execution. -/
def Untouched (index : Nat) (ts : List Transition) : Prop :=
  ∀ t ∈ ts, ∀ met, t.event ≠ .execution index met

/-- Every execution with a verdict has won the claim for its attempt, and nothing has happened to
    it since. -/
theorem Run.reporting (h : Run s ts σ) : ∀ e ∈ σ.executions, ∀ a o, e.verdict? = some (a, o) →
    ∃ before t since, ts = before ++ t :: since ∧ ClaimedIn t e a ∧ Untouched e.index since := by
  refine h.invariant (fun ts σ => ∀ e ∈ σ.executions, ∀ a o, e.verdict? = some (a, o) →
    ∃ before t since, ts = before ++ t :: since ∧ ClaimedIn t e a ∧ Untouched e.index since)
    (by simp [State.executions]) ?_
  intro ts m σ event σ' deeds _ ih move e he a o hverdict
  cases move.arrival e he with
  | stays mem other =>
    obtain ⟨before, t, since, rfl, hclaimed, huntouched⟩ := ih e mem a o hverdict
    refine ⟨before, t, since ++ [⟨m, σ, event, σ', deeds⟩], by simp, hclaimed, ?_⟩
    exact List.forall_mem_append.mpr ⟨huntouched, List.forall_mem_singleton.mpr other⟩
  | @turns _ _ _ _ actions _ _ _ turn done =>
    obtain ⟨hclaim, n, hreport, hnotice⟩ := turn.comes_to_verdict hverdict
    have own {y : Action} (mem : y ∈ actions) : (⟨some e.index, y⟩ : Deed) ∈ deeds := by
      rw [done, turn.index]
      exact Deed.mem_ofExecution.mpr ⟨rfl, mem⟩
    exact ⟨ts, _, [], rfl, ⟨own hclaim, n, hreport, own hnotice⟩, by simp [Untouched]⟩
  | opens fresh =>
    rw [Execution.verdict?, fresh] at hverdict
    cases hverdict

/-- Who may win the claim in a step. -/
inductive Wins (m : Moment) : State → Event → Claimant → Prop where
  /-- The end of a plan that has no node at all. -/
  | atOnce : Wins m .starting .told .exhaustion
  /-- The deadline, from the end of the request's time on. -/
  | deadline {r : Running} {d : Instant} (set : r.deadline = some d)
      (first : r.deadlinePassed = false) (due : d ≤ m.now) : Wins m (.running r) .timeUp .deadline
  /-- An attempt, or the end of the plan, while nobody has won it. -/
  | early {r : Running} {event : Event} {who : Claimant} (free : r.shared.claim = none)
      (other : event ≠ .timeUp) (unbound : who ≠ .deadline) : Wins m (.running r) event who

theorem GoesOn.wins {who : Claimant} (h : GoesOn r σ more) (mem : who ∈ Deed.winners more) :
    r.shared.claim = none ∧ who = .exhaustion := by
  cases h with
  | still => cases mem
  | ended =>
    rw [exhaust_eq, Deed.winners, Deed.seen_ofRequest] at mem
    cases hclaim : r.shared.claim with
    | none =>
      rw [hclaim] at mem
      exact ⟨rfl, List.mem_singleton.mp mem⟩
    | some =>
      rw [hclaim] at mem
      cases mem

/-- Whoever wins the claim in a step may do so. -/
theorem Move.wins (move : Move s m σ event σ' deeds) {who : Claimant}
    (mem : who ∈ Deed.winners deeds) : Wins m σ event who := by
  cases move with
  | begins take armed =>
    rw [Deed.winners, Deed.seen_ofRequest,
      Action.winner?_blind.quiet (armed.beginning_quiet take 0)] at mem
    cases mem
  | findsNothing take =>
    rw [Deed.winners, Deed.seen_ofRequest, List.filterMap_append,
      Action.winner?_blind.quiet (Execution.nextNode_quiet take)] at mem
    obtain rfl := List.mem_singleton.mp mem
    exact .atOnce
  | forgoes | finishes | forsakes | timesOutLate => cases mem
  | advances _ turn =>
    rw [Deed.winners, Deed.seen_ofExecution] at mem
    cases turn.effect with
    | none _ _ _ _ _ neutral =>
      rw [Action.filterMap_winner? neutral] at mem
      cases mem
    | claims free _ _ _ _ winners =>
      rw [winners] at mem
      obtain rfl := List.mem_singleton.mp mem
      exact .early free Event.noConfusion Claimant.noConfusion
  | settles _ turn =>
    cases turn.effect with
    | none _ _ _ unresolved => exact absurd rfl (unresolved _)
    | resolves =>
      rw [Deed.winners, Deed.seen_append, Deed.seen_append,
        seen_abandonAll Action.winner?_blind, Deed.seen_ofRequest] at mem
      cases mem
  | cancels _ turn goes | exhausts _ turn goes =>
    cases turn.effect with
    | none claim _ _ _ _ neutral =>
      rw [Deed.winners, Deed.seen_append, Deed.seen_ofExecution,
        Action.filterMap_winner? neutral] at mem
      obtain ⟨hfree, rfl⟩ := goes.wins mem
      exact .early (claim.symm.trans hfree) Event.noConfusion Claimant.noConfusion
  | speculates _ _ _ take _ armed =>
    rw [Deed.winners, seen_speculation Action.winner?_blind take armed] at mem
    cases mem
  | speculatesInVain _ _ noNode goes =>
    rw [Deed.winners, Deed.seen_append, Deed.seen_ofRequest,
      Action.winner?_blind.quiet noNode.vain_quiet] at mem
    obtain ⟨hfree, rfl⟩ := goes.wins mem
    exact .early (noNode.claim.symm.trans hfree) Event.noConfusion Claimant.noConfusion
  | timesOut deadline bound first due free =>
    rw [Deed.winners, Deed.seen_append, Deed.seen_append,
      seen_abandonAll Action.winner?_blind] at mem
    obtain rfl := List.mem_singleton.mp mem
    exact .deadline deadline first due
  | drops =>
    rw [Deed.winners, Deed.seen_append, seen_abandonAll Action.winner?_blind] at mem
    cases mem

-- ============================================================================
-- The deadline
-- ============================================================================

/-- Once its deadline has passed, a running request is claimed. -/
theorem Move.passed (move : Move s m σ event (.running r') deeds)
    (ih : ∀ r, σ = .running r → r.deadlinePassed = true → r.shared.claim ≠ none)
    (passed : r'.deadlinePassed = true) : r'.shared.claim ≠ none := by
  generalize htarget : State.running r' = σ' at move
  cases move with
  | begins =>
    cases htarget
    cases passed
  | advances _ turn =>
    cases htarget
    have hbefore := ih _ rfl passed
    cases turn.effect with
    | none claim => exact claim ▸ hbefore
    | claims => simp
  | cancels _ turn goes | exhausts _ turn goes =>
    subst htarget
    obtain rfl := goes.of_running
    have hbefore := ih _ rfl passed
    cases turn.effect with
    | none claim => exact claim ▸ hbefore
  | speculates _ _ free =>
    cases htarget
    exact absurd free (ih _ rfl passed)
  | speculatesInVain _ _ noNode goes =>
    subst htarget
    obtain rfl := goes.of_running
    exact noNode.claim ▸ ih _ rfl passed
  | timesOutLate _ _ _ _ taken =>
    cases htarget
    exact taken
  | findsNothing | forgoes | settles | timesOut | drops | finishes | forsakes => cases htarget

/-- A deadline that is still ahead after a step was so before. -/
theorem Move.ahead (move : Move s m (.running r) event (.running r') deeds)
    (ahead : r'.deadlinePassed = false) : r.deadlinePassed = false := by
  generalize htarget : State.running r' = σ' at move
  cases move with
  | advances | speculates =>
    cases htarget
    exact ahead
  | cancels _ _ goes | exhausts _ _ goes | speculatesInVain _ _ _ goes =>
    subst htarget
    obtain rfl := goes.of_running
    exact ahead
  | timesOutLate =>
    cases htarget
    cases ahead
  | settles | timesOut | drops => cases htarget

theorem Run.claimed_of_passed (h : Run s ts (.running r)) (passed : r.deadlinePassed = true) :
    r.shared.claim ≠ none := by
  refine h.invariant (fun _ σ => ∀ r, σ = .running r → r.deadlinePassed = true →
    r.shared.claim ≠ none) (by simp) ?_ r rfl passed
  rintro ts m σ event _ deeds _ ih move r' rfl
  exact move.passed ih

/-- Under a punctual clock a deadline that has not passed is not overdue. -/
theorem Run.deadline_ahead {tolerance : Duration} (h : Run s ts (.running r))
    (punctual : EachAfter (Punctual s tolerance) ts) (ahead : r.deadlinePassed = false)
    (set : r.deadline = some d) : clock ts ≤ d.after tolerance := by
  refine h.invariant (fun ts σ => ∀ r, σ = .running r → EachAfter (Punctual s tolerance) ts →
    r.deadlinePassed = false → ∀ d, r.deadline = some d → clock ts ≤ d.after tolerance) (by simp)
    ?_ r rfl punctual ahead d set
  rintro ts m σ event _ deeds _ ih move r' rfl punctual ahead d set
  obtain ⟨hbefore, hlast⟩ := EachAfter.concat_iff.mp punctual
  rw [clock_concat]
  rcases move.deadline with ⟨-, hdeadline⟩ | ⟨r, rfl, hdeadline⟩
  · -- the deadline has just been set
    rw [hdeadline, Option.map_eq_some_iff] at set
    obtain ⟨limit, -, rfl⟩ := set
    exact Instant.le_trans (Instant.le_after ..) (Instant.le_after ..)
  · rw [hdeadline] at set
    have hahead := move.ahead ahead
    exact hlast.ahead (deadline_mem_alarms set hahead) (ih r rfl hbefore hahead d set)

/-- Nothing but the deadline falls on the end of a request's time while it has no outcome. -/
def Apart (total : Option Duration) (ts : List Transition) : Prop :=
  ∀ d ∈ timeUpAt total ts, ∀ t ∈ ts, t.source.outcome? = none → t.moment.now = d →
    t.event = .timeUp

instance (event : Event) : Decidable (event = .timeUp) :=
  match event with
  | .timeUp => .isTrue rfl
  | .told | .execution .. | .speculate | .drop => .isFalse Event.noConfusion

instance (total : Option Duration) (ts : List Transition) : Decidable (Apart total ts) :=
  inferInstanceAs (Decidable (∀ d ∈ timeUpAt total ts, ∀ t ∈ ts, t.source.outcome? = none →
    t.moment.now = d → t.event = .timeUp))

/-- Nobody claimed the resolution before the end of the request's time. -/
def Unclaimed (total : Option Duration) (ts : List Transition) : Prop :=
  ∀ d ∈ timeUpAt total ts, ∀ t ∈ ts, t.moment.now < d → Deed.winners t.deeds = []

theorem Apart.init (h : Apart total (ts ++ [t])) : Apart total ts := by
  cases ts with
  | nil => simp [Apart, timeUpAt]
  | cons x ts => exact fun d hd y hy => h d hd y (List.mem_append_left _ hy)

/-- Claims are made before the end of the request's time, but for the one of the deadline, which
    is made just then. -/
theorem Run.claims (run : Run s ts σ) (punctual : EachAfter (Punctual s ⟨0⟩) ts)
    (apart : Apart s.requestTimeout ts) : ∀ d ∈ timeUpAt s.requestTimeout ts, ∀ t ∈ ts,
      ∀ who ∈ Deed.winners t.deeds,
        who ≠ .deadline ∧ t.moment.now < d ∨
          who = .deadline ∧ t.event = .timeUp ∧ t.moment.now = d := by
  refine run.invariant (fun ts _ => EachAfter (Punctual s ⟨0⟩) ts → Apart s.requestTimeout ts →
    ∀ d ∈ timeUpAt s.requestTimeout ts, ∀ t ∈ ts, ∀ who ∈ Deed.winners t.deeds,
      who ≠ .deadline ∧ t.moment.now < d ∨
        who = .deadline ∧ t.event = .timeUp ∧ t.moment.now = d) (by simp) ?_ punctual apart
  intro ts m σ event σ' deeds run ih move punctual apart d hd t ht who hwho
  obtain ⟨hbefore, hlast⟩ := EachAfter.concat_iff.mp punctual
  rcases List.mem_append.mp ht with ht | ht
  · rw [timeUpAt_append (List.ne_nil_of_mem ht)] at hd
    exact ih hbefore apart.init d hd t ht who hwho
  obtain rfl := List.mem_singleton.mp ht
  have hend := apart d hd _ (List.mem_append_right _ (List.mem_singleton_self _))
  have strict (unresolved : σ.outcome? = none) (other : event ≠ .timeUp) (bound : m.now ≤ d) :
      m.now < d :=
    (Instant.lt_or_eq_of_le bound).resolve_right fun heq => other (hend unresolved heq)
  cases move.wins hwho with
  | atOnce =>
    rw [run.unbegun] at hd
    obtain ⟨limit, -, rfl⟩ := Option.map_eq_some_iff.mp hd
    exact .inl ⟨Claimant.noConfusion, strict rfl Event.noConfusion (Instant.le_after ..)⟩
  | @deadline r d' set first due =>
    have hdeadline := run.deadline
    rw [timeUpAt_append hdeadline.1, ← hdeadline.2, set] at hd
    obtain rfl := Option.some.inj hd
    have hahead := run.deadline_ahead hbefore first set
    have hnow := hlast.ahead (deadline_mem_alarms set first) hahead
    exact .inr ⟨rfl, rfl, Instant.le_antisymm hnow due⟩
  | @early r _ _ free other unbound =>
    have hdeadline := run.deadline
    rw [timeUpAt_append hdeadline.1, ← hdeadline.2] at hd
    have hfirst : r.deadlinePassed = false := by
      by_contra hpassed
      exact run.claimed_of_passed (by simpa using hpassed) free
    have hahead := run.deadline_ahead hbefore hfirst hd
    have hnow := hlast.ahead (deadline_mem_alarms hd hfirst) hahead
    exact .inl ⟨unbound, strict rfl other hnow⟩

-- ============================================================================
-- Outcomes
-- ============================================================================

theorem mem_winners_log {who : Claimant} :
    who ∈ Deed.winners (log ts) ↔ ∃ t ∈ ts, who ∈ Deed.winners t.deeds := by
  constructor
  · intro h
    obtain ⟨d, hd, hwon⟩ := Deed.mem_seen.mp h
    rcases List.mem_append.mp hd with hd | hd
    · cases List.mem_singleton.mp hd
      cases hwon
    · obtain ⟨t, ht, hd⟩ := List.mem_flatMap.mp hd
      exact ⟨t, ht, Deed.mem_seen.mpr ⟨d, hd, hwon⟩⟩
  · rintro ⟨t, ht, h⟩
    obtain ⟨d, hd, hwon⟩ := Deed.mem_seen.mp h
    have hlog : d ∈ log ts := List.mem_append_right _ (List.mem_flatMap.mpr ⟨t, ht, hd⟩)
    exact Deed.mem_seen.mpr ⟨d, hlog, hwon⟩

/-- A request that has an outcome has been claimed by one party. -/
theorem Run.decidedBy (run : Run s ts σ) (outcome : σ.outcome? = some o) :
    ∃ who, Decided s ts who o := by
  have hstanding := run.standing
  cases σ with
  | concluding | finished =>
    obtain ⟨who, hdecided, -⟩ := hstanding
    cases outcome
    exact ⟨who, hdecided⟩
  | starting | running | dropped => cases outcome

/-- A running request that has been claimed is so by one of its attempts. -/
theorem Run.claimedBy (run : Run s ts (.running r)) (taken : r.shared.claim ≠ none) :
    ∃ index number, .attempt index number ∈ Deed.winners (log ts) := by
  have hpending : Pending s ts r := run.standing
  obtain ⟨e, he, hverdict⟩ := hpending.holder taken
  obtain ⟨⟨a, o⟩, hverdict⟩ := Option.ne_none_iff_exists'.mp hverdict
  have hclaimed := (hpending.held e he a o hverdict).2.claimed
  refine ⟨e.index, a.number, ?_⟩
  rw [hclaimed]
  exact List.mem_singleton_self _

/-- A request times out exactly if the deadline claims it. -/
theorem Decided.timesOut_iff {who : Claimant} {limit : Duration} (h : Decided s ts who o) :
    o = .error (.requestTimeout limit) ↔ who = .deadline ∧ s.requestTimeout = some limit := by
  cases h.fixed with
  | attempt _ _ _ _ settles => cases settles <;> simp
  | deadline _ _ bound => simp [bound]
  | noHost | ignored => simp

/-- What the deadline does when it wins the claim. -/
theorem Run.deadline_step (run : Run s ts σ) : ∀ t ∈ ts, .deadline ∈ Deed.winners t.deeds →
    ∃ limit, s.requestTimeout = some limit ∧
      t.target = .concluding (.error (.requestTimeout limit)) := by
  refine run.everyStep fun ts m σ event σ' deeds _ move mem => ?_
  cases move.wins mem with
  | early _ _ unbound => exact absurd rfl unbound
  | deadline =>
    cases move with
    | timesOut _ bound => exact ⟨_, bound, rfl⟩
    | timesOutLate => cases mem

theorem GoesOn.concludes (h : GoesOn r (.concluding o) more) :
    r.executions = [] ∧ (r.shared.claim = none → .exhaustion ∈ Deed.winners more) := by
  generalize htarget : State.concluding o = σ at h
  cases h with
  | still => cases htarget
  | ended noExecution =>
    refine ⟨noExecution, fun hfree => ?_⟩
    rw [exhaust_eq, hfree, Deed.winners, Deed.seen_ofRequest]
    exact List.mem_cons_self

/-- A running request gets its outcome from an attempt whose end the observers have been told, or
    by a claim in the same step. -/
theorem Run.concludes (run : Run s ts (.running r))
    (move : Move s m (.running r) event (.concluding o) deeds) :
    (∃ e ∈ r.executions, ∃ a, e.verdict? = some (a, o) ∧ event = .execution e.index .told) ∨
      Deed.winners deeds ≠ [] := by
  have hpending : Pending s ts r := run.standing
  -- whoever holds the claim is still in flight after somebody else has gone
  have unheld {e : Execution} (mem : e ∈ r.executions) (without : e.verdict? = none)
      (alone : r.others e.index = []) : r.shared.claim = none := by
    by_contra htaken
    obtain ⟨x, hx, hverdict⟩ := hpending.holder htaken
    have hother := mem_others_of_verdict run.distinct mem without hx hverdict
    rw [alone] at hother
    cases hother
  generalize htarget : State.concluding o = σ' at move
  cases move with
  | settles mem turn =>
    cases htarget
    obtain ⟨rfl, a, hverdict⟩ := turn.of_resolved
    exact .inl ⟨_, mem, a, hverdict, rfl⟩
  | cancels mem turn goes | exhausts mem turn goes =>
    subst htarget
    obtain ⟨halone, hclaims⟩ := goes.concludes
    cases turn.effect with
    | none claim before =>
      have hmem := hclaims (claim.trans (unheld mem before halone))
      rw [Deed.winners, Deed.seen_append]
      exact .inr (List.ne_nil_of_mem (List.mem_append_right _ hmem))
  | speculatesInVain _ _ noNode goes =>
    subst htarget
    obtain ⟨halone, hclaims⟩ := goes.concludes
    have hfree : r.shared.claim = none := by
      by_contra htaken
      obtain ⟨x, hx, -⟩ := hpending.holder htaken
      change r.executions = [] at halone
      rw [halone] at hx
      cases hx
    have hmem := hclaims (noNode.claim.trans hfree)
    rw [Deed.winners, Deed.seen_append]
    exact .inr (List.ne_nil_of_mem (List.mem_append_right _ hmem))
  | timesOut => exact .inr (by simp [Deed.ofRequest, Deed.seen])
  | advances | speculates | timesOutLate | drops => cases htarget

/-- From the end of its time on, a request that nobody has claimed may time out. -/
theorem timeUp_concludes {limit : Duration} (set : r.deadline = some d)
    (bound : s.requestTimeout = some limit) (first : r.deadlinePassed = false)
    (due : d ≤ m.now) (free : r.shared.claim = none) :
    ∃ deeds, step s m (.running r) .timeUp =
      some (.concluding (.error (.requestTimeout limit)), deeds) := by
  have hdue : ¬ m.now < d := Nat.not_lt.mpr due
  exact ⟨_, by simp [step, timeUp, set, bound, first, hdue, Shared.tryClaim, Shared.claimed, free,
    conclude]; rfl⟩

/-- How an outcome is fixed after the end of a request's time: just now the observers have all
    been told how an attempt ended that had won the claim before that. -/
inductive FixedLate (before : List Transition) (t : Transition) (o : Outcome) (d : Instant) :
    Prop where
  | intro {r : Running} {e : Execution} {a : Attempt} {earlier since : List Transition}
      {claimed : Transition} (source : t.source = .running r) (mem : e ∈ r.executions)
      (verdict : e.verdict? = some (a, o)) (told : t.event = .execution e.index .told)
      (history : before = earlier ++ claimed :: since) (won : ClaimedIn claimed e a)
      (inTime : claimed.moment.now < d) (untouched : Untouched e.index since)

/-- When attempts and requests run out of their time, `total` being the limit of the request and
    `own` that of each attempt. -/
structure TimeoutLaw (s : Settings) (total own : Option Duration) (ts : List Transition)
    (σ : State) : Prop where
  /-- An attempt fails for lack of time only when its limit has passed since its start, and only if
      that is before the end of the request's time. -/
  notEarly : EachAfter (fun before t => ∀ x ∈ t.deeds, ∀ failed limit,
    x.action.failed? = some failed → failed.error = .timeout limit →
      ∃ index, x.execution = some index ∧ TimedOut total own before t index failed.number limit) ts
  /-- If it is, an attempt that waits for its answer may fail from the end of its time on, -/
  mayFail : ∀ r e a c limit, σ = .running r → OnTheClock total own ts r e a c limit →
    ∀ m : Moment, a.started.after limit ≤ m.now → ∃ σ' deeds,
      step s m σ (.execution e.index .expire) = some (σ', deeds) ∧ ∃ remark d,
        ⟨some e.index, .decide (Execution.failed s a (.timeout limit)) remark d⟩ ∈ deeds
  /-- and waits no longer than that, or than up to when it got its connection. -/
  notLate : EachAfter (fun before t => ∀ r e a c limit, t.source = .running r →
    OnTheClock total own before r e a c limit → ∃ t' ∈ before, AcquiredIn t' e a c ∧
      t.moment.now ≤ (a.started.after limit).later t'.moment.now ∧
        WaitStep s t e a limit ((a.started.after limit).later t'.moment.now)) ts
  /-- A request times out exactly if nobody claims it before the end of its time. -/
  timesOut : ∀ o limit, σ.outcome? = some o →
    (o = .error (.requestTimeout limit) ↔ total = some limit ∧ Unclaimed total ts)
  /-- It does so at the end of its time. -/
  onTime : ∀ limit, σ.outcome? = some (.error (.requestTimeout limit)) →
    ∃ t ∈ ts, timeUpAt total ts = some t.moment.now ∧ t.event = .timeUp ∧
      t.target = .concluding (.error (.requestTimeout limit))
  /-- Until then it runs, and from then on it may time out. -/
  runs : ∀ r, σ = .running r → Unclaimed total ts → ∀ d ∈ timeUpAt total ts,
    clock ts ≤ d ∧ ∀ m : Moment, d ≤ m.now → ∃ limit deeds, total = some limit ∧
      step s m σ .timeUp = some (.concluding (.error (.requestTimeout limit)), deeds)
  /-- After that only an attempt that had claimed it before fixes an outcome. -/
  late : EachAfter (fun before t => ∀ r o, t.source = .running r → t.target = .concluding o →
    ∀ d ∈ timeUpAt total before, d < t.moment.now → FixedLate before t o d) ts

section Law

variable (run : Run s ts σ) (punctual : EachAfter (Punctual s ⟨0⟩) ts)
  (apart : Apart s.requestTimeout ts)

include run punctual apart

theorem Run.timesOut_iff {limit : Duration} (outcome : σ.outcome? = some o) :
    o = .error (.requestTimeout limit) ↔
      s.requestTimeout = some limit ∧ Unclaimed s.requestTimeout ts := by
  obtain ⟨who, hdecided⟩ := run.decidedBy outcome
  rw [hdecided.timesOut_iff]
  have hclaimed := hdecided.claimed
  constructor
  · rintro ⟨rfl, hbound⟩
    refine ⟨hbound, fun d hd t ht hbefore => ?_⟩
    by_contra hwon
    obtain ⟨who, hwho⟩ := List.exists_mem_of_ne_nil _ hwon
    have hdeadline : who = .deadline := by
      have hmem := mem_winners_log.mpr ⟨t, ht, hwho⟩
      rw [hclaimed] at hmem
      exact List.mem_singleton.mp hmem
    rcases run.claims punctual apart d hd t ht who hwho with ⟨hother, -⟩ | ⟨-, -, htime⟩
    · exact hother hdeadline
    · rw [htime] at hbefore
      exact Nat.lt_irrefl _ hbefore
  · rintro ⟨hbound, hunclaimed⟩
    refine ⟨?_, hbound⟩
    obtain ⟨t, ht, hwho⟩ := mem_winners_log.mp (hclaimed ▸ List.mem_singleton_self who)
    obtain ⟨first, rest, rfl⟩ := List.exists_cons_of_ne_nil (List.ne_nil_of_mem ht)
    have hd : first.moment.now.after limit ∈ timeUpAt s.requestTimeout (first :: rest) := by
      simp [timeUpAt, hbound]
    rcases run.claims punctual apart _ hd t ht who hwho with ⟨-, hbefore⟩ | ⟨hdeadline, -⟩
    · rw [hunclaimed _ hd t ht hbefore] at hwho
      cases hwho
    · exact hdeadline

theorem Run.timesOut_on_time {limit : Duration}
    (outcome : σ.outcome? = some (.error (.requestTimeout limit))) :
    ∃ t ∈ ts, timeUpAt s.requestTimeout ts = some t.moment.now ∧ t.event = .timeUp ∧
      t.target = .concluding (.error (.requestTimeout limit)) := by
  obtain ⟨who, hdecided⟩ := run.decidedBy outcome
  obtain ⟨rfl, hbound⟩ := hdecided.timesOut_iff.mp rfl
  have hclaimed := hdecided.claimed
  obtain ⟨t, ht, hwho⟩ := mem_winners_log.mp (hclaimed ▸ List.mem_singleton_self Claimant.deadline)
  obtain ⟨limit', hbound', htarget⟩ := run.deadline_step t ht hwho
  cases hbound.symm.trans hbound'
  obtain ⟨first, rest, rfl⟩ := List.exists_cons_of_ne_nil (List.ne_nil_of_mem ht)
  have hd : timeUpAt s.requestTimeout (first :: rest) = some (first.moment.now.after limit) := by
    simp [timeUpAt, hbound]
  rcases run.claims punctual apart _ hd t ht _ hwho with ⟨hother, -⟩ | ⟨-, hevent, htime⟩
  · exact absurd rfl hother
  · exact ⟨t, ht, by rw [hd, htime], hevent, htarget⟩

theorem Run.runs_until {r : Running} (running : σ = .running r)
    (unclaimed : Unclaimed s.requestTimeout ts) (end_ : d ∈ timeUpAt s.requestTimeout ts) :
    clock ts ≤ d ∧ ∀ m : Moment, d ≤ m.now → ∃ limit deeds, s.requestTimeout = some limit ∧
      Request.step s m σ .timeUp =
        some (.concluding (.error (.requestTimeout limit)), deeds) := by
  subst running
  have hset : r.deadline = some d := run.deadline.2.trans end_
  have hfree : r.shared.claim = none := by
    by_contra htaken
    obtain ⟨index, number, hwon⟩ := run.claimedBy htaken
    obtain ⟨t, ht, hwho⟩ := mem_winners_log.mp hwon
    rcases run.claims punctual apart d end_ t ht _ hwho with ⟨-, hbefore⟩ | ⟨hdeadline, -⟩
    · rw [unclaimed d end_ t ht hbefore] at hwho
      cases hwho
    · cases hdeadline
  have hfirst : r.deadlinePassed = false := by
    by_contra hpassed
    exact run.claimed_of_passed (by simpa using hpassed) hfree
  refine ⟨run.deadline_ahead punctual hfirst hset, fun m due => ?_⟩
  obtain ⟨first, -, hlimit⟩ := Option.bind_eq_some_iff.mp end_
  obtain ⟨limit, hbound, -⟩ := Option.map_eq_some_iff.mp hlimit
  obtain ⟨deeds, hstep⟩ := timeUp_concludes hset hbound hfirst due hfree
  exact ⟨limit, deeds, hbound, hstep⟩

theorem Run.fixedLate : EachAfter (fun before t => ∀ r o, t.source = .running r →
    t.target = .concluding o → ∀ d ∈ timeUpAt s.requestTimeout before, d < t.moment.now →
      FixedLate before t o d) ts := by
  have hclaims := run.claims punctual apart
  have hconcludes : EachAfter (fun before t => ∀ r o, t.source = .running r →
      t.target = .concluding o → (∃ e a earlier claimed since, e ∈ r.executions ∧
        e.verdict? = some (a, o) ∧ t.event = .execution e.index .told ∧
          before = earlier ++ claimed :: since ∧ ClaimedIn claimed e a ∧
            Untouched e.index since) ∨ Deed.winners t.deeds ≠ []) ts := by
    refine run.eachStep fun ts m σ event σ' deeds run move => ?_
    rintro r o rfl rfl
    refine (run.concludes move).imp_left ?_
    rintro ⟨e, he, a, hverdict, hevent⟩
    obtain ⟨earlier, claimed, since, hhistory, hwon, huntouched⟩ :=
      run.reporting e he a o hverdict
    exact ⟨e, a, earlier, claimed, since, he, hverdict, hevent, hhistory, hwon, huntouched⟩
  intro before t after hsplit r o hsource htarget d hd hlate
  have hend : d ∈ timeUpAt s.requestTimeout ts := by
    have hbegun : before ≠ [] := by
      rintro rfl
      cases hd
    rw [hsplit, timeUpAt_append hbegun]
    exact hd
  rcases hconcludes before t after hsplit r o hsource htarget with
    ⟨e, a, earlier, claimed, since, he, hverdict, hevent, hhistory, hwon, huntouched⟩ | hwinners
  · have hmem : claimed ∈ ts := by simp [hsplit, hhistory]
    have hwho : e.claimant a ∈ Deed.winners claimed.deeds :=
      Deed.mem_seen.mpr ⟨_, hwon.won, rfl⟩
    rcases hclaims d hend claimed hmem _ hwho with ⟨-, hbefore⟩ | ⟨hdeadline, -⟩
    · exact .intro hsource he hverdict hevent hhistory hwon hbefore huntouched
    · cases hdeadline
  · -- nobody claims anything that late
    obtain ⟨who, hwho⟩ := List.exists_mem_of_ne_nil _ hwinners
    have hmem : t ∈ ts := by simp [hsplit]
    rcases hclaims d hend t hmem who hwho with ⟨-, hbefore⟩ | ⟨-, -, htime⟩
    · exact absurd hbefore (Nat.lt_asymm hlate)
    · rw [htime] at hlate
      exact absurd hlate (Nat.lt_irrefl _)

end Law

/-- In every run whose timers fire when they are due, attempts and the request run out of their
    time in this way, unless something else falls on the very end of the request's time. -/
theorem Run.timeoutLaw {statement : Statement} {profile : Profile} {snapshot : Snapshot}
    (run : Run (.ofProfile statement profile snapshot) ts σ)
    (punctual : EachAfter (Punctual (.ofProfile statement profile snapshot) ⟨0⟩) ts)
    (apart : Apart (statement.requestTimeout.or profile.requestTimeout) ts) :
    TimeoutLaw (.ofProfile statement profile snapshot)
      (statement.requestTimeout.or profile.requestTimeout) profile.attemptTimeout ts σ where
  notEarly := run.eachStep fun _ _ _ _ _ _ run move _ hx _ _ fails error =>
    run.timedOut move hx fails error
  mayFail := by
    rintro r e a c limit rfl clock m due
    exact clock.mayFail run due
  notLate := run.waitSteps punctual
  timesOut := fun _ _ => run.timesOut_iff punctual apart
  onTime := fun _ => run.timesOut_on_time punctual apart
  runs := fun _ running unclaimed _ => run.runs_until punctual apart running unclaimed
  late := run.fixedLate punctual apart

/-- A statement with a time limit whose retry policy never leaves a node. -/
def limitedStatement : Statement :=
  { contents := "SELECT now() FROM system.local", requestTimeout := some ⟨25⟩
    retry := some ⟨"Stubborn", fun _ => .retrySame none, fun _ => none, false⟩ }

/-- A profile that limits attempts more than this statement does requests. -/
def limitedProfile : Profile :=
  { Profile.standard with attemptTimeout := some ⟨10⟩ }

/-- An attempt that gets its connection at once. -/
def sentAttempt : List Event :=
  [.execution 0 .told, .execution 0 (.connection (.ok ⟨1, default⟩))]

/-- Two attempts that get no answer in time, and one that the request's time ends before. -/
def limitedEvents : List (Moment × Event) :=
  eventsAt 0 ([.told, .execution 0 .begin] ++ sentAttempt) ++
    eventsAt 10 ([.execution 0 .expire, .execution 0 .told] ++ sentAttempt) ++
    eventsAt 20 ([.execution 0 .expire, .execution 0 .told] ++ sentAttempt) ++
    eventsAt 25 [.timeUp, .told]

/-- An attempt that gets its result in time, of which the observers have been told only after the
    end of the request's time. -/
def reportedEvents : List (Moment × Event) :=
  eventsAt 0 ([.told, .execution 0 .begin] ++ sentAttempt) ++
    eventsAt 5 [.execution 0 (.answer (.ok (.ok (.result "row"))))] ++
    eventsAt 25 [.timeUp] ++ eventsAt 30 [.execution 0 .told, .told]

/-- The settings of this statement under this profile, on a cluster of one node. -/
def limitedSettings : Settings :=
  .ofProfile limitedStatement limitedProfile ⟨[default]⟩

/-- The steps of a run under these settings. -/
def limitedSteps (events : List (Moment × Event)) : List Transition :=
  ((replay limitedSettings [] .starting events).map Prod.fst).getD []

theorem limitedRun : Run limitedSettings (limitedSteps limitedEvents)
    (.finished (.error (.requestTimeout ⟨25⟩))) :=
  Run.start.replay limitedEvents rfl

theorem reportedRun : Run limitedSettings (limitedSteps reportedEvents)
    (.finished (.ok sampleAnswer)) :=
  Run.start.replay reportedEvents rfl

/-- Two attempts run out of their time, and the third one has none left when the request's is up;
    in another run the result stands though the observers know of it only after that. -/
theorem Run.timeoutLaw_of_limited :
    TimeoutLaw limitedSettings (some ⟨25⟩) (some ⟨10⟩) (limitedSteps limitedEvents)
        (.finished (.error (.requestTimeout ⟨25⟩))) ∧
      Deed.seen Action.failed? (log (limitedSteps limitedEvents)) =
        [⟨.timeout ⟨10⟩, false, .localQuorum, 1⟩, ⟨.timeout ⟨10⟩, false, .localQuorum, 2⟩] ∧
      TimeoutLaw limitedSettings (some ⟨25⟩) (some ⟨10⟩) (limitedSteps reportedEvents)
        (.finished (.ok sampleAnswer)) := by
  refine ⟨Run.timeoutLaw limitedRun ?_ ?_, ?_, Run.timeoutLaw reportedRun ?_ ?_⟩
  · decide +kernel
  · decide +kernel
  · decide +kernel
  · decide +kernel
  · decide +kernel

end Request

end RequestEngine
