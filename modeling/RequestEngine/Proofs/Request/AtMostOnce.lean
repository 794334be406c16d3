/-
  RequestEngine.Proofs.Request.AtMostOnce

  A statement that must not run twice takes effect at most once.  Such a request
  never speculates, so it has one execution (`Sole`), whose attempts follow each
  other; and its retry policy, if it is one of the provided ones, goes on only
  after errors under which nothing was written.

    * `Fate`       — an attempt starts, or the one in flight ends;
    * `Cautious`   — fates in which an attempt starts only while none is in
      flight and all before it ended harmlessly;
    * `AtMostOnce` — what that means for a whole run.
-/
import RequestEngine.Proofs.Request.Chronicle
import RequestEngine.Proofs.Retry.Caution

namespace RequestEngine

-- ============================================================================
-- Fates of attempts
-- ============================================================================

/-- How an attempt ended. -/
inductive AttemptEnd where
  | succeeded
  | failed (error : AttemptError)
  /-- Its execution was dropped while it was in flight. -/
  | cutOff
  deriving DecidableEq, Repr

/-- Whether an attempt that ended like this is taken to have written nothing. -/
def AttemptEnd.isHarmless : AttemptEnd → Bool
  | .failed error => error.isHarmless
  | _ => false

/-- An attempt starts, or the one that is in flight ends. -/
inductive Fate where
  | starts (h : HostInfo)
  | ends (x : AttemptEnd)
  deriving DecidableEq, Repr

/-- The ending that a fate is. -/
def Fate.ending? : Fate → Option AttemptEnd
  | .ends x => some x
  | .starts _ => none

namespace Action

/-- What an action means for the attempts: a result is reported to the load balancing policy as
    it arrives, and every error is put to the retry policy. -/
def fate? : Action → Option Fate
  | .notify (.nodeStarted h) => some (.starts h)
  | .reportSuccess .. => some (.ends .succeeded)
  | .decide a .. => some (.ends (.failed a.error))
  | .remark (.attemptCancelled ..) => some (.ends .cutOff)
  | _ => none

theorem fate?_of_isGeneral (a : Action) (h : a.isGeneral = true) : a.fate? = none := by
  cases a with
  | notify n => cases n <;> first | rfl | cases h
  | remark r => cases r <;> first | rfl | cases h
  | _ => first | rfl | cases h

theorem filterMap_fate?_of_isQuiet {actions : List Action}
    (h : ∀ a ∈ actions, a.isQuiet = true) : actions.filterMap fate? = [] :=
  List.filterMap_eq_nil_iff.mpr fun a ha => fate?_of_isGeneral a (isGeneral_of_isQuiet (h a ha))

end Action

namespace Deed

/-- The fates of the attempts of a log, in order. -/
abbrev fates (log : List Deed) : List Fate :=
  seen Action.fate? log

/-- How the attempts of a log ended, in order. -/
abbrev endings (log : List Deed) : List AttemptEnd :=
  (fates log).filterMap Fate.ending?

end Deed

/-! ## Cautious fates -/

/-- How attempts stand: none is in flight and nothing was written, one is in flight, or one may
    have written something. -/
inductive Status where
  | idle
  | busy (h : HostInfo)
  | spent
  deriving DecidableEq

namespace Status

/-- How attempts stand after one has ended. -/
def after (x : AttemptEnd) : Status :=
  if x.isHarmless then .idle else .spent

/-- The host of the attempt that is in flight. -/
def pending : Status → List HostInfo
  | .busy h => [h]
  | _ => []

@[simp] theorem pending_idle : idle.pending = [] := rfl

@[simp] theorem pending_busy (h : HostInfo) : (busy h).pending = [h] := rfl

@[simp] theorem pending_after (x : AttemptEnd) : (after x).pending = [] := by
  unfold after
  split <;> rfl

theorem length_pending_le (st : Status) : st.pending.length ≤ 1 := by
  cases st <;> simp [pending]

theorem after_eq_idle {x : AttemptEnd} (h : x.isHarmless = true) : after x = .idle :=
  if_pos h

end Status

/-- Fates in which an attempt starts only while none is in flight and after endings that are all
    harmless, and where this leaves the attempts. -/
inductive Cautious : List Fate → Status → Prop where
  | nothing : Cautious [] .idle
  | starts {fates : List Fate} (before : Cautious fates .idle) (h : HostInfo) :
      Cautious (fates ++ [.starts h]) (.busy h)
  | ends {fates : List Fate} {h : HostInfo} (before : Cautious fates (.busy h)) (x : AttemptEnd) :
      Cautious (fates ++ [.ends x]) (.after x)

/-- What one turn may mean for the attempts. -/
inductive FateTurn : Status → List Fate → Status → Prop where
  | nothing (st : Status) : FateTurn st [] st
  | starts (h : HostInfo) : FateTurn .idle [.starts h] (.busy h)
  | ends (h : HostInfo) (x : AttemptEnd) : FateTurn (.busy h) [.ends x] (.after x)

namespace Cautious

variable {fates more : List Fate} {st st' : Status}

theorem append (h : Cautious fates st) (turn : FateTurn st more st') :
    Cautious (fates ++ more) st' := by
  cases turn with
  | nothing => rwa [List.append_nil]
  | starts host => exact h.starts host
  | ends host x => exact h.ends x

theorem isHarmless (h : Cautious fates st) (unspent : st ≠ .spent) :
    ∀ x, .ends x ∈ fates → x.isHarmless = true := by
  induction h with
  | nothing => simp
  | starts _ host ih => simpa using ih (by simp)
  | ends before y ih =>
    intro x hx
    rcases List.mem_append.mp hx with hx | hx
    · exact ih (by simp) x hx
    · obtain rfl : x = y := by simpa using hx
      by_contra harm
      exact unspent (if_neg harm)

/-- Each attempt ends before the next one starts. -/
theorem inTurn (h : Cautious fates st) : ∃ tries : List (HostInfo × AttemptEnd),
    fates = (tries.flatMap fun t => [.starts t.1, .ends t.2]) ++ st.pending.map .starts := by
  induction h with
  | nothing => exact ⟨[], rfl⟩
  | starts _ host ih =>
    obtain ⟨tries, hfates⟩ := ih
    exact ⟨tries, by simp [hfates]⟩
  | @ends _ host _ x ih =>
    obtain ⟨tries, hfates⟩ := ih
    exact ⟨tries ++ [(host, x)], by simp [hfates]⟩

theorem countP_eq_zero (h : Cautious fates st) (unspent : st ≠ .spent) :
    (fates.filterMap Fate.ending?).countP (fun x => !x.isHarmless) = 0 := by
  refine List.countP_eq_zero.mpr fun x hx => ?_
  obtain ⟨fate, hfate, hending⟩ := List.mem_filterMap.mp hx
  cases fate with
  | starts => cases hending
  | ends y =>
    cases hending
    simp [h.isHarmless unspent x hfate]

/-- At most one attempt ends otherwise than harmlessly. -/
theorem once (h : Cautious fates st) :
    (fates.filterMap Fate.ending?).countP (fun x => !x.isHarmless) ≤ 1 := by
  cases h with
  | nothing => exact Nat.zero_le 1
  | starts before host =>
    have hnone := before.countP_eq_zero (by simp)
    simp [List.filterMap_cons, Fate.ending?, hnone]
  | ends before x =>
    have hnone := before.countP_eq_zero (by simp)
    rw [List.filterMap_append, List.countP_append, hnone, Nat.zero_add]
    exact List.countP_le_length

/-- An attempt starts only after harmless endings. -/
theorem last (h : Cautious fates st) :
    EachAfter (fun before fate => ∀ h, fate = .starts h →
      ∀ x, .ends x ∈ before → x.isHarmless = true) fates := by
  induction h with
  | nothing => simp
  | starts before host ih => exact ih.concat fun _ _ => before.isHarmless (by simp)
  | ends _ x ih => exact ih.concat (by simp)

end Cautious

-- ============================================================================
-- Fates of one execution
-- ============================================================================

namespace Execution

/-- How the attempts of an execution stand. -/
def status (e : Execution) : Status :=
  match e.phase with
  | .fresh => .idle
  | .announcing a | .acquiring a | .exchanging a _ => .busy (e.host a)
  | .reportingSuccess .. => .after .succeeded
  | .reportingFailure _ error _ => .after (.failed error)

/-- An execution that goes on after a failure was not harmed by it. -/
def Unharmed (e : Execution) : Prop :=
  ∀ a error d, e.phase = .reportingFailure a error d → d ≠ .rethrow → error.isHarmless = true

variable {s : Settings} {deadline : Option Instant} {m : Moment} {sh sh' : Shared}
  {e e' : Execution} {event : ExecutionEvent} {advance : Advance}

theorem pending_status (e : Execution) :
    e.status.pending = (e.pending?.map e.host).toList := by
  cases h : e.phase <;> simp [status, pending?, h]

theorem Onward.idle {lead : List Action} (h : Onward s m sh e event sh' e' lead)
    (unharmed : e.Unharmed) : e.status = .idle := by
  rcases h.origin with ⟨phase, -⟩ | ⟨a, error, d, phase, again⟩
  · simp [status, phase]
  · rw [status, phase]
    exact Status.after_eq_idle (unharmed a error d phase again)

theorem assess_fates (a : Attempt) (error : AttemptError) :
    (e.assess s m a error).filterMap Action.fate? = [.ends (.failed error)] := by
  cases h : error.wasSent <;> simp [assess, h, List.filterMap_cons, Action.fate?, failed]

/-- An attempt that fails was in flight, and its failure is the only thing that becomes of it. -/
theorem Fails.fateTurn {a : Attempt} {error : AttemptError} {back rest : List Action}
    (h : Fails s deadline m e event a error back) (other : rest.filterMap Action.fate? = []) :
    FateTurn e.status ((back ++ (e.assess s m a error ++ rest)).filterMap Action.fate?)
      (.after (.failed error)) := by
  have hback : back.filterMap Action.fate? = [] := by cases h <;> rfl
  have hbusy : e.status = .busy (e.host a) := by cases h <;> simp [status, *]
  rw [List.filterMap_append, List.filterMap_append, assess_fates, other, hback, hbusy]
  exact .ends ..

/-- What a turn of an execution means for its attempts while it goes on. -/
theorem Turn.fateTurn {actions : List Action}
    (h : Turn s deadline m sh e event ⟨sh', .goesOn e', actions⟩) (unharmed : e.Unharmed) :
    FateTurn e.status (actions.filterMap Action.fate?) e'.status := by
  cases h with
  | @starts _ _ e₁ lead onward =>
    have hlead := Action.filterMap_fate?_of_isQuiet onward.quiet
    rw [onward.idle unharmed, List.filterMap_append, hlead]
    exact .starts _
  | @asks a phase | @sends a _ phase =>
    have hstatus : e.status = .busy (e.host a) := by rw [status, phase]
    rw [hstatus]
    exact .nothing _
  | @succeeds a _ _ phase =>
    have hstatus : e.status = .busy (e.host a) := by rw [status, phase]
    rw [hstatus]
    exact .ends _ .succeeded
  | rethrows fails | fails fails => exact fails.fateTurn rfl

/-- An execution that ends leaves no attempt in flight. -/
theorem Turn.fateTurn_last {progress : Progress} {actions : List Action}
    (h : Turn s deadline m sh e event ⟨sh', progress, actions⟩)
    (last : ∀ e', progress ≠ .goesOn e') :
    ∃ st, FateTurn e.status (actions.filterMap Action.fate?) st ∧ st.pending = [] := by
  cases h with
  | starts | asks | sends | succeeds | rethrows | fails => exact absurd rfl (last _)
  | stops onward =>
    have hpending : e.status.pending = [] := by
      rcases onward.origin with ⟨phase, -⟩ | ⟨a, error, d, phase, -⟩ <;> simp [status, phase]
    refine ⟨e.status, ?_, hpending⟩
    rw [Action.filterMap_fate?_of_isQuiet onward.stopping_quiet]
    exact .nothing _
  | exhausts phase moves take =>
    refine ⟨e.status, ?_, by simp [status, phase]⟩
    rw [Action.filterMap_fate?_of_isQuiet (moves.exhausting_quiet take)]
    exact .nothing _
  | @succeedsLate a _ _ phase =>
    have hstatus : e.status = .busy (e.host a) := by rw [status, phase]
    rw [hstatus]
    exact ⟨_, .ends _ .succeeded, Status.pending_after _⟩
  | failsLate fails asked =>
    subst asked
    refine ⟨_, fails.fateTurn ?_, Status.pending_after _⟩
    split <;> rfl
  | returns phase | throws phase => exact ⟨e.status, .nothing _, by simp [status, phase]⟩

/-- Dropping an execution cuts off the attempt that is in flight. -/
theorem abandon_fateTurn (e : Execution) :
    ∃ st, FateTurn e.status (e.abandon.filterMap Action.fate?) st ∧ st.pending = [] := by
  cases h : e.phase with
  | announcing a | acquiring a | exchanging a =>
    refine ⟨_, ?_, Status.pending_after .cutOff⟩
    simp only [abandon, connection?, pending?, h, status]
    exact .ends ..
  | fresh | reportingSuccess | reportingFailure =>
    refine ⟨e.status, ?_, by simp [status, h]⟩
    simp only [abandon, connection?, pending?, h]
    exact .nothing _

end Execution

theorem Settings.speculationPolicy_eq_none {s : Settings} (single : s.routing.idempotent = false) :
    s.speculationPolicy = none := by
  simp [Settings.speculationPolicy, single]

/-- Settings under which an execution goes on only after harmless errors. -/
def Settings.IsCautious (s : Settings) : Prop :=
  ∀ a error, s.retry.decide (Execution.failed s a error) ≠ .rethrow → error.isHarmless = true

/-- A statement that must not run twice is treated with caution by the provided policies. -/
theorem Settings.isCautious {s : Settings} (single : s.routing.idempotent = false)
    (provided : s.retry.IsProvided) : s.IsCautious :=
  fun _ _ again => provided.isHarmless single again

namespace Request

/-- The fates of the attempts of an execution are cautious, and it was not harmed yet. -/
structure Careful (done : List Action) (e : Execution) : Prop where
  fates : Cautious (done.filterMap Action.fate?) e.status
  unharmed : e.Unharmed

/-- The law that an execution is careful. -/
def Law.careful {s : Settings} (cautious : s.IsCautious) : Law s where
  live _ := Careful
  ended _ _ done := ∃ st, Cautious (done.filterMap Action.fate?) st ∧ st.pending = []
  new _ _ := ⟨.nothing, by simp [Execution.Unharmed, Execution.new]⟩
  goesOn := by
    intro deadline m sh sh' e e' event origin done actions h turn
    refine ⟨?_, ?_⟩
    · rw [List.filterMap_append]
      exact h.fates.append (turn.fateTurn h.unharmed)
    · intro a error d phase again
      cases turn with
      | starts | asks | sends | succeeds => cases phase
      | rethrows =>
        cases phase
        exact absurd rfl again
      | fails _ decision =>
        cases phase
        exact cautious a error (decision ▸ again)
  ends := by
    intro deadline m sh sh' e event progress origin done actions h turn last
    obtain ⟨st, hturn, hpending⟩ := turn.fateTurn_last last
    refine ⟨st, ?_, hpending⟩
    rw [List.filterMap_append]
    exact h.fates.append hturn
  dropped := by
    intro e origin done h
    obtain ⟨st, hturn, hpending⟩ := e.abandon_fateTurn
    refine ⟨st, ?_, hpending⟩
    rw [List.filterMap_append]
    exact h.fates.append hturn

-- ============================================================================
-- Requests with one execution
-- ============================================================================

/-- A request that has no execution but the first one, and no timer for another. -/
structure Sole (log : List Deed) (σ : State) : Prop where
  only : ∀ d ∈ log, ∀ index, d.execution = some index → index = 0
  first : ∀ e ∈ σ.executions, e.index = 0
  untimed : ∀ r, σ = .running r → r.timer = none

variable {s : Settings} {ts : List Transition} {σ : State}

/-- A step of a sole request is taken by the first execution or by the request as a whole. -/
theorem Sole.only_move {m : Moment} {σ' : State} {event : Event} {log deeds : List Deed}
    (h : Sole log σ) (move : Move s m σ event σ' deeds) :
    ∀ d ∈ log ++ deeds, ∀ index, d.execution = some index → index = 0 := by
  refine List.forall_mem_append.mpr ⟨h.only, fun d hd index hindex => ?_⟩
  cases move.source d hd with
  | request => cases hindex
  | turn mem | abandon mem =>
    cases hindex
    exact h.first _ mem

/-- A request that goes on after one of its parties is gone has no more executions, and no timer
    if there was none. -/
theorem GoesOn.sole {r : Running} {more : List Deed} (h : GoesOn r σ more)
    (first : ∀ e ∈ r.executions, e.index = 0) (untimed : r.timer = none) :
    (∀ e ∈ σ.executions, e.index = 0) ∧ ∀ r', σ = .running r' → r'.timer = none := by
  cases h with
  | still =>
    refine ⟨first, ?_⟩
    rintro r' ⟨⟩
    exact untimed
  | ended => simp [exhaust_eq, State.executions]

/-- Without a speculation policy a request has one execution. -/
theorem Run.sole (h : Run s ts σ) (unspeculated : s.speculationPolicy = none) :
    Sole (log ts) σ := by
  refine h.invariant (fun ts σ => Sole (log ts) σ) ?_ ?_
  · exact ⟨by simp, by simp [State.executions], by simp⟩
  intro ts m σ event σ' deeds _ ih move
  have honly := ih.only_move move
  rw [log_concat]
  cases move with
  | begins take armed =>
    refine ⟨honly, by simp [State.executions, Execution.new], ?_⟩
    rintro r ⟨⟩
    cases armed with
    | unwanted => rfl
    | asked present => simp [unspeculated] at present
  | @advances r e e' _ _ _ mem turn =>
    refine ⟨honly, ?_, ?_⟩
    · intro o ho
      obtain ⟨o, hmem, rfl⟩ := List.mem_map.mp ho
      split
      · exact turn.index.trans (ih.first e mem)
      · exact ih.first o hmem
    · rintro r' ⟨⟩
      exact ih.untimed r rfl
  | @cancels r e _ _ _ _ _ mem turn goes =>
    obtain ⟨hfirst, huntimed⟩ :=
      goes.sole (fun o ho => ih.first o (List.mem_of_mem_filter ho)) (ih.untimed r rfl)
    exact ⟨honly, hfirst, huntimed⟩
  | @exhausts r e _ _ _ _ _ _ mem turn goes =>
    obtain ⟨hfirst, huntimed⟩ :=
      goes.sole (fun o ho => ih.first o (List.mem_of_mem_filter ho)) rfl
    exact ⟨honly, hfirst, huntimed⟩
  | speculates set | speculatesInVain set =>
    rw [ih.untimed _ rfl] at set
    cases set
  | @timesOutLate r =>
    refine ⟨honly, ih.first, ?_⟩
    rintro r' ⟨⟩
    exact ih.untimed r rfl
  | findsNothing | forgoes | settles | timesOut | drops | finishes | forsakes =>
    exact ⟨honly, by simp [State.executions], by simp⟩

-- ============================================================================
-- At most once
-- ============================================================================

/-- The hosts of the attempts that are in flight. -/
def State.pending (σ : State) : List HostInfo :=
  σ.executions.filterMap fun e => e.pending?.map e.host

/-- The attempts that led to a state, none of which can have written anything but the last. -/
structure AtMostOnce (log : List Deed) (σ : State) : Prop where
  /-- No two attempts are in flight. -/
  alone : σ.pending.length ≤ 1
  /-- Each attempt ends before the next one starts, and one that has not ended is in flight. -/
  inTurn : ∃ tries : List (HostInfo × AttemptEnd), Deed.fates log =
    (tries.flatMap fun t => [.starts t.1, .ends t.2]) ++ σ.pending.map .starts
  /-- At most one attempt ends otherwise than harmlessly. -/
  once : (Deed.endings log).countP (fun x => !x.isHarmless) ≤ 1
  /-- After it no other attempt starts. -/
  last : EachAfter (fun before fate => ∀ h, fate = .starts h →
    ∀ x, .ends x ∈ before → x.isHarmless = true) (Deed.fates log)

/-- The fates of a request with one execution are those of that execution. -/
theorem Run.fates_eq (h : Run s ts σ) (sole : Sole (log ts) σ) :
    Deed.fates (log ts) = (Deed.actionsOf 0 (log ts)).filterMap Action.fate? := by
  rw [Deed.fates, Deed.seen, Deed.actionsOf, List.filterMap_filterMap]
  refine List.filterMap_congr fun d hd => ?_
  cases hexecution : d.execution with
  | none => simp [Action.fate?_of_isGeneral _ (h.general d hd hexecution)]
  | some index => simp [sole.only d hd index hexecution]

theorem Run.executions_eq {e : Execution} (h : Run s ts σ) (sole : Sole (log ts) σ)
    (mem : e ∈ σ.executions) : σ.executions = [e] := by
  have hall : ∀ o ∈ σ.executions, o = e := fun o ho =>
    eq_of_index_eq h.distinct mem ho ((sole.first o ho).trans (sole.first e mem).symm)
  have hnodup : σ.executions.Nodup := h.distinct.of_map _
  match hexecutions : σ.executions with
  | [] => simp [hexecutions] at mem
  | [o] => rw [hall o (by simp [hexecutions])]
  | o :: o' :: rest =>
    rw [hexecutions, List.nodup_cons] at hnodup
    have heq : o = o' := (hall o (by simp [hexecutions])).trans
      (hall o' (by simp [hexecutions])).symm
    exact absurd (heq ▸ List.mem_cons_self) hnodup.1

/-- The attempts of a careful request stand as its one execution says. -/
theorem Run.cautious (h : Run s ts σ) (sole : Sole (log ts) σ) (cautious : s.IsCautious) :
    ∃ st, Cautious (Deed.fates (log ts)) st ∧ st.pending = σ.pending := by
  have absent (gone : ∀ e ∈ σ.executions, e.index ≠ 0) : σ.pending = [] := by
    rw [State.pending, List.filterMap_eq_nil_iff]
    exact fun e he => absurd (sole.first e he) (gone e he)
  rw [h.fates_eq sole]
  cases (Law.careful cautious).record h 0 with
  | @live e _ mem _ holds =>
    refine ⟨e.status, holds.fates, ?_⟩
    rw [State.pending, h.executions_eq sole mem, e.pending_status]
    cases h : e.pending? <;> simp [h]
  | ended gone holds =>
    obtain ⟨st, hfates, hpending⟩ := holds
    exact ⟨st, hfates, hpending.trans (absent gone).symm⟩
  | never gone nothing =>
    refine ⟨.idle, ?_, (absent gone).symm⟩
    rw [nothing]
    exact .nothing

/-- A statement that is not marked as idempotent takes effect at most once under a provided retry
    policy. -/
theorem Run.atMostOnce {statement : Statement} {handle : ProfileHandle} {cells : ProfileCells}
    {snapshot : Snapshot} {ts : List Transition} {σ : State}
    (h : Run (.resolve statement handle cells snapshot) ts σ)
    (single : statement.idempotent = false)
    (provided : (Settings.resolve statement handle cells snapshot).retry.IsProvided) :
    AtMostOnce (log ts) σ := by
  have hsole := h.sole (Settings.speculationPolicy_eq_none single)
  obtain ⟨st, hcautious, hpending⟩ := h.cautious hsole (Settings.isCautious single provided)
  exact {
    alone := hpending ▸ st.length_pending_le
    inTurn := hpending ▸ hcautious.inTurn
    once := hcautious.once
    last := hcautious.last }

/-- A statement that may not run twice, on a cluster of two nodes. -/
def carefulSettings : Settings :=
  .resolve { contents := "UPDATE visits SET count = count + 1 WHERE page = 'home'" } default {}
    ⟨[default, otherNode]⟩

/-- A write that was not confirmed in time. -/
def unconfirmed : DatabaseError :=
  .writeTimeout .localQuorum 1 2 .counter

/-- An attempt whose read of the old value takes too long, one that gets no connection, and one
    on the other node whose write is not confirmed. -/
def carefulEvents : List (Moment × Event) :=
  eventsAt 0 [.told, .execution 0 .begin, .execution 0 .told,
      .execution 0 (.connection (.ok ⟨1, default⟩))] ++
    eventsAt 3 [.execution 0 (.answer (.ok (.error ⟨.readTimeout .localQuorum 2 2 false, "late"⟩))),
      .execution 0 .told, .execution 0 .told, .execution 0 (.connection (.error .nodeDisabled)),
      .execution 0 .told] ++
    eventsAt 4 [.execution 0 .told, .execution 0 (.connection (.ok ⟨2, default⟩))] ++
    eventsAt 8 [.execution 0 (.answer (.ok (.error ⟨unconfirmed, "late"⟩))), .execution 0 .told,
      .told]

/-- The steps of this run. -/
def carefulSteps : List Transition :=
  ((replay carefulSettings [] .starting carefulEvents).map Prod.fst).getD []

/-- What it ends with. -/
def carefulOutcome : Outcome :=
  .error (.lastAttempt (.database unconfirmed "late"))

theorem carefulRun : Run carefulSettings carefulSteps (.finished carefulOutcome) :=
  Run.start.replay carefulEvents rfl

/-- Two attempts that cannot have written anything are followed by one that may have, and that is
    the last. -/
theorem Run.atMostOnce_of_careful :
    AtMostOnce (log carefulSteps) (.finished carefulOutcome) ∧
      Deed.fates (log carefulSteps) =
        [.starts ⟨default, 0, 1⟩,
          .ends (.failed (.database (.readTimeout .localQuorum 2 2 false) "late")),
          .starts ⟨default, 0, 2⟩, .ends (.failed (.pool .nodeDisabled)),
          .starts ⟨otherNode, 0, 3⟩, .ends (.failed (.database unconfirmed "late"))] :=
  ⟨Run.atMostOnce carefulRun rfl (.inl rfl), by decide +kernel⟩

end Request

end RequestEngine
