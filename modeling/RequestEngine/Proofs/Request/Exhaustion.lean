/-
  RequestEngine.Proofs.Request.Exhaustion

  How a request ends that runs out of nodes.  Its executions report the failures
  of their attempts one by one, and once the observers know of a failure it is
  entered into one list that all executions share.

    * `reports ts`  — the failures that the observers got to know of, in the
      order in which they did;
    * `Turn.tally`  — a turn starts an attempt, carries on with it, or enters it
      into the list;
    * `Tally`       — attempts are entered or still being made, and the list is
      that of the reports;
    * `Run.ranOut`  — the request ends with the error of the last attempt, if it
      was to be ignored, or with the list of all of them.
-/
import RequestEngine.Proofs.Request.Hosts

namespace RequestEngine

-- ============================================================================
-- Reports
-- ============================================================================

/-- A failed attempt: its host, its error, and what the policy decided about it. -/
structure Report where
  host : HostInfo
  error : AttemptError
  decision : Decision
  deriving DecidableEq, Repr

/-- The entry of a failed attempt in the list that a request may end with. -/
def Report.hostError (p : Report) : HostError :=
  ⟨p.host.node.host, p.host.node.address, p.error⟩

/-- The failure that a notification tells of. -/
def Notification.failure? : Notification → Option Report
  | .nodeFailed h _ d error => some ⟨h, error, d⟩
  | _ => none

/-- The failures that the observers were told of, in the order in which that began. -/
abbrev Deed.failures (log : List Deed) : List Report :=
  (notices log).filterMap Notification.failure?

theorem Deed.failures_append {log log' : List Deed} :
    failures (log ++ log') = failures log ++ failures log' := by
  rw [failures, notices, seen_append, List.filterMap_append]

theorem Deed.failures_ofExecution {index : Nat} {actions : List Action} :
    failures (ofExecution index actions) =
      (actions.filterMap Action.notice?).filterMap Notification.failure? := by
  rw [failures, notices, seen_ofExecution]

/-- What a request does as a whole reports no failure. -/
theorem Deed.failures_ofRequest {actions : List Action}
    (general : ∀ a ∈ actions, a.isGeneral = true) : failures (ofRequest actions) = [] := by
  rw [failures, notices, seen_ofRequest, List.filterMap_filterMap, List.filterMap_eq_nil_iff]
  intro a ha
  have hgeneral := general a ha
  cases a with
  | notify n => cases n <;> first | rfl | cases hgeneral
  | _ => rfl

/-- The executions that found no node any more, in order. -/
def Deed.finished (log : List Deed) : List Nat :=
  log.filterMap fun d => if d.action = .remark .planExhausted then d.execution else none

section Finished

variable {log log' : List Deed} {index : Nat} {actions : List Action}

theorem Deed.finished_append : finished (log ++ log') = finished log ++ finished log' :=
  List.filterMap_append

theorem Deed.finished_ofRequest : finished (ofRequest actions) = [] := by
  simp [finished, ofRequest]

/-- An execution that finds no node any more is the last one then. -/
theorem Deed.getLast?_finished :
    (finished (log ++ ofExecution index (actions ++ [.remark .planExhausted]))).getLast? =
      some index := by
  simp [finished, ofExecution]

end Finished

/-- The latest attempt of an execution. -/
def latestStart (index : Nat) (starts : List HostInfo) : Option HostInfo :=
  (starts.filter (·.execution = index)).getLast?

theorem latestStart_concat {index : Nat} {starts : List HostInfo} {h : HostInfo} :
    latestStart index (starts ++ [h]) =
      if h.execution = index then some h else latestStart index starts := by
  by_cases heq : h.execution = index <;> simp [latestStart, heq]

namespace Execution

/-- The failure whose report is over once an event has happened. -/
def reported? (e : Execution) : ExecutionEvent → Option Report
  | .told =>
    match e.phase with
    | .reportingFailure a error d => some ⟨e.host a, error, d⟩
    | _ => none
  | _ => none

/-- The failure that is being reported. -/
def reporting? (e : Execution) : Option Report :=
  e.reported? .told

/-- The host of the attempt that is being made or reported. -/
def trying? (e : Execution) : Option HostInfo :=
  e.attempt?.map e.host

end Execution

/-- The attempt that is made or reported after a turn. -/
def Progress.trying? : Progress → Option HostInfo
  | .goesOn e => e.trying?
  | _ => none

/-- The failure that is reported after a turn. -/
def Progress.reporting? : Progress → Option Report
  | .goesOn e => e.reporting?
  | _ => none

namespace Execution

variable {s : Settings} {deadline : Option Instant} {m : Moment} {sh sh' : Shared}
  {e e' : Execution} {event : ExecutionEvent} {lead actions : List Action} {progress : Progress}

/-- What a turn comes to in an account of the attempts and their failures. -/
structure Tallied (sh sh' : Shared) (e : Execution) (event : ExecutionEvent)
    (progress : Progress) (notices : List Notification) : Prop where
  attempts : (e.trying?.toList ++ notices.filterMap Notification.start?).Perm
    ((e.reported? event).toList.map Report.host ++ progress.trying?.toList)
  failures : (e.reporting?.toList ++ notices.filterMap Notification.failure?).Perm
    ((e.reported? event).toList ++ progress.reporting?.toList)
  errors : sh'.hostErrors = sh.hostErrors ++ (e.reported? event).toList.map Report.hostError
  latest : ∀ e', progress = .goesOn e' →
    (notices.filterMap Notification.start? = [] ∧ e'.trying? = e.trying?) ∨
      ∃ h, notices.filterMap Notification.start? = [h] ∧ h.execution = e.index ∧
        e'.trying? = some h

theorem nextNode_hostErrors {found : Option Node} {live : Liveness} {consulted : List Action}
    (take : sh.nextNode live = (found, sh', consulted)) : sh'.hostErrors = sh.hostErrors := by
  rw [Shared.nextNode_rest take]

/-- An attempt starts once the one before it, if there was any, is entered into the list. -/
theorem Tallied.start {now : Instant} (settled : e.trying? = (e.reported? event).map Report.host)
    (reported : e.reporting? = e.reported? event) (index : e'.index = e.index)
    (errors : sh'.hostErrors =
      sh.hostErrors ++ (e.reported? event).toList.map Report.hostError) :
    Tallied sh sh' e event (.goesOn (e'.announce now))
      [.nodeStarted (e'.host (e'.nextAttempt now))] := by
  refine ⟨?_, ?_, errors, ?_⟩
  · rw [settled]
    cases e.reported? event <;> exact .refl _
  · rw [reported]
    exact .refl _
  · rintro _ ⟨⟩
    exact .inr ⟨_, rfl, index, rfl⟩

/-- An attempt starts after a failure was entered into the list, or as the first one. -/
theorem Onward.tally (h : Onward s m sh e event sh' e' lead) :
    Tallied sh sh' e event (.goesOn (e'.announce m.now))
      [.nodeStarted (e'.host (e'.nextAttempt m.now))] := by
  have hindex := h.index
  cases h with
  | fresh phase =>
    refine .start ?_ ?_ hindex ?_ <;> simp [trying?, attempt?, reporting?, reported?, phase]
  | same phase =>
    refine .start ?_ ?_ hindex ?_
    · simp [trying?, attempt?, reported?, phase]
    · simp [reporting?, reported?, phase]
    · simp [reported?, phase, Shared.addError, Report.hostError, host]
  | next phase moves take =>
    refine .start ?_ ?_ hindex ?_
    · simp [trying?, attempt?, reported?, phase]
    · simp [reporting?, reported?, phase]
    · simp [nextNode_hostErrors take, reported?, phase, Shared.addError, Report.hostError, host]

/-- An execution carries on with its attempt. -/
theorem Tallied.carry {told : List Notification} (same : e'.trying? = e.trying?)
    (errors : sh'.hostErrors = sh.hostErrors) (unreported : e.reported? event = none)
    (before : e.reporting? = none) (starts : told.filterMap Notification.start? = [])
    (failures : told.filterMap Notification.failure? = e'.reporting?.toList) :
    Tallied sh sh' e event (.goesOn e') told := by
  refine ⟨?_, ?_, ?_, ?_⟩
  · rw [starts, unreported, List.append_nil, Progress.trying?, same]
    rfl
  · rw [failures, unreported, before]
    rfl
  · rw [errors, unreported]
    exact (List.append_nil _).symm
  · rintro _ ⟨⟩
    exact .inl ⟨starts, same⟩

/-- While nobody has resolved the request, a turn starts an attempt, carries on with it, or
    enters it into the list. -/
theorem Turn.tally (h : Turn s deadline m sh e event ⟨sh', progress, actions⟩)
    (free : sh.claim = none) (undecided : e.verdict? = none) :
    Tallied sh sh' e event progress (actions.filterMap Action.notice?) := by
  rw [h.told]
  -- turns that resolve the request need a claim, or come after a verdict
  cases h with
  | starts onward => exact onward.tally
  | stops onward taken => exact absurd (onward.claim.trans free) taken
  | exhausts phase moves take =>
    refine ⟨?_, ?_, ?_, by simp⟩
    · simp [trying?, attempt?, phase, reported?, Progress.told, Progress.trying?]
    · simp [reporting?, reported?, phase, Progress.told, Progress.reporting?]
    · simp [nextNode_hostErrors take, reported?, phase, Shared.addError, Report.hostError, host]
  | asks phase | sends phase | succeeds phase =>
    refine .carry ?_ rfl ?_ ?_ rfl rfl <;>
      simp [trying?, attempt?, reporting?, reported?, phase, host]
  | rethrows fails | fails fails =>
    refine .carry ?_ rfl ?_ ?_ rfl rfl <;> cases fails <;>
      simp [trying?, attempt?, reporting?, reported?, host, *]
  | succeedsLate _ taken | failsLate _ _ taken => exact absurd free taken
  | returns phase | throws phase => simp [verdict?, phase] at undecided

/-- An execution that finds no node any more was told of the failure of its latest attempt, and
    hands over the error if the policy decided to ignore it. -/
theorem Turn.givesUp {lastIgnored : Option AttemptError}
    (h : Turn s deadline m sh e event ⟨sh', .exhausted lastIgnored, actions⟩) :
    ∃ p before, e.reported? event = some p ∧ e.trying? = some p.host ∧
      p.host.execution = e.index ∧ actions = before ++ [.remark .planExhausted] ∧
        lastIgnored = if p.decision = .ignore then some p.error else none := by
  cases h with
  | @exhausts a error d _ left consulted phase =>
    refine ⟨⟨e.host a, error, d⟩, left ++ consulted, ?_, ?_, rfl, ?_, ?_⟩
    · simp [reported?, phase]
    · simp [trying?, attempt?, phase]
    · rw [List.append_assoc]
    · cases d <;> simp [heed]

/-- A turn that neither gets a result nor lets an error stand leaves the request open. -/
theorem Turn.leftOpen (h : Turn s deadline m sh e event ⟨sh', progress, actions⟩)
    (free : sh.claim = none) (undecided : e.verdict? = none)
    (noSuccess : actions.filterMap Action.success? = [])
    (noRethrow : .rethrow ∉ actions.filterMap Action.decision?) :
    sh'.claim = none ∧ progress ≠ .cancelled ∧ ∀ o, progress ≠ .resolved o := by
  cases h with
  | starts _ free => exact ⟨free, by simp, by simp⟩
  | asks | sends | fails => exact ⟨free, by simp, by simp⟩
  | exhausts _ _ take =>
    exact ⟨(nextNode_claim take).trans ((addError_claim ..).trans free), by simp, by simp⟩
  | succeeds => simp [List.filterMap_cons, Action.success?] at noSuccess
  | @rethrows _ a error _ _ decision =>
    simp [assess, decision, Action.decision?] at noRethrow
  | stops onward taken => exact absurd (onward.claim.trans free) taken
  | succeedsLate _ taken | failsLate _ _ taken => exact absurd free taken
  | returns phase | throws phase => simp [verdict?, phase] at undecided

end Execution

/-- An account stays balanced if what one of its owners has gained is settled or still his. -/
theorem perm_exchange {α : Type} [DecidableEq α]
    {total settled own own' others gained done : List α}
    (h : total.Perm (settled ++ (own ++ others))) (turn : (own ++ gained).Perm (done ++ own')) :
    (total ++ gained).Perm (settled ++ done ++ (own' ++ others)) := by
  refine List.perm_iff_count.mpr fun a => ?_
  have htotal := h.count_eq a
  have hturn := turn.count_eq a
  simp only [List.count_append] at htotal hturn ⊢
  omega

namespace Request

/-- The failure whose report is over once a step is taken. -/
def Transition.report? (t : Transition) : Option Report :=
  match t.source, t.event with
  | .running r, .execution index event =>
    (r.executions.find? fun e => e.index = index).bind fun e => e.reported? event
  | _, _ => none

/-- The failures whose reports are over, in the order in which they were. -/
def reports (ts : List Transition) : List Report :=
  ts.filterMap Transition.report?

@[simp] theorem reports_concat (ts : List Transition) (t : Transition) :
    reports (ts ++ [t]) = reports ts ++ t.report?.toList := by
  cases h : t.report? <;> simp [reports, h]

/-- Nobody resolves the request before its plan has come to an end: no attempt succeeds, no error
    is to stand, and the deadline does not pass. -/
structure LeftOpen (log : List Deed) : Prop where
  noSuccess : Deed.successes log = []
  noRethrow : .rethrow ∉ Deed.decisions log
  noTimeout : .deadline ∉ Deed.winners log

theorem LeftOpen.of_append {log more : List Deed} (h : LeftOpen (log ++ more)) :
    LeftOpen log ∧ LeftOpen more := by
  obtain ⟨noSuccess, noRethrow, noTimeout⟩ := h
  rw [Deed.successes, Deed.seen_append, List.append_eq_nil_iff] at noSuccess
  rw [Deed.decisions, Deed.seen_append, List.mem_append, not_or] at noRethrow
  rw [Deed.winners, Deed.seen_append, List.mem_append, not_or] at noTimeout
  exact ⟨⟨noSuccess.1, noRethrow.1, noTimeout.1⟩, ⟨noSuccess.2, noRethrow.2, noTimeout.2⟩⟩

/-- The account of a running request: every attempt is entered into the list or still being made
    or reported. -/
structure Tally (ts : List Transition) (r : Running) : Prop where
  claim : r.shared.claim = none
  errors : r.shared.hostErrors = (reports ts).map Report.hostError
  attempts : (Deed.starts (log ts)).Perm
    ((reports ts).map Report.host ++ r.executions.filterMap Execution.trying?)
  failures : (Deed.failures (log ts)).Perm
    (reports ts ++ r.executions.filterMap Execution.reporting?)
  latest : ∀ e ∈ r.executions, ∀ h, e.trying? = some h →
    latestStart e.index (Deed.starts (log ts)) = some h

/-- The report about the latest attempt of the execution that was the last one to find no node
    any more. -/
def finalReport (ts : List Transition) : Option Report :=
  (Deed.finished (log ts)).getLast?.bind fun index =>
    ((reports ts).filter (·.host.execution = index)).getLast?

/-- How a request ends that runs out of nodes. -/
structure RanOut (ts : List Transition) (o : Outcome) : Prop where
  /-- There is one report for each attempt, with the error that the observers were told. -/
  attempts : ((reports ts).map Report.host).Perm (Deed.starts (log ts))
  failures : (reports ts).Perm (Deed.failures (log ts))
  /-- The last report is about the latest attempt of its execution. -/
  latest : reports ts ≠ [] → ∃ p, finalReport ts = some p ∧
    latestStart p.host.execution (Deed.starts (log ts)) = some p.host
  /-- If its error was to be ignored, it is the error of the request. -/
  ignored : ∀ p, finalReport ts = some p → p.decision = .ignore →
    o = .error (.lastAttempt p.error)
  /-- Otherwise the request ends with the list of all errors. -/
  listed : (∀ p, finalReport ts = some p → p.decision ≠ .ignore) →
    o = .error (.noHostAvailable ((reports ts).map Report.hostError))
  /-- The list is empty only if the plan gave no host. -/
  nothing : reports ts = [] ↔ given ts = []

-- ============================================================================
-- Every move keeps the account
-- ============================================================================

variable {s : Settings} {ts : List Transition} {m : Moment} {σ σ' : State} {event : Event}
  {deeds : List Deed} {r r' : Running} {e e' : Execution} {executions : List Execution}

theorem report?_execution {event : ExecutionEvent}
    (distinct : (r.executions.map Execution.index).Nodup) (mem : e ∈ r.executions) :
    Transition.report? ⟨m, .running r, .execution e.index event, σ', deeds⟩ =
      e.reported? event := by
  simp [Transition.report?, find?_of_mem distinct mem]

namespace Tally

theorem nothing (s : Settings) : Tally [] { shared := freshShared s } :=
  ⟨rfl, rfl, .refl _, .refl _, by simp⟩

/-- A step that reports nothing and starts no attempt. -/
theorem quiet (h : Tally ts r) {fresh : List Execution}
    (unreported : Transition.report? ⟨m, σ, event, σ', deeds⟩ = none)
    (starts : Deed.starts deeds = []) (failures : Deed.failures deeds = [])
    (claim : r'.shared.claim = r.shared.claim)
    (errors : r'.shared.hostErrors = r.shared.hostErrors)
    (executions : r'.executions = r.executions ++ fresh)
    (idle : ∀ e ∈ fresh, e.phase = .fresh) : Tally (ts ++ [⟨m, σ, event, σ', deeds⟩]) r' := by
  have htrying : fresh.filterMap Execution.trying? = [] :=
    List.filterMap_eq_nil_iff.mpr fun e he => by
      simp [Execution.trying?, Execution.attempt?, idle e he]
  have hreporting : fresh.filterMap Execution.reporting? = [] :=
    List.filterMap_eq_nil_iff.mpr fun e he => by
      simp [Execution.reporting?, Execution.reported?, idle e he]
  have hreports : reports (ts ++ [⟨m, σ, event, σ', deeds⟩]) = reports ts := by
    rw [reports_concat, unreported]
    exact List.append_nil _
  have hstarts : Deed.starts (log (ts ++ [⟨m, σ, event, σ', deeds⟩])) = Deed.starts (log ts) := by
    rw [log_concat, Deed.starts_append, starts, List.append_nil]
  have hfailures : Deed.failures (log (ts ++ [⟨m, σ, event, σ', deeds⟩])) =
      Deed.failures (log ts) := by
    rw [log_concat, Deed.failures_append, failures, List.append_nil]
  refine ⟨claim.trans h.claim, ?_, ?_, ?_, ?_⟩
  · rw [errors, hreports, h.errors]
  · rw [hstarts, hreports, executions, List.filterMap_append, htrying, List.append_nil]
    exact h.attempts
  · rw [hfailures, hreports, executions, List.filterMap_append, hreporting, List.append_nil]
    exact h.failures
  · rw [executions, hstarts]
    refine List.forall_mem_append.mpr ⟨h.latest, fun e he host hhost => ?_⟩
    simp [Execution.trying?, Execution.attempt?, idle e he] at hhost

/-- What an execution does is accounted for, with what is left of it afterwards. -/
theorem balance {α : Type} [DecidableEq α] {total settled own' gained done : List α}
    (f : Execution → Option α) (distinct : (executions.map Execution.index).Nodup)
    (mem : e ∈ executions) (h : total.Perm (settled ++ executions.filterMap f))
    (turn : ((f e).toList ++ gained).Perm (done ++ own')) :
    (total ++ gained).Perm
      (settled ++ done ++ (own' ++ (executions.filter (·.index ≠ e.index)).filterMap f)) := by
  have hothers : (executions.filterMap f).Perm
      ((f e).toList ++ (executions.filter (·.index ≠ e.index)).filterMap f) := by
    rw [← filterMap_cons_toList]
    exact (perm_others distinct mem).filterMap f
  exact perm_exchange (h.trans (hothers.append_left settled)) turn

/-- An execution goes on. -/
theorem advance {sh : Shared} {event : ExecutionEvent} {actions : List Action} (h : Tally ts r)
    (distinct : (r.executions.map Execution.index).Nodup) (mem : e ∈ r.executions)
    (index : e'.index = e.index) (claim : sh.claim = none)
    (tallied : e.Tallied r.shared sh event (.goesOn e') (actions.filterMap Action.notice?)) :
    Tally (ts ++ [⟨m, .running r, .execution e.index event, σ', Deed.ofExecution e.index actions⟩])
      { r with shared := sh, executions := r.replaced e.index e' } := by
  have hreport : Transition.report? ⟨m, .running r, .execution e.index event, σ',
      Deed.ofExecution e.index actions⟩ = e.reported? event :=
    report?_execution distinct mem
  have hreplaced {α : Type} (f : Execution → Option α) :
      ((f e').toList ++ (r.executions.filter (·.index ≠ e.index)).filterMap f).Perm
        ((r.replaced e.index e').filterMap f) := by
    rw [← filterMap_cons_toList]
    exact ((perm_replaced distinct mem).filterMap f).symm
  have hstarts : Deed.starts (log (ts ++ [⟨m, .running r, .execution e.index event, σ',
      Deed.ofExecution e.index actions⟩])) = Deed.starts (log ts) ++
        (actions.filterMap Action.notice?).filterMap Notification.start? := by
    rw [log_concat, Deed.starts_append, Deed.starts_ofExecution]
  refine ⟨claim, ?_, ?_, ?_, ?_⟩
  · rw [reports_concat, hreport, List.map_append, ← h.errors]
    exact tallied.errors
  · rw [hstarts, reports_concat, hreport, List.map_append]
    exact (balance _ distinct mem h.attempts tallied.attempts).trans
      (.append_left _ (hreplaced Execution.trying?))
  · rw [log_concat, Deed.failures_append, reports_concat, hreport, Deed.failures_ofExecution]
    exact (balance _ distinct mem h.failures tallied.failures).trans
      (.append_left _ (hreplaced Execution.reporting?))
  · rw [hstarts]
    -- either no attempt starts, or the execution's own one, which is then its latest
    have hlatest := tallied.latest e' rfl
    generalize (actions.filterMap Action.notice?).filterMap Notification.start? = tried at hlatest
    refine forall_mem_replaced ?_ fun o ho other host hhost => ?_
    · intro host hhost
      rcases hlatest with ⟨rfl, hsame⟩ | ⟨x, rfl, hown, hnew⟩
      · rw [List.append_nil, index]
        exact h.latest e mem host (hsame ▸ hhost)
      · rw [latestStart_concat, if_pos (hown.trans index.symm), ← hnew, hhost]
    · rcases hlatest with ⟨rfl, -⟩ | ⟨x, rfl, hown, -⟩
      · rw [List.append_nil]
        exact h.latest o ho host hhost
      · rw [latestStart_concat, if_neg (by rw [hown]; exact Ne.symm other)]
        exact h.latest o ho host hhost

/-- An execution finds no node any more. -/
theorem leave {event : ExecutionEvent} {sh : Shared} {actions : List Action} {more : List Deed}
    {lastIgnored : Option AttemptError} (h : Tally ts r)
    (distinct : (r.executions.map Execution.index).Nodup) (mem : e ∈ r.executions)
    (undecided : e.verdict? = none) (claim : sh.claim = none)
    (turn : e.Turn s r.deadline m r.shared event ⟨sh, .exhausted lastIgnored, actions⟩)
    (starts : Deed.starts more = []) (failures : Deed.failures more = []) :
    Tally (ts ++ [⟨m, .running r, .execution e.index event, σ',
        Deed.ofExecution e.index actions ++ more⟩])
      { r with shared := sh, executions := r.others e.index, timer := none, lastIgnored } := by
  have htallied := turn.tally h.claim undecided
  have hlast := starts_of_last turn (by simp)
  have hreport : Transition.report? ⟨m, .running r, .execution e.index event, σ',
      Deed.ofExecution e.index actions ++ more⟩ = e.reported? event :=
    report?_execution distinct mem
  have hattempts := balance _ distinct mem h.attempts htallied.attempts
  have hfailed := balance _ distinct mem h.failures htallied.failures
  rw [← Deed.starts_ofExecution, hlast, List.append_nil] at hattempts
  rw [← Deed.failures_ofExecution] at hfailed
  have hstarts : Deed.starts (log (ts ++ [⟨m, .running r, .execution e.index event, σ',
      Deed.ofExecution e.index actions ++ more⟩])) = Deed.starts (log ts) := by
    rw [log_concat, Deed.starts_append, Deed.starts_append, hlast, starts, List.append_nil,
      List.append_nil]
  refine ⟨claim, ?_, ?_, ?_, ?_⟩
  · rw [reports_concat, hreport, List.map_append, ← h.errors]
    exact htallied.errors
  · rw [hstarts, reports_concat, hreport, List.map_append]
    exact hattempts
  · rw [log_concat, Deed.failures_append, Deed.failures_append, failures, List.append_nil,
      reports_concat, hreport]
    exact hfailed
  · rw [hstarts]
    exact fun o ho => h.latest o (List.mem_filter.mp ho).1

/-- A request ends once its last execution has found no node any more. -/
theorem runsOut {p : Report} (h : Tally ts r) (nobody : r.executions = [])
    (final : finalReport ts = some p)
    (latest : latestStart p.host.execution (Deed.starts (log ts)) = some p.host)
    (ignored : r.lastIgnored = if p.decision = .ignore then some p.error else none)
    (used : given ts ≠ []) : RanOut ts (exhaustion r) := by
  have hsome : reports ts ≠ [] := by
    intro none
    simp [finalReport, none] at final
  have hattempts := h.attempts
  have hfailures := h.failures
  rw [nobody, List.filterMap_nil, List.append_nil] at hattempts hfailures
  refine ⟨hattempts.symm, hfailures.symm, fun _ => ⟨p, final, latest⟩, ?_, ?_, ?_⟩
  · intro q hq hignore
    obtain rfl := Option.some.inj (final.symm.trans hq)
    rw [exhaustion, ignored, if_pos hignore]
  · intro other
    rw [exhaustion, ignored, if_neg (other p final), h.errors]
  · exact ⟨fun none => absurd none hsome, fun none => absurd none used⟩

end Tally

/-- The execution that is the last one to find no node any more reported its latest attempt. -/
theorem finalReport_exhausted {event : ExecutionEvent} {sh : Shared} {actions : List Action}
    {more : List Deed} {lastIgnored : Option AttemptError} (h : Tally ts r)
    (distinct : (r.executions.map Execution.index).Nodup) (mem : e ∈ r.executions)
    (turn : e.Turn s r.deadline m r.shared event ⟨sh, .exhausted lastIgnored, actions⟩)
    (starts : Deed.starts more = []) (finished : Deed.finished more = []) :
    ∃ p, finalReport (ts ++ [⟨m, .running r, .execution e.index event, σ',
        Deed.ofExecution e.index actions ++ more⟩]) = some p ∧
      latestStart p.host.execution (Deed.starts (log (ts ++ [⟨m, .running r,
        .execution e.index event, σ', Deed.ofExecution e.index actions ++ more⟩]))) =
          some p.host ∧
        lastIgnored = if p.decision = .ignore then some p.error else none := by
  obtain ⟨p, before, hreported, htrying, howner, hactions, hignored⟩ := turn.givesUp
  -- its report is the latest one, as it is over in this very turn
  have hlast := starts_of_last turn (by simp)
  refine ⟨p, ?_, ?_, hignored⟩
  · rw [finalReport, log_concat, ← List.append_assoc, Deed.finished_append, finished,
      List.append_nil, hactions, Deed.getLast?_finished, Option.bind_some, reports_concat,
      report?_execution distinct mem, hreported]
    simp [howner]
  · rw [log_concat, Deed.starts_append, Deed.starts_append, hlast, starts, List.append_nil,
      List.append_nil, howner]
    exact h.latest e mem _ htrying

/-- A request goes on as it is, or ends as one that has run out of nodes. -/
theorem GoesOn.target {more : List Deed} (h : GoesOn r σ more) :
    (σ = .running r ∧ (r.executions ≠ [] ∨ r.timer ≠ none)) ∨
      (σ = .concluding (exhaustion r) ∧ r.executions = []) := by
  cases h with
  | still left => exact .inl ⟨rfl, left⟩
  | ended nobody =>
    rw [exhaust_eq]
    exact .inr ⟨rfl, nobody⟩

/-- A request that goes on or ends reports no attempt. -/
theorem GoesOn.reports_nothing {more : List Deed} (h : GoesOn r σ more) :
    Deed.failures more = [] ∧ Deed.finished more = [] := by
  cases h with
  | still => exact ⟨rfl, rfl⟩
  | ended =>
    rw [exhaust_eq]
    refine ⟨Deed.failures_ofRequest ?_, Deed.finished_ofRequest⟩
    exact List.forall_mem_cons.mpr ⟨rfl, List.forall_mem_singleton.mpr (by simp)⟩

/-- The plan of a request had no node at all. -/
theorem RanOut.without {consulted : List Action}
    (general : ∀ a ∈ consulted ++
      [.claim .exhaustion true, .notify (.requestFailed (.noHostAvailable []))],
      a.isGeneral = true) :
    RanOut [⟨m, .starting, .told, .concluding (.error (.noHostAvailable [])),
      Deed.ofRequest (consulted ++
        [.claim .exhaustion true, .notify (.requestFailed (.noHostAvailable []))])⟩]
      (.error (.noHostAvailable [])) := by
  generalize ht : Transition.mk m .starting .told (.concluding (.error (.noHostAvailable [])))
    (Deed.ofRequest (consulted ++
      [.claim .exhaustion true, .notify (.requestFailed (.noHostAvailable []))])) = t
  have hlog : log [t] = [⟨none, .notify .requestStarted⟩] ++ t.deeds := log_concat [] t
  have hreports : reports [t] = [] := by
    rw [← ht]
    rfl
  have hstarts : Deed.starts (log [t]) = [] := by
    rw [hlog, Deed.starts_append, ← ht, Deed.starts_ofRequest general]
    rfl
  have hfailures : Deed.failures (log [t]) = [] := by
    rw [hlog, Deed.failures_append, ← ht, Deed.failures_ofRequest general]
    rfl
  have hfinished : finalReport [t] = none := by
    rw [finalReport, hreports]
    cases (Deed.finished (log [t])).getLast? <;> rfl
  have hgiven : given [t] = [] := by
    rw [← ht]
    rfl
  refine ⟨?_, ?_, fun some => absurd hreports some, ?_, fun _ => ?_, by simp [hreports, hgiven]⟩
  · rw [hreports, hstarts]
    exact .refl _
  · rw [hreports, hfailures]
  · simp [hfinished]
  · rw [hreports]
    rfl

/-- A request that has ended stays as it is. -/
theorem RanOut.reported {o : Outcome} (h : RanOut ts o) :
    RanOut (ts ++ [⟨m, .concluding o, event, .finished o, []⟩]) o := by
  generalize ht : Transition.mk m (.concluding o) event (.finished o) [] = t
  have hlog : log (ts ++ [t]) = log ts := by
    rw [log_concat, ← ht]
    exact List.append_nil _
  have hreports : reports (ts ++ [t]) = reports ts := by
    rw [reports_concat, ← ht]
    exact List.append_nil _
  have hgiven : given (ts ++ [t]) = given ts := by
    rw [given_concat, ← ht]
    rfl
  have hfinal : finalReport (ts ++ [t]) = finalReport ts := by
    rw [finalReport, hlog, hreports, finalReport]
  refine ⟨?_, ?_, ?_, ?_, ?_, ?_⟩
  · rw [hreports, hlog]
    exact h.attempts
  · rw [hreports, hlog]
    exact h.failures
  · rw [hreports, hfinal, hlog]
    exact h.latest
  · rw [hfinal]
    exact h.ignored
  · rw [hfinal, hreports]
    exact h.listed
  · rw [hreports, hgiven]
    exact h.nothing

-- ============================================================================
-- A whole run
-- ============================================================================

theorem NoNode.hostErrors {sh rest : Shared} {consulted : List Action}
    (h : NoNode m sh rest consulted) : rest.hostErrors = sh.hostErrors := by
  cases h with
  | taken => rfl
  | planEmpty _ take => exact Execution.nextNode_hostErrors take

/-- An execution is at a host that the plan gave. -/
theorem Run.given_ne_nil (h : Run s ts (.running r)) (mem : e ∈ r.executions) :
    given ts ≠ [] := by
  obtain ⟨grants, hgrants, -, htour⟩ := h.tour
  rw [← hgrants]
  exact List.ne_nil_of_mem (List.mem_map_of_mem (htour.placed e mem))

/-- What holds of a request that nobody resolves. -/
def Account (ts : List Transition) : State → Prop
  | .starting => ts = []
  | .running r => r.executions ≠ [] ∧ Tally ts r
  | .concluding o | .finished o => RanOut ts o
  | .dropped => True

/-- As long as a request is open, no execution has anything to resolve it with. -/
theorem Run.undecided (run : Run s ts (.running r)) (mem : e ∈ r.executions)
    (free : r.shared.claim = none) : e.verdict? = none := by
  cases hverdict : e.verdict? with
  | none => rfl
  | some verdict =>
    have hclaim := (run.standing.held e mem _ _ hverdict).1
    rw [free] at hclaim
    cases hclaim

/-- An execution whose turn leaves everything open has neither a result nor an error to stand. -/
theorem LeftOpen.turn {sh sh' : Shared} {deadline : Option Instant} {event : ExecutionEvent}
    {progress : Progress} {actions : List Action}
    (h : LeftOpen (Deed.ofExecution e.index actions))
    (turn : e.Turn s deadline m sh event ⟨sh', progress, actions⟩) (free : sh.claim = none)
    (undecided : e.verdict? = none) :
    sh'.claim = none ∧ progress ≠ .cancelled ∧ ∀ o, progress ≠ .resolved o :=
  Execution.Turn.leftOpen turn free undecided (Deed.seen_ofExecution ▸ h.noSuccess)
    (Deed.seen_ofExecution ▸ h.noRethrow)

namespace Account

variable {actions consulted : List Action} {more : List Deed} {sh : Shared}

/-- Another execution is opened. -/
theorem opens {found : Option Node} {live : Liveness} {node : Node} {level : Level} {index : Nat}
    (tally : Tally ts r) (take : r.shared.nextNode live = (found, r'.shared, consulted))
    (general : ∀ a ∈ actions, a.isGeneral = true)
    (unreported : Transition.report? ⟨m, σ, event, σ', Deed.ofRequest actions⟩ = none)
    (executions : r'.executions = r.executions ++ [Execution.new index node level]) :
    Account (ts ++ [⟨m, σ, event, σ', Deed.ofRequest actions⟩]) (.running r') := by
  refine ⟨by simp [executions], tally.quiet unreported (Deed.starts_ofRequest general)
    (Deed.failures_ofRequest general) (Execution.nextNode_claim take)
    (Execution.nextNode_hostErrors take) executions ?_⟩
  exact List.forall_mem_singleton.mpr rfl

/-- An execution goes on, without anything to resolve the request with. -/
theorem advances {event : ExecutionEvent} (account : Account ts (.running r))
    (run : Run s ts (.running r)) (mem : e ∈ r.executions)
    (turn : e.Turn s r.deadline m r.shared event ⟨sh, .goesOn e', actions⟩)
    (leftOpen : LeftOpen (Deed.ofExecution e.index actions)) :
    Account (ts ++ [⟨m, .running r, .execution e.index event, σ',
        Deed.ofExecution e.index actions⟩])
      (.running { r with shared := sh, executions := r.replaced e.index e' }) := by
  obtain ⟨hrunning, htally⟩ := account
  have hundecided := run.undecided mem htally.claim
  obtain ⟨hclaim, -⟩ := leftOpen.turn turn htally.claim hundecided
  refine ⟨?_, htally.advance run.distinct mem turn.index hclaim
    (turn.tally htally.claim hundecided)⟩
  simpa [Running.replaced] using hrunning

/-- An execution finds no node any more; if it is the last one, its error counts. -/
theorem exhausts {event : ExecutionEvent} {lastIgnored : Option AttemptError}
    (account : Account ts (.running r)) (run : Run s ts (.running r)) (mem : e ∈ r.executions)
    (turn : e.Turn s r.deadline m r.shared event ⟨sh, .exhausted lastIgnored, actions⟩)
    (goes : GoesOn { r with
      shared := sh, executions := r.others e.index, timer := none, lastIgnored } σ more)
    (leftOpen : LeftOpen (Deed.ofExecution e.index actions)) :
    Account (ts ++ [⟨m, .running r, .execution e.index event, σ,
      Deed.ofExecution e.index actions ++ more⟩]) σ := by
  have htally := account.2
  have hundecided := run.undecided mem htally.claim
  obtain ⟨hclaim, -⟩ := leftOpen.turn turn htally.claim hundecided
  obtain ⟨hstarts, -⟩ := goes.idle
  obtain ⟨hfailures, hfinished⟩ := goes.reports_nothing
  have hleft : Tally (ts ++ [⟨m, .running r, .execution e.index event, σ,
      Deed.ofExecution e.index actions ++ more⟩]) _ :=
    htally.leave run.distinct mem hundecided hclaim turn hstarts hfailures
  rcases goes.target with ⟨rfl, left⟩ | ⟨rfl, nobody⟩
  · exact ⟨left.resolve_right fun set => set rfl, hleft⟩
  · obtain ⟨p, hfinal, hlatest, hignored⟩ :=
      finalReport_exhausted htally run.distinct mem turn hstarts hfinished
    refine hleft.runsOut nobody hfinal hlatest hignored ?_
    rw [given_concat]
    exact run.given_ne_nil mem

/-- No node is found for a speculative execution; as there are others, the request goes on. -/
theorem findsNoNode (account : Account ts (.running r)) (noNode : NoNode m r.shared sh consulted)
    (goes : GoesOn { r with shared := sh, timer := none } σ more)
    (general : ∀ a ∈ actions, a.isGeneral = true) :
    Account (ts ++ [⟨m, .running r, .speculate, σ, Deed.ofRequest actions ++ more⟩]) σ := by
  obtain ⟨hrunning, htally⟩ := account
  obtain ⟨hstarts, -⟩ := goes.idle
  obtain ⟨hfailures, -⟩ := goes.reports_nothing
  rcases goes.target with ⟨rfl, -⟩ | ⟨-, nobody⟩
  · refine ⟨hrunning, htally.quiet rfl ?_ ?_ noNode.claim noNode.hostErrors
      (List.append_nil _).symm (by simp)⟩
    · rw [Deed.starts_append, Deed.starts_ofRequest general, hstarts, List.append_nil]
    · rw [Deed.failures_append, Deed.failures_ofRequest general, hfailures, List.append_nil]
  · exact absurd nobody hrunning

end Account

/-- Every step keeps the account of a request that is left open. -/
theorem Run.account (h : Run s ts σ) (leftOpen : LeftOpen (log ts)) : Account ts σ := by
  refine h.invariant (fun ts σ => LeftOpen (log ts) → Account ts σ) (fun _ => rfl) ?_ leftOpen
  intro ts m σ event σ' deeds run ih move leftOpen
  rw [log_concat] at leftOpen
  obtain ⟨hbefore, hnow⟩ := leftOpen.of_append
  have account := ih hbefore
  have general := move.general
  cases move with
  | begins take armed =>
    cases account
    exact .opens (Tally.nothing s) take general.actions rfl rfl
  | findsNothing take =>
    cases account
    exact .without general.actions
  | forgoes | drops | forsakes => trivial
  | finishes => exact RanOut.reported account
  | timesOut => exact absurd (by simp [Action.winner?]) hnow.noTimeout
  | timesOutLate _ _ _ _ taken => exact absurd account.2.claim taken
  | advances mem turn => exact .advances account run mem turn hnow
  | settles mem turn =>
    obtain ⟨-, -, hresolved⟩ :=
      hnow.of_append.1.turn turn account.2.claim (run.undecided mem account.2.claim)
    exact absurd rfl (hresolved _)
  | cancels mem turn =>
    obtain ⟨-, hcancelled, -⟩ :=
      hnow.of_append.1.turn turn account.2.claim (run.undecided mem account.2.claim)
    exact absurd rfl hcancelled
  | exhausts mem turn goes => exact .exhausts account run mem turn goes hnow.of_append.1
  | speculates set due free take counted armed =>
    exact .opens account.2 take general.actions rfl rfl
  | speculatesInVain set due noNode goes =>
    exact .findsNoNode account noNode goes general.of_append.1.actions

/-- A request that nobody resolves ends with the error of the last attempt, if it was to be
    ignored, or with the errors of all attempts. -/
theorem Run.ranOut {o : Outcome} (h : Run s ts σ) (leftOpen : LeftOpen (log ts))
    (outcome : σ.outcome? = some o) : RanOut ts o := by
  have haccount := h.account leftOpen
  cases σ with
  | concluding o' | finished o' =>
    cases outcome
    exact haccount
  | starting | running | dropped => cases outcome

/-- A retry policy that lets disabled nodes be, and otherwise tries the next node. -/
def lenientPolicy : RetryPolicy :=
  ⟨"Lenient", fun a => if a.error = .pool .nodeDisabled then .ignore else .retryNext none,
    fun _ => none, false⟩

/-- A statement under this policy that starts a second execution at once, on a cluster of two
    nodes. -/
def lenientSettings : Settings :=
  .resolve { contents := "SELECT now() FROM system.local", idempotent := true
             retry := some lenientPolicy, speculation := some (.simple 1 ⟨0⟩) }
    default {} ⟨[default, otherNode]⟩

/-- Two executions that get no connection; the one that fails first is the last to know. -/
def lenientEvents : List (Moment × Event) :=
  [.told, .speculate, .execution 0 .begin, .execution 1 .begin, .execution 0 .told,
    .execution 1 .told, .execution 0 (.connection (.error .nodeDisabled)),
    .execution 1 (.connection (.error .initializing)), .execution 1 .told, .execution 0 .told,
    .told].map (default, ·)

/-- The steps of this run. -/
def lenientSteps : List Transition :=
  ((replay lenientSettings [] .starting lenientEvents).map Prod.fst).getD []

/-- What it ends with. -/
def lenientOutcome : Outcome :=
  .error (.lastAttempt (.pool .nodeDisabled))

theorem lenientRun : Run lenientSettings lenientSteps (.finished lenientOutcome) :=
  Run.start.replay lenientEvents rfl

/-- The error of the execution that finishes last is the one that counts. -/
theorem Run.ranOut_of_lenient :
    LeftOpen (log lenientSteps) ∧
      (State.finished lenientOutcome).outcome? = some lenientOutcome ∧
        RanOut lenientSteps lenientOutcome ∧
          (reports lenientSteps).map Report.error = [.pool .initializing, .pool .nodeDisabled] := by
  have leftOpen : LeftOpen (log lenientSteps) :=
    ⟨by decide +kernel, by decide +kernel, by decide +kernel⟩
  exact ⟨leftOpen, rfl, Run.ranOut lenientRun leftOpen rfl, by decide +kernel⟩

end Request

end RequestEngine
