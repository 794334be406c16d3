/-
  RequestEngine.Proofs.Request.Resending

  What an execution sends again.  Once the retry policy gives an error to the
  caller, no other attempt of the execution starts, so whatever is sent again was
  decided about.  For a write that timed out this decision goes by the wire text
  that names its kind.

    * `StartsUnsettled`  — attempts start while no error is the caller's;
    * `Unsettled`        — the same as a law of one execution;
    * `ResentByText`     — what this comes to for writes that timed out;
    * `WriteKindsByText` — wire texts as a whole: read and written, weighed by the
      provided policies, and heeded in every run.
-/
import RequestEngine.Proofs.Request.Hosts
import RequestEngine.Proofs.Request.Levels
import RequestEngine.Proofs.Retry.WriteTimeout

namespace RequestEngine

-- ============================================================================
-- Starts and errors that stand
-- ============================================================================

/-- Whether an action tells the observers that an attempt starts. -/
def Action.isStart : Action → Bool
  | .notify (.nodeStarted _) => true
  | _ => false

theorem Action.isStart_of_isInner {a : Action} (inner : a.isInner = true) : a.isStart = false := by
  cases a <;> first | rfl | cases inner

theorem Action.exists_of_isStart {a : Action} (start : a.isStart = true) :
    ∃ h, a = .notify (.nodeStarted h) := by
  cases a with
  | notify n =>
    cases n with
    | nodeStarted h => exact ⟨h, rfl⟩
    | _ => cases start
  | _ => cases start

/-- An attempt starts only if no decision before it gave an error to the caller. -/
def StartsUnsettled (before : List Action) (a : Action) : Prop :=
  a.isStart = true → .rethrow ∉ decisionsOf before

theorem StartsUnsettled.all_of_startless {done actions : List Action}
    (startless : ∀ a ∈ actions, a.isStart = false) :
    EachAfter (fun before => StartsUnsettled (done ++ before)) actions :=
  .of_forall fun _ a ha start => absurd start (Bool.eq_false_iff.mp (startless a ha))

namespace Execution

/-- An error of the execution is the caller's, and the observers are being told of it. -/
def IsSettled (e : Execution) : Prop :=
  ∃ a error, e.phase = .reportingFailure a error .rethrow

variable {s : Settings} {deadline : Option Instant} {m : Moment} {sh sh' : Shared}
  {e e' : Execution} {event : ExecutionEvent} {lead back actions : List Action} {a : Attempt}
  {error : AttemptError}

theorem not_isSettled_of_phase {phase : Phase} (own : e.phase = phase)
    (other : ∀ a error, phase ≠ .reportingFailure a error .rethrow) : ¬ e.IsSettled := by
  rintro ⟨a, error, hsettled⟩
  exact other a error (own.symm.trans hsettled)

theorem Onward.not_isSettled (h : Onward s m sh e event sh' e' lead) : ¬ e.IsSettled := by
  cases h with
  | fresh phase | same phase => exact not_isSettled_of_phase phase (by simp)
  | next phase moves =>
    refine not_isSettled_of_phase phase ?_
    rintro _ _ ⟨⟩
    cases moves

theorem Fails.not_isSettled (h : Fails s deadline m e event a error back) : ¬ e.IsSettled := by
  cases h with
  | refused phase | broken phase | database phase | unexpected phase | expired phase =>
    exact not_isSettled_of_phase phase (by simp)

/-- An execution that ends starts no attempt. -/
theorem Turn.startless_of_last {progress : Progress}
    (turn : e.Turn s deadline m sh event ⟨sh', progress, actions⟩)
    (last : ∀ e', progress ≠ .goesOn e') : ∀ x ∈ actions, x.isStart = false := by
  have hnone := Request.starts_of_last turn last
  rw [Deed.starts_ofExecution] at hnone
  intro x hx
  cases hstart : x.isStart with
  | false => rfl
  | true =>
    obtain ⟨h, rfl⟩ := Action.exists_of_isStart hstart
    have hmem : h ∈ (actions.filterMap Action.notice?).filterMap Notification.start? :=
      List.mem_filterMap.mpr ⟨_, List.mem_filterMap.mpr ⟨_, hx, rfl⟩, rfl⟩
    rw [hnone] at hmem
    cases hmem

end Execution

-- ============================================================================
-- The law
-- ============================================================================

namespace Request

/-- An execution starts attempts only while no error is the caller's, and as long as none is being
    reported as such, there is none. -/
structure Unsettled (done : List Action) (e : Execution) : Prop where
  trace : EachAfter StartsUnsettled done
  standing : ¬ e.IsSettled → .rethrow ∉ decisionsOf done

namespace Unsettled

variable {s : Settings} {deadline : Option Instant} {m : Moment} {sh sh' : Shared}
  {e e' : Execution} {event : ExecutionEvent} {done actions : List Action}

/-- What is neither a decision nor the start of an attempt changes nothing. -/
theorem quietly (h : Unsettled done e) (before : ¬ e.IsSettled)
    (startless : ∀ a ∈ actions, a.isStart = false) (undecided : decisionsOf actions = []) :
    Unsettled (done ++ actions) e' := by
  refine ⟨h.trace.append (.all_of_startless startless), fun _ => ?_⟩
  rw [decisionsOf_append, undecided, List.append_nil]
  exact h.standing before

/-- An attempt fails, and the policy decides. -/
theorem failing {a : Attempt} {error : AttemptError} {d : Decision} {back rest : List Action}
    (h : Unsettled done e) (fails : e.Fails s deadline m event a error back)
    (decision : s.retry.decide (Execution.failed s a error) = d)
    (startless : ∀ x ∈ rest, x.isStart = false) (undecided : decisionsOf rest = []) :
    Unsettled (done ++ (back ++ (e.assess s m a error ++ rest)))
      { e with phase := .reportingFailure a error d } := by
  have hinner {actions : List Action} (inner : ∀ x ∈ actions, x.isInner = true) :
      ∀ x ∈ actions, x.isStart = false := fun x hx => Action.isStart_of_isInner (inner x hx)
  constructor
  · refine h.trace.append (.all_of_startless ?_)
    exact List.forall_mem_append.mpr ⟨hinner fails.inner,
      List.forall_mem_append.mpr ⟨hinner (Execution.assess_inner a error), startless⟩⟩
  · intro hstanding
    have hagain : d ≠ .rethrow := by
      rintro rfl
      exact hstanding ⟨a, error, rfl⟩
    simp only [decisionsOf_append, decisionsOf_bare fails.bare, e.decisionsOf_assess, undecided,
      decision, List.nil_append, List.append_nil, List.mem_append, List.mem_singleton, not_or]
    exact ⟨h.standing fails.not_isSettled, hagain.symm⟩

theorem goesOn (h : Unsettled done e)
    (turn : e.Turn s deadline m sh event ⟨sh', .goesOn e', actions⟩) :
    Unsettled (done ++ actions) e' := by
  cases turn with
  | @starts _ _ e₁ lead onward =>
    have hquiet : ∀ a ∈ lead, a.isStart = false := fun a ha =>
      Action.isStart_of_isInner (Action.isInner_of_isQuiet (onward.quiet a ha))
    -- all that leads to the start is no decision, so no error is the caller's when it comes
    have hled {r : Remark} : Unsettled (done ++ (lead ++ [.remark r])) e :=
      h.quietly onward.not_isSettled (List.forall_mem_append.mpr ⟨hquiet, by simp [Action.isStart]⟩)
        (decisionsOf_bare (List.forall_mem_append.mpr ⟨onward.bare, by simp [Action.isBare]⟩))
    have hstart : decisionsOf [.notify (.nodeStarted (e₁.host (e₁.nextAttempt m.now)))] = [] := rfl
    rw [List.append_cons, ← List.append_assoc]
    refine ⟨hled.trace.concat fun _ => hled.standing onward.not_isSettled, fun _ => ?_⟩
    rw [decisionsOf_append, hstart, List.append_nil]
    exact hled.standing onward.not_isSettled
  | asks phase | sends phase | succeeds phase =>
    refine h.quietly (Execution.not_isSettled_of_phase phase (by simp)) ?_ rfl
    simp [Action.isStart]
  | rethrows fails decision | fails fails decision =>
    exact h.failing fails decision (by simp [Action.isStart]) rfl

end Unsettled

/-- The law that an execution starts no attempt once an error is the caller's. -/
def Law.unsettled (s : Settings) : Law s where
  live _ := Unsettled
  ended _ _ := EachAfter StartsUnsettled
  new _ _ := ⟨.nil, fun _ => List.not_mem_nil⟩
  goesOn := Unsettled.goesOn
  ends h turn last := h.trace.append (.all_of_startless (turn.startless_of_last last))
  dropped h := h.trace.append
    (.all_of_startless fun a ha => Action.isStart_of_isInner (Execution.abandon_inner _ a ha))

variable {s : Settings} {ts : List Transition} {σ : State}

/-- Once an error is the caller's, its execution starts no attempt. -/
theorem Run.unsettled (h : Run s ts σ) (index : Nat) :
    EachAfter StartsUnsettled (Deed.actionsOf index (log ts)) :=
  (Law.unsettled s).eachAfter h (fun holds => holds.trace) id index

-- ============================================================================
-- Writes that timed out
-- ============================================================================

/-- Another attempt starts after a write timed out only if the write is repeatable and its text is
    one by which the policy sends writes again. -/
def ResentByText (policy : RetryPolicy) (actions : List Action) : Prop :=
  EachAfter (fun before a => a.isStart = true → ∀ (t : LateWrite) (text : String)
    (remark : Option String) (d : Decision), .decide (t.failed (.ofWire text)) remark d ∈ before →
      t.IsRepeatable ∧ (text = "BATCH_LOG" ∨
        text = "UNLOGGED_BATCH" ∧ policy.decide = RetryPolicy.downgrading.decide)) actions

theorem Run.resentByText (h : Run s ts σ) (provided : s.retry.IsProvided) (index : Nat) :
    ResentByText s.retry (Deed.actionsOf index (log ts)) := by
  intro before a after hactions start t text remark d hasked
  have hagain : d ≠ .rethrow := by
    rintro rfl
    refine h.unsettled index before a after hactions start ?_
    exact List.mem_filterMap.mpr ⟨_, hasked, rfl⟩
  obtain ⟨earlier, later, rfl⟩ := List.append_of_mem hasked
  have hforce := h.inForce index earlier _ (later ++ a :: after)
    (by rw [hactions, List.append_assoc, List.cons_append])
  rw [(hforce.decided _ _ _ rfl).2] at hagain
  exact provided.text_of_resent hagain

/-- What the wire texts of write kinds are good for. -/
structure WriteKindsByText : Prop where
  /-- Every text survives being read and written. -/
  written : ∀ s, (WriteType.ofWire s).wire = s
  /-- Distinct texts name distinct kinds. -/
  distinct : ∀ s s', WriteType.ofWire s = WriteType.ofWire s' → s = s'
  /-- A kind survives being written and read, unless it keeps a known name as an unknown text. -/
  reread : ∀ w : WriteType, WriteType.ofWire w.wire = w ↔
    ¬ ∃ name ∈ WriteType.names, w = .other name
  /-- Neither case nor blanks around a text are looked past. -/
  resembling : ∀ s name, WriteType.Resembles s name → s ≠ name → WriteType.ofWire s = .other s
  /-- The standard policy knows one kind by its text. -/
  standard : RetryPolicy.standard.GoesByText [("BATCH_LOG", .batchLog)]
  /-- The downgrading policy knows two. -/
  downgrading : RetryPolicy.downgrading.GoesByText
    [("BATCH_LOG", .batchLog), ("UNLOGGED_BATCH", .unloggedBatch)]
  /-- The policy that never retries knows none. -/
  giveUp : RetryPolicy.giveUp.GoesByText []
  /-- What these policies decide is what every execution of every run does. -/
  resent : ∀ {s : Settings} {ts : List Transition} {σ : State}, Run s ts σ →
    s.retry.IsProvided → ∀ index, ResentByText s.retry (Deed.actionsOf index (log ts))

/-- A wire text and the kind of write that it names say the same, to the letter, and a write that
    timed out is sent again by this text. -/
theorem writeKinds_byText : WriteKindsByText where
  written := WriteType.wire_ofWire
  distinct _ _ same := WriteType.ofWire_injective same
  reread := WriteType.ofWire_wire_iff
  resembling _ _ := WriteType.ofWire_of_resembles
  standard := RetryPolicy.standard_goesByText
  downgrading := RetryPolicy.downgrading_goesByText
  giveUp := RetryPolicy.giveUp_goesByText
  resent := Run.resentByText

/-- An attempt to execute a statement that may run twice, on a cluster of one node, fails because
    a write of the kind that a text names timed out; the observers are told. -/
def lateRun (text : String) : Option (List Transition × State) :=
  replay (.resolve { contents := "BEGIN BATCH", idempotent := true } default {} ⟨[default]⟩) []
    .starting [(default, .told), (default, .execution 0 .begin), (default, .execution 0 .told),
      (default, .execution 0 (.connection (.ok ⟨1, default⟩))),
      (default, .execution 0
        (.answer (.ok (.error ⟨.writeTimeout .localQuorum 1 2 (.ofWire text), ""⟩)))),
      (default, .execution 0 .told)]

/-- The number of attempts that start in this run. -/
def lateStarts (text : String) : Option Nat :=
  (lateRun text).map fun run => (Deed.actionsOf 0 (log run.1)).countP Action.isStart

example : ["BATCH_LOG", "batch_log", "BATCH_LOG ", "UNLOGGED_BATCH"].map lateStarts =
    [some 2, some 1, some 1, some 1] := by decide +kernel

end Request

end RequestEngine
