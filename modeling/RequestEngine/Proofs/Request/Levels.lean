/-
  RequestEngine.Proofs.Request.Levels

  The level of every attempt.  Each execution threads a level of its own: it
  begins with the level of the request, and each decision of the retry policy
  that carries a level replaces it for the attempts after it, wherever these are
  made.

    * `Level.under`    — the level in force after some decisions;
    * `InForce`        — an action shows the level and the number that follow from
      the decisions before it;
    * `Threaded`       — the same as a law of one execution;
    * `ThreadedLevels` — what this comes to for a whole run, and for the provided
      policies, which change the level at most once.
-/
import Mathlib.Data.List.Induction
import RequestEngine.Proofs.Request.Chronicle
import RequestEngine.Proofs.Request.Plans
import RequestEngine.Proofs.Retry.Lowering

namespace RequestEngine

-- ============================================================================
-- Levels and decisions
-- ============================================================================

/-- The level in force after some decisions: that of the latest of them that carries one, or else
    the level to begin with. -/
def Level.under (level : Level) (decisions : List Decision) : Level :=
  (decisions.filterMap Decision.level?).getLast?.getD level

namespace Level

variable {level : Level} {decisions later : List Decision}

@[simp] theorem under_nil : level.under [] = level := rfl

theorem under_concat (decisions : List Decision) (d : Decision) :
    level.under (decisions ++ [d]) = d.level?.getD (level.under decisions) := by
  cases h : d.level? <;> simp [under, h]

/-- Decisions that carry no level leave the one in force as it is. -/
theorem under_append (carryNone : ∀ d ∈ later, d.level? = none) :
    level.under (decisions ++ later) = level.under decisions := by
  rw [under, List.filterMap_append, List.filterMap_eq_nil_iff.mpr carryNone, List.append_nil,
    under]

end Level

namespace Action

/-- The level of the attempt under way: it goes out with the request, and is shown to the retry
    policy. -/
def level? : Action → Option Level
  | .send _ _ level _ => some level
  | .decide a _ _ => some a.level
  | _ => none

/-- The number of the attempt under way: it is told to the observers and shown to the retry
    policy. -/
def number? : Action → Option Nat
  | .notify (.nodeStarted h) => some h.attempt
  | .decide a _ _ => some a.number
  | _ => none

/-- Actions that show neither the level nor the number of an attempt. -/
def isBare : Action → Bool
  | .notify (.nodeStarted _) | .send .. | .decide .. => false
  | _ => true

theorem bare_shows_nothing {a : Action} (bare : a.isBare = true) :
    a.level? = none ∧ a.number? = none ∧ a.decision? = none := by
  cases a with
  | notify n => cases n <;> first | exact ⟨rfl, rfl, rfl⟩ | cases bare
  | _ => first | exact ⟨rfl, rfl, rfl⟩ | cases bare

/-- What a request does as a whole is about no level. -/
theorem level?_of_isGeneral {a : Action} (h : a.isGeneral = true) : a.level? = none := by
  cases a <;> first | rfl | cases h

end Action

/-- The decisions among some actions, in order. -/
def decisionsOf (actions : List Action) : List Decision :=
  actions.filterMap Action.decision?

@[simp] theorem decisionsOf_append (actions more : List Action) :
    decisionsOf (actions ++ more) = decisionsOf actions ++ decisionsOf more :=
  List.filterMap_append

theorem decisionsOf_bare {actions : List Action} (bare : ∀ a ∈ actions, a.isBare = true) :
    decisionsOf actions = [] := by
  exact List.filterMap_eq_nil_iff.mpr fun a ha => (Action.bare_shows_nothing (bare a ha)).2.2

/-- The number of the attempt that is under way, or that comes next, after some actions. -/
def attemptAfter (actions : List Action) : Nat :=
  (decisionsOf actions).length + 1

/-- An action agrees with the decisions before it, one on each earlier attempt: it shows the level
    in force and the number that follows, and what is sent belongs to the attempt with this
    number. -/
structure InForce (s : Settings) (before : List Action) (a : Action) : Prop where
  level : ∀ level, a.level? = some level → level = s.routing.level.under (decisionsOf before)
  number : ∀ n, a.number? = some n → n = attemptAfter before
  sent : ∀ node c level serial, a = .send node c level serial → serial = s.routing.serial ∧
    ∃ h, .notify (.nodeStarted h) ∈ before ∧ h.node = node ∧ h.attempt = attemptAfter before
  decided : ∀ failed remark d, a = .decide failed remark d →
    failed.idempotent = s.routing.idempotent ∧ d = s.retry.decide failed

namespace InForce

variable {s : Settings} {before done actions : List Action} {a : Action}

theorem of_isBare (bare : a.isBare = true) : InForce s before a := by
  obtain ⟨hlevel, hnumber, -⟩ := Action.bare_shows_nothing bare
  refine ⟨?_, ?_, ?_, ?_⟩
  · simp [hlevel]
  · simp [hnumber]
  · intro _ _ _ _ h
    simp [h, Action.isBare] at bare
  · intro _ _ _ h
    simp [h, Action.isBare] at bare

theorem all_of_bare (bare : ∀ a ∈ actions, a.isBare = true) :
    EachAfter (fun before => InForce s (done ++ before)) actions :=
  .of_forall fun _ a ha => .of_isBare (bare a ha)

/-- The next attempt starts with the number that follows. -/
theorem starting {node : Node} {number : Nat} {level : Level} {h : HostInfo}
    (numbered : h.attempt = attemptAfter done) :
    EachAfter (fun before => InForce s (done ++ before))
      [.remark (.attemptStarted node number level), .notify (.nodeStarted h)] := by
  have hbefore : attemptAfter (done ++ [.remark (.attemptStarted node number level)]) =
      attemptAfter done := by
    simp [attemptAfter, decisionsOf, Action.decision?]
  simp only [EachAfter.cons_iff, EachAfter.nil, List.append_nil, and_true]
  refine ⟨of_isBare rfl, by simp [Action.level?], ?_, by simp, by simp⟩
  intro _ hnumber
  rw [hbefore, ← numbered]
  exact (Option.some.inj hnumber).symm

/-- A request goes out at the level in force, for the attempt that has started. -/
theorem sending {attempt : Attempt} {node : Node} {c : Connection} {h : HostInfo}
    (level : attempt.level = s.routing.level.under (decisionsOf done))
    (started : .notify (.nodeStarted h) ∈ done) (place : h.node = node)
    (numbered : h.attempt = attemptAfter done) :
    EachAfter (fun before => InForce s (done ++ before))
      [.acquired node c, .send node c attempt.level s.routing.serial] := by
  have hnone : decisionsOf (done ++ [.acquired node c]) = decisionsOf done := by
    rw [decisionsOf_append]
    exact List.append_nil _
  simp only [EachAfter.cons_iff, EachAfter.nil, List.append_nil, and_true]
  refine ⟨of_isBare rfl, ⟨?_, by simp [Action.number?], ?_, by simp⟩⟩
  · intro _ hlevel
    rw [hnone, ← level]
    exact (Option.some.inj hlevel).symm
  · simp only [Action.send.injEq]
    rintro _ _ _ _ ⟨rfl, -, -, rfl⟩
    refine ⟨rfl, h, List.mem_append_left _ started, place, ?_⟩
    rw [attemptAfter, hnone]
    exact numbered

/-- The policy is asked about a failed attempt at the level in force, with the number that
    follows. -/
theorem assessed {m : Moment} {e : Execution} {attempt : Attempt} {error : AttemptError}
    (hlevel : attempt.level = s.routing.level.under (decisionsOf done))
    (hnumber : attempt.number = attemptAfter done) :
    EachAfter (fun before => InForce s (done ++ before)) (e.assess s m attempt error) := by
  have asked {hook : List Action} (bare : ∀ a ∈ hook, a.isBare = true) :
      InForce s (done ++ hook) (.decide (Execution.failed s attempt error)
        (s.retry.remark (Execution.failed s attempt error))
          (s.retry.decide (Execution.failed s attempt error))) := by
    have hnone : decisionsOf (done ++ hook) = decisionsOf done := by
      rw [decisionsOf_append, decisionsOf_bare bare, List.append_nil]
    refine ⟨?_, ?_, by simp, ?_⟩
    · intro _ h
      rw [hnone, ← hlevel]
      exact (Option.some.inj h).symm
    · intro _ h
      rw [attemptAfter, hnone, ← attemptAfter, ← hnumber]
      exact (Option.some.inj h).symm
    · simp only [Action.decide.injEq]
      rintro _ _ _ ⟨rfl, -, rfl⟩
      exact ⟨rfl, rfl⟩
  rw [Execution.assess]
  refine .append (all_of_bare ?_) ?_
  · split <;> simp [Action.isBare]
  · simp only [EachAfter.cons_iff, EachAfter.nil, List.append_nil, and_true]
    refine ⟨asked ?_, of_isBare rfl⟩
    split <;> simp [Action.isBare]

end InForce

-- ============================================================================
-- One execution
-- ============================================================================

namespace Execution

/-- The level that the next decision or attempt of an execution will be at. -/
def standingLevel (e : Execution) : Level :=
  match e.phase with
  | .reportingFailure _ error d => (e.heed error d).level
  | _ => e.level

/-- How many attempts of an execution have been decided about. -/
def judged (e : Execution) : Nat :=
  match e.phase with
  | .fresh | .reportingFailure .. => e.attempts
  | _ => e.attempts - 1

theorem heed_level (e : Execution) (error : AttemptError) (d : Decision) :
    (e.heed error d).level = d.level?.getD e.level := by
  cases d <;> rfl

variable {s : Settings} {deadline : Option Instant} {m : Moment} {sh sh' : Shared}
  {e e' : Execution} {event : ExecutionEvent} {lead actions : List Action}

theorem MovesOn.bare {d : Decision} {left : List Action} (h : MovesOn s m e d left) :
    ∀ a ∈ left, a.isBare = true := by
  cases h <;> simp [Action.isBare]

theorem nextNode_bare {found : Option Node} {consulted : List Action} {live : Liveness}
    (take : sh.nextNode live = (found, sh', consulted)) : ∀ a ∈ consulted, a.isBare = true := by
  obtain ⟨notes, -, rfl⟩ := Shared.nextNode_notes take
  exact List.forall_mem_map.mpr fun _ _ => rfl

theorem Onward.bare (h : Onward s m sh e event sh' e' lead) : ∀ a ∈ lead, a.isBare = true := by
  cases h with
  | fresh | same => simp
  | next _ moves take => exact List.forall_mem_append.mpr ⟨moves.bare, nextNode_bare take⟩

/-- The next attempt is made at the level that stands. -/
theorem Onward.level (h : Onward s m sh e event sh' e' lead) : e'.level = e.standingLevel := by
  cases h with
  | fresh phase | same phase | next phase => simp [standingLevel, phase]

theorem Onward.judged (h : Onward s m sh e event sh' e' lead) : e.judged = e.attempts := by
  cases h with
  | fresh phase | same phase | next phase => simp [Execution.judged, phase]

theorem Fails.bare {a : Attempt} {error : AttemptError} {back : List Action}
    (h : Fails s deadline m e event a error back) : ∀ x ∈ back, x.isBare = true := by
  cases h <;> simp [Action.isBare]

theorem Fails.pending {a : Attempt} {error : AttemptError} {back : List Action}
    (h : Fails s deadline m e event a error back) : e.pending? = some a ∧
      e.standingLevel = e.level ∧ e.judged = e.attempts - 1 := by
  cases h <;> simp [pending?, standingLevel, Execution.judged, *]

theorem abandon_bare (e : Execution) : ∀ x ∈ e.abandon, x.isBare = true := by
  intro x hx
  simp only [abandon, List.mem_append, Option.mem_toList, Option.map_eq_some_iff] at hx
  rcases hx with ⟨c, -, rfl⟩ | ⟨a, -, rfl⟩ <;> rfl

theorem decisionsOf_assess (a : Attempt) (error : AttemptError) :
    decisionsOf (e.assess s m a error) = [s.retry.decide (failed s a error)] := by
  cases h : error.wasSent <;> rw [assess, h] <;> rfl

end Execution

namespace Request

/-- What an execution did agrees with the decisions made about it, and so does its state. -/
structure Threaded (s : Settings) (done : List Action) (e : Execution) : Prop where
  trace : EachAfter (InForce s) done
  level : e.standingLevel = s.routing.level.under (decisionsOf done)
  judged : e.judged = (decisionsOf done).length
  pending : ∀ a, e.pending? = some a → a.level = e.level ∧ a.number = e.attempts ∧
    0 < e.attempts ∧ .notify (.nodeStarted (e.host a)) ∈ done

namespace Threaded

variable {s : Settings} {deadline : Option Instant} {m : Moment} {sh sh' : Shared}
  {e e' : Execution} {event : ExecutionEvent} {done lead actions back rest : List Action}
  {a : Attempt} {error : AttemptError}

/-- An attempt fails: the policy is shown its number and level. -/
theorem assessed (h : Threaded s done e) (fails : e.Fails s deadline m event a error back)
    (bare : ∀ x ∈ rest, x.isBare = true) :
    EachAfter (InForce s) (done ++ (back ++ (e.assess s m a error ++ rest))) ∧
      decisionsOf (done ++ (back ++ (e.assess s m a error ++ rest))) =
        decisionsOf done ++ [s.retry.decide (Execution.failed s a error)] := by
  obtain ⟨hpending, hstanding, hjudged⟩ := fails.pending
  obtain ⟨hlevel, hnumber, hpositive, -⟩ := h.pending a hpending
  have hforce := h.level
  have hcount := h.judged
  rw [hstanding] at hforce
  rw [hjudged] at hcount
  have hback := decisionsOf_bare fails.bare
  constructor
  · rw [← List.append_assoc, ← List.append_assoc]
    refine ((h.trace.append (InForce.all_of_bare fails.bare)).append ?_).append
      (InForce.all_of_bare bare)
    refine InForce.assessed ?_ ?_
    · rw [decisionsOf_append, hback, List.append_nil, ← hforce, hlevel]
    · rw [attemptAfter, decisionsOf_append, hback, List.append_nil, ← hcount, hnumber,
        Nat.sub_add_cancel hpositive]
  · simp [hback, decisionsOf_bare bare, e.decisionsOf_assess]

/-- An attempt starts. -/
theorem starting {now : Instant} (trace : EachAfter (InForce s) done)
    (level : e.level = s.routing.level.under (decisionsOf done))
    (judged : e.attempts = (decisionsOf done).length) :
    Threaded s (done ++ [.remark (.attemptStarted e.node (e.attempts + 1) e.level),
      .notify (.nodeStarted (e.host (e.nextAttempt now)))]) (e.announce now) := by
  have hnone : decisionsOf (done ++ [.remark (.attemptStarted e.node (e.attempts + 1) e.level),
      .notify (.nodeStarted (e.host (e.nextAttempt now)))]) = decisionsOf done := by
    rw [decisionsOf_append]
    exact List.append_nil _
  refine ⟨trace.append (InForce.starting (congrArg (· + 1) judged)), ?_, ?_, ?_⟩
  · rw [hnone]
    exact level
  · rw [hnone]
    exact judged
  · intro a ha
    simp only [Execution.pending?, Execution.announce, Option.some.injEq] at ha
    subst ha
    exact ⟨rfl, rfl, Nat.succ_pos _, by simp [Execution.announce, Execution.host]⟩

/-- An attempt failed, and the level of the decision about it stands from then on. -/
theorem failing {d : Decision} (h : Threaded s done e)
    (fails : e.Fails s deadline m event a error back)
    (decision : s.retry.decide (Execution.failed s a error) = d)
    (bare : ∀ x ∈ rest, x.isBare = true) :
    Threaded s (done ++ (back ++ (e.assess s m a error ++ rest)))
      { e with phase := .reportingFailure a error d } := by
  obtain ⟨hpending, hstanding, hcount⟩ := fails.pending
  obtain ⟨-, -, hpositive, -⟩ := h.pending _ hpending
  obtain ⟨htrace, hdecisions⟩ := h.assessed fails bare
  refine ⟨htrace, ?_, ?_, by simp [Execution.pending?]⟩
  · rw [hdecisions, Level.under_concat, ← h.level, hstanding, decision]
    exact Execution.heed_level ..
  · rw [hdecisions, List.length_append, ← h.judged, hcount]
    exact (Nat.sub_add_cancel hpositive).symm

/-- As long as nothing is decided, an execution that makes no other attempt keeps its level. -/
theorem keeps (h : Threaded s done e)
    (trace : EachAfter (fun before => InForce s (done ++ before)) actions)
    (undecided : decisionsOf actions = []) (level : e'.standingLevel = e.standingLevel)
    (judged : e'.judged = e.judged)
    (pending : ∀ a, e'.pending? = some a → e.pending? = some a ∧ e'.level = e.level ∧
      e'.attempts = e.attempts ∧ e'.host a = e.host a) :
    Threaded s (done ++ actions) e' := by
  refine ⟨h.trace.append trace, ?_, ?_, ?_⟩
  · rw [decisionsOf_append, undecided, List.append_nil, level, h.level]
  · rw [decisionsOf_append, undecided, List.append_nil, judged, h.judged]
  · intro a ha
    obtain ⟨before, hlevel, hattempts, hhost⟩ := pending a ha
    obtain ⟨own, number, positive, mem⟩ := h.pending a before
    rw [hlevel, hattempts, hhost]
    exact ⟨own, number, positive, List.mem_append_left _ mem⟩

/-- What is neither a decision nor the start of an attempt leaves an execution at its level. -/
theorem quietly (h : Threaded s done e) (bare : ∀ x ∈ actions, x.isBare = true)
    (level : e'.standingLevel = e.standingLevel) (judged : e'.judged = e.judged)
    (pending : ∀ a, e'.pending? = some a → e.pending? = some a ∧ e'.level = e.level ∧
      e'.attempts = e.attempts ∧ e'.host a = e.host a) :
    Threaded s (done ++ actions) e' :=
  h.keeps (InForce.all_of_bare bare) (decisionsOf_bare bare) level judged pending

theorem goesOn (h : Threaded s done e)
    (turn : e.Turn s deadline m sh event ⟨sh', .goesOn e', actions⟩) :
    Threaded s (done ++ actions) e' := by
  have hlevel := h.level
  have hjudged := h.judged
  cases turn with
  | @starts _ _ e₁ lead onward free =>
    rw [← onward.level] at hlevel
    rw [onward.judged, ← onward.attempts] at hjudged
    have hlead : decisionsOf (done ++ lead) = decisionsOf done := by
      rw [decisionsOf_append, decisionsOf_bare onward.bare, List.append_nil]
    rw [← hlead] at hlevel hjudged
    rw [← List.append_assoc]
    exact starting (h.trace.append (InForce.all_of_bare onward.bare)) hlevel hjudged
  | asks phase =>
    exact h.quietly (by simp [Action.isBare]) (by simp [Execution.standingLevel, phase])
      (by simp [Execution.judged, phase]) (by simp [Execution.pending?, Execution.host, phase])
  | @sends a c phase =>
    obtain ⟨hattempt, hnumber, hpositive, hmem⟩ :=
      h.pending a (by simp [Execution.pending?, phase])
    simp only [Execution.standingLevel, phase] at hlevel
    simp only [Execution.judged, phase] at hjudged
    -- the attempt under way has no decision yet, so it is the one that follows
    have hnext : (e.host a).attempt = attemptAfter done := by
      rw [attemptAfter, ← hjudged]
      exact hnumber.trans (Nat.sub_add_cancel hpositive).symm
    refine h.keeps (InForce.sending (hattempt.trans hlevel) hmem rfl hnext) rfl ?_ ?_ ?_
    · simp [Execution.standingLevel, phase]
    · simp [Execution.judged, phase]
    · simp [Execution.pending?, Execution.host, phase]
  | succeeds phase free =>
    exact h.quietly (by simp [Action.isBare]) (by simp [Execution.standingLevel, phase])
      (by simp [Execution.judged, phase]) (by simp [Execution.pending?])
  | rethrows fails decision => exact h.failing fails decision (by simp [Action.isBare])
  | fails fails decision => exact h.failing fails decision (by simp [Action.isBare])

/-- What an execution does in its last turn agrees with the decisions before it as well. -/
theorem ends {progress : Progress} (h : Threaded s done e)
    (turn : e.Turn s deadline m sh event ⟨sh', progress, actions⟩)
    (last : ∀ e', progress ≠ .goesOn e') : EachAfter (InForce s) (done ++ actions) := by
  cases turn with
  | starts | asks | sends | succeeds | rethrows | fails => exact absurd rfl (last _)
  | stops onward =>
    refine h.trace.append (InForce.all_of_bare (List.forall_mem_append.mpr ⟨onward.bare, ?_⟩))
    simp [Action.isBare]
  | exhausts _ moves take =>
    refine h.trace.append (InForce.all_of_bare (List.forall_mem_append.mpr ⟨moves.bare, ?_⟩))
    refine List.forall_mem_append.mpr ⟨Execution.nextNode_bare take, ?_⟩
    simp [Action.isBare]
  | succeedsLate => exact h.trace.append (InForce.all_of_bare (by simp [Action.isBare]))
  | failsLate fails asked =>
    subst asked
    refine (h.assessed fails ?_).1
    split <;> simp [Action.isBare]
  | returns | throws =>
    rw [List.append_nil]
    exact h.trace

end Threaded

/-- The law that an execution threads its level. -/
def Law.levels (s : Settings) : Law s where
  live _ := Threaded s
  ended _ _ := EachAfter (InForce s)
  new _ _ := ⟨.nil, rfl, rfl, nofun⟩
  goesOn := Threaded.goesOn
  ends := Threaded.ends
  dropped h := h.trace.append (InForce.all_of_bare (Execution.abandon_bare _))

variable {s : Settings} {ts : List Transition} {σ : State}

/-- Whatever an execution does agrees with the decisions made about it before. -/
theorem Run.inForce (h : Run s ts σ) (index : Nat) :
    EachAfter (InForce s) (Deed.actionsOf index (log ts)) :=
  (Law.levels s).eachAfter h (fun holds => holds.trace) id index

-- ============================================================================
-- The provided policies
-- ============================================================================

/-- The level changes at most once: only the decision on the first attempt can carry one, and all
    attempts after it are at the level of the request or, if the policy is the downgrading one, at
    one that this policy settles for. -/
structure ChangesOnce (s : Settings) (actions : List Action) : Prop where
  first : ∀ failed remark d, .decide failed remark d ∈ actions → d.level? ≠ none →
    failed.number = 1
  settled : ∃ level, (level = s.routing.level ∨
      s.retry.decide = RetryPolicy.downgrading.decide ∧ level ∈ Level.fallbacks) ∧
    EachAfter (fun before a => 2 ≤ attemptAfter before →
      ∀ shown, a.level? = some shown → shown = level) actions

section Provided

variable {s : Settings} {actions before after : List Action} {a : Action}

/-- Where a decision stands, the number of the attempt that it is about is known. -/
theorem decision_of_inForce {d : Decision} (inForce : InForce s before a)
    (decision : a.decision? = some d) : ∃ failed remark, a = .decide failed remark d ∧
      failed.number = attemptAfter before ∧ d = s.retry.decide failed := by
  cases a with
  | decide failed remark d' =>
    cases decision
    exact ⟨failed, remark, rfl, inForce.number _ rfl, (inForce.decided _ _ _ rfl).2⟩
  | _ => cases decision

/-- A provided policy changes the level only by its decision on the first attempt. -/
theorem first_of_level (provided : s.retry.IsProvided) {failed : FailedAttempt} {level : Level}
    (lowered : (s.retry.decide failed).level? = some level) : failed.number ≤ 1 :=
  of_decide_eq_true (provided.lowers lowered).2.1

/-- Decisions after the first carry no level. -/
theorem tail_level (provided : s.retry.IsProvided) (inForce : EachAfter (InForce s) actions) :
    ∀ d ∈ (decisionsOf actions).tail, d.level? = none := by
  -- on the latest action: if it is a decision on a later attempt, the policy keeps the level
  induction actions using List.reverseRecOn with
  | nil => simp [decisionsOf]
  | append_singleton actions a ih =>
    obtain ⟨hbefore, hlast⟩ := EachAfter.concat_iff.mp inForce
    have ih := ih hbefore
    have hone : decisionsOf [a] = a.decision?.toList := by
      cases h : a.decision? <;> simp [decisionsOf, h]
    rw [decisionsOf_append, hone]
    cases hdecision : a.decision? with
    | none => simpa using ih
    | some d =>
      obtain ⟨failed, remark, rfl, hnumber, rfl⟩ := decision_of_inForce hlast hdecision
      cases hdecisions : decisionsOf actions with
      | nil => simp
      | cons first rest =>
        rw [hdecisions] at ih
        refine List.forall_mem_append.mpr ⟨ih, ?_⟩
        intro d hd
        rw [List.mem_singleton.mp hd]
        by_contra hlevel
        obtain ⟨level, hlowered⟩ := Option.ne_none_iff_exists'.mp hlevel
        have hfirst := first_of_level provided hlowered
        simp [hnumber, attemptAfter, hdecisions] at hfirst

/-- What all attempts after the first one are at. -/
theorem settled_level (provided : s.retry.IsProvided)
    (inForce : EachAfter (InForce s) (before ++ after)) (later : 2 ≤ attemptAfter before) :
    s.routing.level.under (decisionsOf before) =
      s.routing.level.under ((decisionsOf (before ++ after)).take 1) := by
  cases hdecisions : decisionsOf before with
  | nil => simp [attemptAfter, hdecisions] at later
  | cons first rest =>
    have hbefore : EachAfter (InForce s) before := fun lead a follow heq =>
      inForce lead a (follow ++ after) (by rw [heq, List.append_assoc, List.cons_append])
    have hrest := tail_level provided hbefore
    rw [hdecisions] at hrest
    rw [decisionsOf_append, hdecisions]
    show s.routing.level.under ([first] ++ _) = _
    exact Level.under_append hrest

theorem ChangesOnce.of_inForce (provided : s.retry.IsProvided)
    (inForce : EachAfter (InForce s) actions) : ChangesOnce s actions := by
  constructor
  · intro failed remark d hmem hlevel
    obtain ⟨before, after, rfl⟩ := List.append_of_mem hmem
    have hforce := inForce before _ after rfl
    obtain ⟨level, hlowered⟩ := Option.ne_none_iff_exists'.mp hlevel
    rw [(hforce.decided _ _ _ rfl).2] at hlowered
    have hnumber : failed.number = attemptAfter before := hforce.number _ rfl
    exact Nat.le_antisymm (first_of_level provided hlowered) (hnumber ▸ Nat.succ_pos _)
  · refine ⟨s.routing.level.under ((decisionsOf actions).take 1), ?_, ?_⟩
    · cases hdecisions : decisionsOf actions with
      | nil => exact .inl rfl
      | cons d rest =>
        have hmem : d ∈ decisionsOf actions := hdecisions ▸ List.mem_cons_self
        obtain ⟨a, ha, hdecision⟩ := List.mem_filterMap.mp hmem
        obtain ⟨before, after, rfl⟩ := List.append_of_mem ha
        obtain ⟨failed, -, -, -, hdecided⟩ :=
          decision_of_inForce (inForce before a after rfl) hdecision
        rw [List.take_one, List.head?_cons, Option.toList_some, ← List.nil_append [d],
          Level.under_concat]
        cases hlevel : d.level? with
        | none => exact .inl rfl
        | some level =>
          obtain ⟨downgrading, -, fallback⟩ := provided.lowers (hdecided ▸ hlevel)
          exact .inr ⟨downgrading, fallback⟩
    · rintro before a after rfl later shown hshown
      rw [(inForce before a after rfl).level shown hshown]
      exact settled_level provided inForce later

end Provided

-- ============================================================================
-- A whole run
-- ============================================================================

/-- How the levels of a request are threaded through its attempts: `level` and `serial` are those
    that it begins with. -/
structure ThreadedLevels (s : Settings) (level : Level) (serial : Option SerialLevel)
    (ts : List Transition) (σ : State) : Prop where
  begins : s.routing.level = level ∧ s.routing.serial = serial
  /-- Only executions send anything or consult the retry policy. -/
  owned : ∀ d ∈ log ts, d.execution = none → d.action.level? = none
  /-- Each execution follows its own decisions. -/
  inForce : ∀ index, EachAfter (InForce s) (Deed.actionsOf index (log ts))
  /-- The load balancing policy is always shown the same routing information. -/
  routed : (∀ note ∈ Deed.notes (log ts), ∀ r, note.routing? = some r → r = s.routing) ∧
    ∀ p, σ.plan? s = some p → p.routing = s.routing
  /-- The provided policies change the level at most once. -/
  once : s.retry.IsProvided → ∀ index, ChangesOnce s (Deed.actionsOf index (log ts))

/-- Every execution threads its level from the one that the statement asks for. -/
theorem Run.threadsLevels {statement : Statement} {handle : ProfileHandle} {cells : ProfileCells}
    {snapshot : Snapshot} {ts : List Transition} {σ : State}
    (h : Run (.resolve statement handle cells snapshot) ts σ) :
    ThreadedLevels (.resolve statement handle cells snapshot)
      (statement.level.getD (cells.profile (statement.profile.getD handle)).level)
      (statement.serial.getD (cells.profile (statement.profile.getD handle)).serial) ts σ where
  begins := ⟨rfl, rfl⟩
  owned d hd none := Action.level?_of_isGeneral (h.general d hd none)
  inForce := h.inForce
  routed := ⟨h.drawn.noted, fun p hp => (h.drawn.plan p hp).2.1⟩
  once provided index := .of_inForce provided (h.inForce index)

/-- A statement under the downgrading policy, on a cluster of one node. -/
def loweringSettings : Settings :=
  .resolve { contents := "SELECT now() FROM system.local", retry := some .downgrading }
    default {} ⟨[default]⟩

/-- An attempt for which two replicas are too few, and another one that gets a result. -/
def loweringEvents : List (Moment × Event) :=
  [(default, .told), (default, .execution 0 .begin), (default, .execution 0 .told),
    (default, .execution 0 (.connection (.ok ⟨1, default⟩))),
    (default, .execution 0 (.answer (.ok (.error ⟨.unavailable .localQuorum 3 2, ""⟩)))),
    (default, .execution 0 .told), (default, .execution 0 .told),
    (default, .execution 0 (.connection (.ok ⟨2, default⟩))),
    (default, .execution 0 (.answer (.ok (.ok (.result "row"))))),
    (default, .execution 0 .told), (default, .told)]

/-- The steps of this run. -/
def loweringSteps : List Transition :=
  ((replay loweringSettings [] .starting loweringEvents).map Prod.fst).getD []

/-- The second attempt of the run is made at the level two, which the policy settles for. -/
theorem Run.threadsLevels_of_lowering :
    ThreadedLevels loweringSettings .localQuorum (some .localSerial) loweringSteps
        (.finished (.ok sampleAnswer)) ∧ loweringSettings.retry.IsProvided ∧
      (Deed.actionsOf 0 (log loweringSteps)).filterMap Action.level? =
        [.localQuorum, .localQuorum, .two] :=
  ⟨Run.threadsLevels (Run.start.replay loweringEvents rfl), .inr (.inl rfl), by decide +kernel⟩

end Request

end RequestEngine
