/-
  RequestEngine.Proofs.Request.Run

  Runs of a request and the log they leave.  A run is a sequence of steps from
  the announcement of the start, each at a moment of its own: which party is
  next, what pool and nodes answer, and what the policies' surroundings look
  like are left open, so a theorem about every run holds for every interleaving.

    * `Run s ts σ`       — the steps `ts` lead to the state `σ`;
    * `log ts`           — all deeds of these steps, in order;
    * `Deed.seen`, `Deed.actionsOf` — what a view, or one execution, shows of a log;
    * `EachAfter ok l`   — every element of `l` is allowed by what precedes it.

  What holds initially and is kept by every move holds in every run
  (`Run.invariant`), and steps, or deeds, that are allowed where they are taken
  make an allowed run, or log (`Run.eachStep`, `Run.everyStep`,
  `Run.eachAfter`).
-/
import RequestEngine.Proofs.Request.Move

namespace RequestEngine

-- ============================================================================
-- Order in a list
-- ============================================================================

/-- Every element satisfies a condition together with the elements before it. -/
def EachAfter {α : Type} (ok : List α → α → Prop) (l : List α) : Prop :=
  ∀ before a after, l = before ++ a :: after → ok before a

namespace EachAfter

variable {α : Type} {ok : List α → α → Prop} {l l' : List α}

@[simp] theorem nil : EachAfter ok [] := by
  intro before a after h
  simp at h

theorem append (h : EachAfter ok l) (h' : EachAfter (fun before => ok (l ++ before)) l') :
    EachAfter ok (l ++ l') := by
  intro before a after heq
  rcases List.append_eq_append_iff.mp heq with ⟨mid, rfl, hmid⟩ | ⟨mid, rfl, hmid⟩
  · exact h' mid a after hmid
  · cases mid with
    | nil =>
      have := h' [] a after (by simpa using hmid.symm)
      simpa using this
    | cons x mid =>
      simp only [List.cons_append, List.cons.injEq] at hmid
      obtain ⟨rfl, -⟩ := hmid
      exact h before a mid rfl

@[simp] theorem cons_iff {a : α} :
    EachAfter ok (a :: l) ↔ ok [] a ∧ EachAfter (fun before => ok (a :: before)) l := by
  constructor
  · intro h
    refine ⟨h [] a l rfl, fun before b after heq => ?_⟩
    exact h (a :: before) b after (by rw [heq, List.cons_append])
  · rintro ⟨ha, h⟩
    exact append (l := [a]) (fun before b after heq => by
      cases before with
      | nil =>
        simp only [List.nil_append, List.cons.injEq] at heq
        exact heq.1 ▸ ha
      | cons x before => simp at heq) h

theorem concat {a : α} (h : EachAfter ok l) (last : ok l a) : EachAfter ok (l ++ [a]) :=
  h.append (cons_iff.mpr ⟨by simpa using last, by simp⟩)

theorem of_append (h : EachAfter ok (l ++ l')) : EachAfter ok l := by
  intro before a after heq
  exact h before a (after ++ l') (by rw [heq, List.append_assoc, List.cons_append])

theorem concat_iff {a : α} : EachAfter ok (l ++ [a]) ↔ EachAfter ok l ∧ ok l a := by
  constructor
  · intro h
    exact ⟨h.of_append, h l a [] rfl⟩
  · rintro ⟨h, last⟩
    exact h.concat last

/-- Elements that are allowed anywhere make an allowed list. -/
theorem of_forall (h : ∀ before, ∀ a ∈ l, ok before a) : EachAfter ok l := by
  intro before a after heq
  exact h before a (by simp [heq])

instance decidable (ok : List α → α → Prop) [inst : ∀ before a, Decidable (ok before a)]
    (l : List α) : Decidable (EachAfter ok l) :=
  match l with
  | [] => .isTrue nil
  | a :: l =>
    have : ∀ before b, Decidable (ok (a :: before) b) := fun before => inst (a :: before)
    have := decidable (fun before => ok (a :: before)) l
    decidable_of_iff _ cons_iff.symm

end EachAfter

-- ============================================================================
-- Views of a log
-- ============================================================================

namespace Notification

/-- The host of the attempt that a notification is about. -/
def attempt? : Notification → Option HostInfo
  | .nodeStarted h | .nodeFailed h .. | .nodeSucceeded h => some h
  | _ => none

/-- The host of the attempt that a notification reports as successful or failed. -/
def report? : Notification → Option HostInfo
  | .nodeFailed h .. | .nodeSucceeded h => some h
  | _ => none

theorem attempt?_of_report {n : Notification} {h : HostInfo} (report : n.report? = some h) :
    n.attempt? = some h := by
  cases n <;> first | exact report | cases report

end Notification

namespace Action

/-- Actions that a request takes as a whole: they concern no attempt. -/
def isGeneral : Action → Bool
  | .claim (.attempt ..) _ | .remark (.attemptCancelled ..) => false
  | .consult _ | .askDelay .. | .openExecution _ | .claim .. | .remark _ => true
  | .notify n => n.attempt?.isNone
  | _ => false

theorem isGeneral_of_isQuiet {a : Action} (h : a.isQuiet = true) : a.isGeneral = true := by
  cases a with
  | remark r => cases r <;> first | rfl | cases h
  | _ => first | rfl | cases h

@[simp] theorem isGeneral_finalNotice (o : Outcome) :
    (notify (Request.finalNotice o)).isGeneral = true := by
  cases o <;> rfl

/-- The notification that an action delivers. -/
def notice? : Action → Option Notification
  | .notify n => some n
  | _ => none

@[simp] theorem notice?_notify (n : Notification) : (notify n).notice? = some n := rfl

@[simp] theorem notice?_claim (who : Claimant) (won : Bool) : (claim who won).notice? = none := rfl

@[simp] theorem notice?_remark (r : Remark) : (remark r).notice? = none := rfl

/-- The party that an action makes the one to resolve the request. -/
def winner? : Action → Option Claimant
  | .claim who true => some who
  | _ => none

/-- What the retry policy decides, when it is asked. -/
def decision? : Action → Option Decision
  | .decide _ _ d => some d
  | _ => none

/-- A view that shows nothing but claims and notifications. -/
def Blind {α : Type} (view : Action → Option α) : Prop :=
  ∀ a, a.isInner = true → view a = none

theorem notice?_blind : Blind notice? := by
  intro a h
  cases a <;> first | rfl | cases h

theorem winner?_blind : Blind winner? := by
  intro a h
  cases a <;> first | rfl | cases h

namespace Blind

variable {α : Type} {view : Action → Option α} {actions : List Action}

theorem inner (blind : Blind view) (inner : ∀ a ∈ actions, a.isInner = true) :
    actions.filterMap view = [] :=
  List.filterMap_eq_nil_iff.mpr fun a ha => blind a (inner a ha)

theorem quiet (blind : Blind view) (quiet : ∀ a ∈ actions, a.isQuiet = true) :
    actions.filterMap view = [] :=
  blind.inner fun a ha => isInner_of_isQuiet (quiet a ha)

end Blind

end Action

namespace Deed

/-- What a view shows of a log, in order. -/
def seen {α : Type} (view : Action → Option α) (log : List Deed) : List α :=
  log.filterMap fun d => view d.action

/-- The notifications of a log. -/
abbrev notices (log : List Deed) : List Notification :=
  seen Action.notice? log

/-- The parties that succeeded in claiming the resolution, in order. -/
abbrev winners (log : List Deed) : List Claimant :=
  seen Action.winner? log

/-- The decisions of the retry policy, in order. -/
abbrev decisions (log : List Deed) : List Decision :=
  seen Action.decision? log

/-- What one execution did, in order. -/
def actionsOf (index : Nat) (log : List Deed) : List Action :=
  log.filterMap fun d => if d.execution = some index then some d.action else none

variable {α : Type} {view : Action → Option α} {log log' : List Deed} {index other : Nat}
  {actions : List Action}

@[simp] theorem seen_nil : seen view [] = [] := rfl

@[simp] theorem seen_append : seen view (log ++ log') = seen view log ++ seen view log' :=
  List.filterMap_append

@[simp] theorem seen_ofExecution : seen view (ofExecution index actions) =
    actions.filterMap view := by
  rw [seen, ofExecution, List.filterMap_map]
  rfl

@[simp] theorem seen_ofRequest : seen view (ofRequest actions) = actions.filterMap view := by
  rw [seen, ofRequest, List.filterMap_map]
  rfl

theorem mem_seen {a : α} : a ∈ seen view log ↔ ∃ d ∈ log, view d.action = some a :=
  List.mem_filterMap

@[simp] theorem actionsOf_append :
    actionsOf index (log ++ log') = actionsOf index log ++ actionsOf index log' :=
  List.filterMap_append

@[simp] theorem actionsOf_ofRequest : actionsOf index (ofRequest actions) = [] := by
  simp [actionsOf, ofRequest]

@[simp] theorem actionsOf_ofExecution_self :
    actionsOf index (ofExecution index actions) = actions := by
  have hown : ((fun d : Deed => if d.execution = some index then some d.action else none) ∘
      (⟨some index, ·⟩)) = some := funext fun _ => if_pos rfl
  rw [actionsOf, ofExecution, List.filterMap_map, hown, List.filterMap_some]

theorem actionsOf_ofExecution_of_ne (h : other ≠ index) :
    actionsOf index (ofExecution other actions) = [] := by
  simp [actionsOf, ofExecution, h]

@[simp] theorem mem_ofExecution {d : Deed} :
    d ∈ ofExecution index actions ↔ d.execution = some index ∧ d.action ∈ actions := by
  constructor
  · intro h
    obtain ⟨a, ha, rfl⟩ := List.mem_map.mp h
    exact ⟨rfl, ha⟩
  · rintro ⟨hx, ha⟩
    exact List.mem_map.mpr ⟨d.action, ha, by cases d; cases hx; rfl⟩

@[simp] theorem mem_ofRequest {d : Deed} :
    d ∈ ofRequest actions ↔ d.execution = none ∧ d.action ∈ actions := by
  constructor
  · intro h
    obtain ⟨a, ha, rfl⟩ := List.mem_map.mp h
    exact ⟨rfl, ha⟩
  · rintro ⟨hx, ha⟩
    exact List.mem_map.mpr ⟨d.action, ha, by cases d; cases hx; rfl⟩

theorem mem_actionsOf {a : Action} :
    a ∈ actionsOf index log ↔ ⟨some index, a⟩ ∈ log := by
  simp only [actionsOf, List.mem_filterMap, Option.ite_none_right_eq_some, Option.some.injEq]
  constructor
  · rintro ⟨d, hd, hx, rfl⟩
    rwa [← hx]
  · intro h
    exact ⟨_, h, rfl, rfl⟩

end Deed

-- ============================================================================
-- Runs
-- ============================================================================

namespace Request

/-- The executions in flight. -/
def State.executions : State → List Execution
  | .running r => r.executions
  | _ => []

/-- A view that shows nothing of an execution that is dropped shows nothing of all of them. -/
theorem seen_abandonAll_eq_nil {α : Type} {view : Action → Option α}
    (unseen : ∀ e : Execution, e.abandon.filterMap view = []) (executions : List Execution) :
    Deed.seen view (abandonAll executions) = [] := by
  induction executions with
  | nil => rfl
  | cons e rest ih =>
    rw [abandonAll, List.flatMap_cons, ← abandonAll, Deed.seen_append, ih,
      Deed.seen_ofExecution, unseen e]
    rfl

theorem seen_abandonAll {α : Type} {view : Action → Option α} (blind : Action.Blind view)
    (executions : List Execution) : Deed.seen view (abandonAll executions) = [] :=
  seen_abandonAll_eq_nil (fun e => blind.inner e.abandon_inner) executions

/-- Such a view shows of a speculative execution that starts that this is announced. -/
theorem seen_speculation {α : Type} {view : Action → Option α} (blind : Action.Blind view)
    {s : Settings} {now : Instant} {metrics : Metrics} {started : Nat} {timer : Option Timer}
    {asked consulted : List Action} {sh rest : Shared} {live : Liveness} {found : Option Node}
    (take : sh.nextNode live = (found, rest, consulted))
    (armed : Armed s now metrics started timer asked) (n : Notification) (index : Nat) :
    Deed.seen view (Deed.ofRequest
      (consulted ++ (.notify n :: ([.openExecution index] ++ asked)))) =
        (view (.notify n)).toList := by
  rw [Deed.seen_ofRequest, List.filterMap_append, blind.quiet (Execution.nextNode_quiet take),
    List.filterMap_cons, blind.quiet (armed.opening_quiet index)]
  cases view (.notify n) <;> rfl

/-- One step of a run. -/
structure Transition where
  moment : Moment
  source : State
  event : Event
  target : State
  deeds : List Deed

/-- The steps that a request has taken since it began, and the state they led to. -/
inductive Run (s : Settings) : List Transition → State → Prop where
  | start : Run s [] start.1
  | step {ts : List Transition} {m : Moment} {σ σ' : State} {event : Event}
      {deeds : List Deed} (run : Run s ts σ)
      (taken : Request.step s m σ event = some (σ', deeds)) :
      Run s (ts ++ [⟨m, σ, event, σ', deeds⟩]) σ'

/-- Everything that a run did, in order, the announcement of its start included. -/
def log (ts : List Transition) : List Deed :=
  start.2 ++ ts.flatMap Transition.deeds

@[simp] theorem log_nil : log [] = [⟨none, .notify .requestStarted⟩] := rfl

@[simp] theorem log_concat (ts : List Transition) (t : Transition) :
    log (ts ++ [t]) = log ts ++ t.deeds := by
  simp [log]

variable {s : Settings} {ts : List Transition} {σ : State}

/-- What holds when a request begins, and is kept by each of its moves, holds in every run. -/
theorem Run.invariant (h : Run s ts σ) (inv : List Transition → State → Prop)
    (start : inv [] .starting)
    (move : ∀ ts m σ event σ' deeds, Run s ts σ → inv ts σ → Move s m σ event σ' deeds →
      inv (ts ++ [⟨m, σ, event, σ', deeds⟩]) σ') :
    inv ts σ := by
  induction h with
  | start => exact start
  | step run taken ih => exact move _ _ _ _ _ _ run ih (step_move taken)

/-- A log is in order if the start may come first and the deeds of every move may follow what
    was done before it. -/
theorem Run.eachAfter {ok : List Deed → Deed → Prop} (h : Run s ts σ)
    (start : ok [] ⟨none, .notify .requestStarted⟩)
    (move : ∀ ts m σ event σ' deeds, Run s ts σ →
      Run s (ts ++ [⟨m, σ, event, σ', deeds⟩]) σ' → Move s m σ event σ' deeds →
        EachAfter (fun before => ok (log ts ++ before)) deeds) :
    EachAfter ok (log ts) := by
  induction h with
  | start => simpa using start
  | step run taken ih =>
    rw [log_concat]
    exact ih.append (move _ _ _ _ _ _ run (run.step taken) (step_move taken))

/-- What is allowed of a step by the steps before it is so all along a run, if it is where a move
    is made. -/
theorem Run.eachStep {ok : List Transition → Transition → Prop} (h : Run s ts σ)
    (move : ∀ ts m σ event σ' deeds, Run s ts σ → Move s m σ event σ' deeds →
      ok ts ⟨m, σ, event, σ', deeds⟩) : EachAfter ok ts := by
  induction h with
  | start => exact .nil
  | step run taken ih => exact ih.concat (move _ _ _ _ _ _ run (step_move taken))

/-- What is so of every move is so of every step of a run. -/
theorem Run.everyStep {p : Transition → Prop} (h : Run s ts σ)
    (move : ∀ ts m σ event σ' deeds, Run s ts σ → Move s m σ event σ' deeds →
      p ⟨m, σ, event, σ', deeds⟩) : ∀ t ∈ ts, p t := by
  intro t ht
  obtain ⟨before, after, hsplit⟩ := List.append_of_mem ht
  have hall : EachAfter (fun _ t => p t) ts := h.eachStep move
  exact hall before t after hsplit

/-! ## Computed runs -/

/-- The run that goes on from another one with given events, if each can happen in turn. -/
def replay (s : Settings) (ts : List Transition) (σ : State) :
    List (Moment × Event) → Option (List Transition × State)
  | [] => some (ts, σ)
  | (m, event) :: rest =>
    match Request.step s m σ event with
    | some (σ', deeds) => replay s (ts ++ [⟨m, σ, event, σ', deeds⟩]) σ' rest
    | none => none

theorem Run.replay {ts' : List Transition} {σ' : State} (h : Run s ts σ)
    (events : List (Moment × Event))
    (computed : Request.replay s ts σ events = some (ts', σ')) : Run s ts' σ' := by
  induction events generalizing ts σ with
  | nil =>
    cases computed
    exact h
  | cons head rest ih =>
    obtain ⟨m, event⟩ := head
    simp only [Request.replay] at computed
    split at computed
    · rename_i taken
      exact ih (h.step taken) computed
    · cases computed

/-- Events of one instant. -/
def eventsAt (nanos : Nat) (events : List Event) : List (Moment × Event) :=
  events.map ({ now := ⟨⟨nanos⟩⟩ }, ·)

/-- A statement without settings of its own, under the standard profile, on a cluster of one
    node. -/
def sampleSettings : Settings :=
  .resolve { contents := "SELECT now() FROM system.local" } default {} ⟨[default]⟩

/-- A node beside the one of this cluster. -/
def otherNode : Node :=
  { (default : Node) with serial := 1, host := ⟨1⟩ }

/-- One attempt that gets a result, from the start of its request to its end. -/
def sampleEvents : List (Moment × Event) :=
  [(default, .told), (default, .execution 0 .begin), (default, .execution 0 .told),
    (default, .execution 0 (.connection (.ok ⟨1, default⟩))),
    (default, .execution 0 (.answer (.ok (.ok (.result "row"))))),
    (default, .execution 0 .told), (default, .told)]

/-- The steps of this run. -/
def sampleSteps : List Transition :=
  ((replay sampleSettings [] .starting sampleEvents).map Prod.fst).getD []

/-- The answer that it ends with. -/
def sampleAnswer : Answer :=
  ⟨.result "row", default, default⟩

theorem sampleRun : Run sampleSettings sampleSteps (.finished (.ok sampleAnswer)) :=
  Run.start.replay sampleEvents rfl

/-- An idempotent statement under a retry policy that never leaves a node and a speculative
    execution after a nanosecond, on a cluster of two. -/
def stubbornSettings : Settings :=
  .resolve { contents := "SELECT now() FROM system.local", idempotent := true
             retry := some ⟨"Stubborn", fun _ => .retrySame none, fun _ => none, false⟩
             speculation := some (.simple 1 ⟨1⟩) }
    default {} ⟨[default, otherNode]⟩

/-- An attempt that gets no connection, and the start of the next one. -/
def refusedAttempt (index : Nat) : List Event :=
  [.execution index (.connection (.error .nodeDisabled)), .execution index .told,
    .execution index .told]

/-- An attempt that gets no connection, one that ends in an error and one that gets a result, all
    of the first execution, and a result for the second one that comes too late. -/
def contestedEvents : List (Moment × Event) :=
  eventsAt 0 [.told, .execution 0 .begin, .execution 0 .told] ++
    eventsAt 1 [.speculate, .execution 1 .begin, .execution 1 .told] ++
    eventsAt 2 (refusedAttempt 0 ++ [.execution 0 (.connection (.ok ⟨1, default⟩))]) ++
    eventsAt 4 [.execution 0 (.answer (.ok (.error ⟨.overloaded, "busy"⟩))), .execution 0 .told,
      .execution 0 .told, .execution 0 (.connection (.ok ⟨2, default⟩)),
      .execution 1 (.connection (.ok ⟨3, default⟩))] ++
    eventsAt 7 [.execution 0 (.answer (.ok (.ok (.result "row")))),
      .execution 1 (.answer (.ok (.ok (.result "row")))), .execution 0 .told, .told]

/-- The steps of this run. -/
def contestedSteps : List Transition :=
  ((replay stubbornSettings [] .starting contestedEvents).map Prod.fst).getD []

theorem contestedRun : Run stubbornSettings contestedSteps (.finished (.ok sampleAnswer)) :=
  Run.start.replay contestedEvents rfl

end Request

end RequestEngine
