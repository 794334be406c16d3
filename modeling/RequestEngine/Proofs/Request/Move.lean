/-
  RequestEngine.Proofs.Request.Move

  What one step of a request can do, said once.  `Move` lists the ways in which
  a step goes, with its guards, the state after it and the deeds; `step_move`
  says that there are no others.  A step of an execution enters through its
  `Execution.Turn`.
-/
import RequestEngine.Proofs.Execution.Turn
import RequestEngine.Request.Machine

namespace RequestEngine

theorem Instant.le_of_not_lt {a b : Instant} (h : ¬ a < b) : b ≤ a :=
  Nat.le_of_not_lt h

namespace Request

/-! ## Parts of a step -/

/-- The executions of a running request other than a given one. -/
def Running.others (r : Running) (index : Nat) : List Execution :=
  r.executions.filter fun o => o.index ≠ index

/-- The executions of a running request with a given one replaced. -/
def Running.replaced (r : Running) (index : Nat) (e : Execution) : List Execution :=
  r.executions.map fun o => if o.index = index then e else o

/-- The timer that is set after an execution was started, and what was asked for it. -/
inductive Armed (s : Settings) (now : Instant) (metrics : Metrics) (started : Nat) :
    Option Timer → List Action → Prop where
  | unwanted (absent : s.speculationPolicy = none) : Armed s now metrics started none []
  | asked {policy : SpeculationPolicy} (present : s.speculationPolicy = some policy) :
      Armed s now metrics started
        ((policy.nextDelay ⟨started, metrics⟩).map fun d => ⟨now.after d, d⟩)
        [.askDelay started (policy.warning ⟨started, metrics⟩)
          (policy.nextDelay ⟨started, metrics⟩)]

/-- How a request goes on after one of its parties is gone: it runs while an execution or the
    timer is left, and ends otherwise. -/
inductive GoesOn (r : Running) : State → List Deed → Prop where
  | still (left : r.executions ≠ [] ∨ r.timer ≠ none) : GoesOn r (.running r) []
  | ended (noExecution : r.executions = []) (noTimer : r.timer = none) :
      GoesOn r (exhaust r).1 (exhaust r).2

/-- The shared state that a request begins with. -/
def freshShared (s : Settings) : Shared :=
  { plan := Plan.new s.balancing s.routing s.snapshot }

/-- Why the timer of the next execution found no node: somebody has resolved the request, or
    the plan has none left. -/
inductive NoNode (m : Moment) (sh : Shared) : Shared → List Action → Prop where
  | taken (taken : sh.claim ≠ none) : NoNode m sh sh []
  | planEmpty {rest : Shared} {consulted : List Action} (free : sh.claim = none)
      (take : sh.nextNode m.liveness = (none, rest, consulted)) : NoNode m sh rest consulted

/-! ## The relation -/

open Deed in
/-- What one step of a request does. -/
inductive Move (s : Settings) (m : Moment) : State → Event → State → List Deed → Prop where
  /-- The first execution starts on the first node of the plan. -/
  | begins {node : Node} {shared : Shared} {consulted asked : List Action}
      {timer : Option Timer}
      (take : (freshShared s).nextNode m.liveness = (some node, shared, consulted))
      (armed : Armed s m.now m.metrics 1 timer asked) :
      Move s m .starting .told
        (.running
          { shared, timer, executions := [Execution.new 0 node s.routing.level], started := 1
            deadline := s.requestTimeout.map m.now.after })
        (ofRequest (consulted ++ ([.openExecution 0] ++ asked)))
  /-- The plan has no node at all. -/
  | findsNothing {shared : Shared} {consulted : List Action}
      (take : (freshShared s).nextNode m.liveness = (none, shared, consulted)) :
      Move s m .starting .told (.concluding (.error (.noHostAvailable [])))
        (ofRequest (consulted ++
          [.claim .exhaustion true, .notify (.requestFailed (.noHostAvailable []))]))
  /-- The caller leaves while the start is being announced. -/
  | forgoes : Move s m .starting .drop .dropped []
  /-- An execution goes on. -/
  | advances {r : Running} {e e' : Execution} {event : ExecutionEvent} {sh : Shared}
      {actions : List Action} (mem : e ∈ r.executions)
      (turn : e.Turn s r.deadline m r.shared event ⟨sh, .goesOn e', actions⟩) :
      Move s m (.running r) (.execution e.index event)
        (.running { r with shared := sh, executions := r.replaced e.index e' })
        (ofExecution e.index actions)
  /-- An execution resolved the request. -/
  | settles {r : Running} {e : Execution} {event : ExecutionEvent} {sh : Shared}
      {actions : List Action} {o : Outcome} (mem : e ∈ r.executions)
      (turn : e.Turn s r.deadline m r.shared event ⟨sh, .resolved o, actions⟩) :
      Move s m (.running r) (.execution e.index event) (.concluding o)
        (ofExecution e.index actions ++
          (abandonAll (r.others e.index) ++ ofRequest [.notify (finalNotice o)]))
  /-- An execution ended because somebody else resolved the request. -/
  | cancels {r : Running} {e : Execution} {event : ExecutionEvent} {sh : Shared}
      {actions : List Action} {σ : State} {more : List Deed} (mem : e ∈ r.executions)
      (turn : e.Turn s r.deadline m r.shared event ⟨sh, .cancelled, actions⟩)
      (goes : GoesOn { r with shared := sh, executions := r.others e.index } σ more) :
      Move s m (.running r) (.execution e.index event) σ (ofExecution e.index actions ++ more)
  /-- An execution found no node any more. -/
  | exhausts {r : Running} {e : Execution} {event : ExecutionEvent} {sh : Shared}
      {actions : List Action} {lastIgnored : Option AttemptError} {σ : State}
      {more : List Deed} (mem : e ∈ r.executions)
      (turn : e.Turn s r.deadline m r.shared event ⟨sh, .exhausted lastIgnored, actions⟩)
      (goes : GoesOn { r with
        shared := sh, executions := r.others e.index, timer := none, lastIgnored } σ more) :
      Move s m (.running r) (.execution e.index event) σ (ofExecution e.index actions ++ more)
  /-- The timer starts another execution. -/
  | speculates {r : Running} {t : Timer} {node : Node} {sh : Shared}
      {consulted asked : List Action} {metrics : Metrics} {timer : Option Timer}
      (set : r.timer = some t) (due : t.due ≤ m.now) (free : r.shared.claim = none)
      (take : r.shared.nextNode m.liveness = (some node, sh, consulted))
      (counted : metrics =
        (m.metrics.record {} m.now (.speculated ⟨node, r.started, 1⟩ t.delay)).1)
      (armed : Armed s m.now metrics (r.started + 1) timer asked) :
      Move s m (.running r) .speculate
        (.running { r with
          shared := sh, timer, started := r.started + 1
          executions := r.executions ++ [Execution.new r.started node s.routing.level] })
        (ofRequest (consulted ++ (.notify (.speculated ⟨node, r.started, 1⟩ t.delay) ::
          ([.openExecution r.started] ++ asked))))
  /-- The timer finds no node for another execution. -/
  | speculatesInVain {r : Running} {t : Timer} {sh : Shared} {consulted : List Action}
      {σ : State} {more : List Deed} (set : r.timer = some t) (due : t.due ≤ m.now)
      (noNode : NoNode m r.shared sh consulted)
      (goes : GoesOn { r with shared := sh, timer := none } σ more) :
      Move s m (.running r) .speculate σ
        (ofRequest (consulted ++ [.remark .noNodeForSpeculation]) ++ more)
  /-- The deadline resolves the request. -/
  | timesOut {r : Running} {d : Instant} {limit : Duration} (deadline : r.deadline = some d)
      (bound : s.requestTimeout = some limit) (first : r.deadlinePassed = false)
      (due : d ≤ m.now) (free : r.shared.claim = none) :
      Move s m (.running r) .timeUp (.concluding (.error (.requestTimeout limit)))
        (ofRequest [.claim .deadline true, .remark (.timedOut limit)] ++
          (abandonAll r.executions ++
            ofRequest [.notify (.requestFailed (.requestTimeout limit))]))
  /-- The deadline comes too late. -/
  | timesOutLate {r : Running} {d : Instant} {limit : Duration}
      (deadline : r.deadline = some d) (bound : s.requestTimeout = some limit)
      (first : r.deadlinePassed = false) (due : d ≤ m.now) (taken : r.shared.claim ≠ none) :
      Move s m (.running r) .timeUp (.running { r with deadlinePassed := true })
        (ofRequest [.claim .deadline false])
  /-- The caller drops the running request. -/
  | drops {r : Running} :
      Move s m (.running r) .drop .dropped
        (abandonAll r.executions ++
          ofRequest [.remark .droppedUnresolved, .notify .requestCancelled])
  /-- The observers know of the outcome. -/
  | finishes {o : Outcome} : Move s m (.concluding o) .told (.finished o) []
  /-- The caller leaves while the outcome is being reported. -/
  | forsakes {o : Outcome} : Move s m (.concluding o) .drop .dropped []

/-! ## What only consults -/

theorem Armed.quiet {s : Settings} {now : Instant} {metrics : Metrics} {started : Nat}
    {timer : Option Timer} {asked : List Action}
    (h : Armed s now metrics started timer asked) : ∀ a ∈ asked, a.isQuiet = true := by
  cases h <;> simp [Action.isQuiet]

theorem Armed.opening_quiet {s : Settings} {now : Instant} {metrics : Metrics} {started : Nat}
    {timer : Option Timer} {asked : List Action}
    (h : Armed s now metrics started timer asked) (index : Nat) :
    ∀ a ∈ [Action.openExecution index] ++ asked, a.isQuiet = true :=
  List.forall_mem_cons.mpr ⟨rfl, h.quiet⟩

/-- The first execution of a request is opened without a word to anyone. -/
theorem Armed.beginning_quiet {s : Settings} {now : Instant} {metrics : Metrics} {started : Nat}
    {timer : Option Timer} {asked consulted : List Action} {sh rest : Shared} {live : Liveness}
    {found : Option Node} (h : Armed s now metrics started timer asked)
    (take : sh.nextNode live = (found, rest, consulted)) (index : Nat) :
    ∀ a ∈ consulted ++ ([.openExecution index] ++ asked), a.isQuiet = true :=
  List.forall_mem_append.mpr ⟨Execution.nextNode_quiet take, h.opening_quiet index⟩

theorem NoNode.quiet {m : Moment} {sh rest : Shared} {consulted : List Action}
    (h : NoNode m sh rest consulted) : ∀ a ∈ consulted, a.isQuiet = true := by
  cases h with
  | taken => simp
  | planEmpty _ take => exact Execution.nextNode_quiet take

theorem NoNode.shows_nothing {α : Type} {f : Action → Option α}
    (blind : ∀ note, f (.consult note) = none) {m : Moment} {sh rest : Shared}
    {consulted : List Action} (h : NoNode m sh rest consulted) : consulted.filterMap f = [] := by
  cases h with
  | taken => rfl
  | planEmpty _ take => exact Shared.nextNode_shows_nothing blind take

theorem NoNode.vain_quiet {m : Moment} {sh rest : Shared} {consulted : List Action}
    (h : NoNode m sh rest consulted) :
    ∀ a ∈ consulted ++ [.remark .noNodeForSpeculation], a.isQuiet = true :=
  List.forall_mem_append.mpr ⟨h.quiet, List.forall_mem_singleton.mpr rfl⟩

/-! ## Every step is a move -/

variable {s : Settings} {m : Moment} {r : Running} {σ σ' : State} {event : Event}
  {deeds : List Deed}

theorem goOn_goesOn (r : Running) : GoesOn r (goOn r).1 (goOn r).2 := by
  unfold goOn
  split
  · rename_i ended
    simp only [Bool.and_eq_true, List.isEmpty_iff, Option.isNone_iff_eq_none] at ended
    exact .ended ended.1 ended.2
  · rename_i left
    simp only [Bool.and_eq_true, List.isEmpty_iff, Option.isNone_iff_eq_none] at left
    refine .still ?_
    by_cases h : r.executions = []
    · exact .inr fun ht => left ⟨h, ht⟩
    · exact .inl h

theorem armTimer_armed (now : Instant) (metrics : Metrics) (h : r.timer = none) :
    ∃ timer asked, armTimer s now metrics r = ({ r with timer }, asked) ∧
      Armed s now metrics r.started timer asked := by
  cases hp : s.speculationPolicy with
  | none => exact ⟨none, [], by simp [armTimer, hp, ← h], .unwanted hp⟩
  | some policy => exact ⟨_, _, by simp [armTimer, hp], .asked hp⟩

/-- The end of a request that has no execution left, which asks for the claim first. -/
theorem exhaust_eq (r : Running) :
    exhaust r = (.concluding (exhaustion r),
      Deed.ofRequest [.claim .exhaustion r.shared.claim.isNone,
        .notify (finalNotice (exhaustion r))]) := by
  cases h : r.shared.claim <;>
    simp [exhaust, Shared.tryClaim, Shared.claimed, h, conclude, abandonAll, exhaustion,
      Deed.ofRequest]

theorem begin_move (s : Settings) (m : Moment) :
    Move s m .starting .told (begin s m).1 (begin s m).2 := by
  rcases htake : (freshShared s).nextNode m.liveness with ⟨found, shared, consulted⟩
  have hshared : shared.claim = none ∧ shared.hostErrors = [] := by
    simp only [Shared.nextNode, freshShared, Prod.mk.injEq] at htake
    rw [← htake.2.1]
    exact ⟨rfl, rfl⟩
  cases found with
  | none =>
    have h := Move.findsNothing htake
    simp only [freshShared] at htake
    simpa [begin, htake, exhaust_eq, hshared, exhaustion, finalNotice, Deed.ofRequest]
      using h
  | some node =>
    obtain ⟨timer, asked, harm, armed⟩ := armTimer_armed (s := s)
      (r := { shared, executions := [Execution.new 0 node s.routing.level], started := 1
              deadline := s.requestTimeout.map m.now.after }) m.now m.metrics rfl
    have h := Move.begins htake armed
    simp only [freshShared] at htake
    simpa [begin, htake, launch, harm, Deed.ofRequest] using h

theorem stepExecution_move {index : Nat} {event : ExecutionEvent}
    (h : stepExecution s m r index event = some (σ, deeds)) :
    Move s m (.running r) (.execution index event) σ deeds := by
  simp only [stepExecution, Option.bind_eq_bind, Option.bind_eq_some_iff, Option.pure_def,
    Option.some.injEq, Prod.mk.injEq] at h
  obtain ⟨e, hfind, ⟨sh, progress, actions⟩, hstep, hσ, hdeeds⟩ := h
  have mem := List.mem_of_find?_eq_some hfind
  have hindex : e.index = index := by simpa using List.find?_some hfind
  have turn := Execution.step_turn hstep
  subst hindex
  cases progress with
  | goesOn e' =>
    subst hσ hdeeds
    simpa [Running.replaced] using Move.advances mem turn
  | resolved o =>
    subst hσ hdeeds
    exact .settles mem turn
  | cancelled =>
    subst hσ hdeeds
    exact .cancels mem turn (goOn_goesOn _)
  | exhausted lastIgnored =>
    subst hσ hdeeds
    exact .exhausts mem turn (goOn_goesOn _)

theorem speculate_move (h : speculate s m r = some (σ, deeds)) :
    Move s m (.running r) .speculate σ deeds := by
  simp only [speculate, Option.bind_eq_bind, Option.bind_eq_some_iff] at h
  obtain ⟨t, set, h⟩ := h
  split at h
  · simp at h
  rename_i wait
  have due : t.due ≤ m.now := Instant.le_of_not_lt wait
  cases hc : r.shared.claim with
  | some who =>
    simp only [Shared.claimed, hc, Option.isSome_some, if_true, Option.pure_def,
      Option.some.injEq, Prod.mk.injEq] at h
    obtain ⟨rfl, rfl⟩ := h
    exact .speculatesInVain set due (.taken (by simp [hc])) (goOn_goesOn _)
  | none =>
    rcases htake : r.shared.nextNode m.liveness with ⟨found, sh, consulted⟩
    simp only [Shared.claimed, hc, Option.isSome_none, Bool.false_eq_true, if_false, htake,
      Option.pure_def] at h
    cases found with
    | none =>
      simp only [Option.some.injEq, Prod.mk.injEq] at h
      obtain ⟨rfl, rfl⟩ := h
      exact .speculatesInVain set due (.planEmpty hc htake) (goOn_goesOn _)
    | some node =>
      obtain ⟨timer, asked, harm, armed⟩ := armTimer_armed (s := s)
        (r := (launch s { r with timer := none, shared := sh } node).1) m.now
        (m.metrics.record {} m.now (.speculated ⟨node, r.started, 1⟩ t.delay)).1 rfl
      simp only [harm, Option.some.injEq, Prod.mk.injEq] at h
      obtain ⟨rfl, rfl⟩ := h
      simpa [launch] using Move.speculates set due hc htake rfl armed

theorem timeUp_move (h : timeUp s m r = some (σ, deeds)) :
    Move s m (.running r) .timeUp σ deeds := by
  simp only [timeUp, Option.bind_eq_bind, Option.bind_eq_some_iff] at h
  obtain ⟨d, deadline, limit, bound, h⟩ := h
  split at h
  · simp at h
  rename_i wait
  simp only [Bool.or_eq_true, decide_eq_true_eq, not_or, Bool.not_eq_true] at wait
  have due : d ≤ m.now := Instant.le_of_not_lt wait.2
  cases hc : r.shared.claim with
  | none =>
    simp only [Shared.tryClaim, Shared.claimed, hc, Option.isSome_none, Bool.false_eq_true,
      if_false, Option.pure_def, Option.some.injEq, Prod.mk.injEq] at h
    obtain ⟨rfl, rfl⟩ := h
    exact .timesOut deadline bound wait.1 due hc
  | some who =>
    simp only [Shared.tryClaim, Shared.claimed, hc, Option.isSome_some, if_true,
      Option.pure_def, Option.some.injEq, Prod.mk.injEq] at h
    obtain ⟨rfl, rfl⟩ := h
    exact .timesOutLate deadline bound wait.1 due (by simp [hc])

/-- Whatever a request does in one step is one of its moves. -/
theorem step_move (h : step s m σ event = some (σ', deeds)) :
    Move s m σ event σ' deeds := by
  unfold step at h
  split at h
  · have h' : begin s m = (σ', deeds) := Option.some.inj h
    have hmove := begin_move s m
    rwa [h'] at hmove
  · cases h
    exact .forgoes
  · exact stepExecution_move h
  · exact speculate_move h
  · exact timeUp_move h
  · cases h
    exact .drops
  · cases h
    exact .finishes
  · cases h
    exact .forsakes
  · cases h

end Request

end RequestEngine
