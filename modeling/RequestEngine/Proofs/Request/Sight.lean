/-
  RequestEngine.Proofs.Request.Sight

  What requests look at.  A request whose policy is confined to some nodes tries no
  others and heeds the liveness of these alone, from its first node to its last.  So
  at moments that agree on these nodes, on the time and on the metrics the same
  becomes of it.

    * `Moment.AgreeOn`   — moments that agree on all that a request looks at;
    * `Running.Confined` — a running request that knows of no other nodes, and
      `Run.confines`;
    * `Run.step_agree`   — the same event leads to the same state, with the same
      deeds.
-/
import RequestEngine.Proofs.Balancing.Confined
import RequestEngine.Proofs.Request.Plans

namespace RequestEngine

/-- Moments that agree on the time, on the metrics and on the liveness of some nodes. -/
structure Moment.AgreeOn (nodes : List Node) (m m' : Moment) : Prop where
  now : m.now = m'.now
  metrics : m.metrics = m'.metrics
  liveness : m.liveness.AgreeOn nodes m'.liveness

-- ============================================================================
-- Executions
-- ============================================================================

/-- The plan that executions share is that of the settings, with nothing left but given nodes. -/
structure Shared.Confined (s : Settings) (nodes : List Node) (sh : Shared) : Prop where
  policy : sh.plan.policy = s.balancing
  snapshot : sh.plan.snapshot = s.snapshot
  left : ∀ n ∈ sh.plan.left, n ∈ nodes

section Executions

variable {s : Settings} {nodes : List Node} {deadline : Option Instant} {m m' : Moment}
  {sh sh' : Shared} {e e' : Execution} {event : ExecutionEvent}

theorem Shared.Confined.addError (h : sh.Confined s nodes) (n : Node) (error : AttemptError) :
    (sh.addError n error).Confined s nodes :=
  ⟨h.policy, h.snapshot, h.left⟩

/-- What is taken from the plan is one of these nodes. -/
theorem Shared.Confined.take (h : sh.Confined s nodes)
    (confined : s.balancing.Confined s.snapshot nodes) {live : Liveness} {found : Option Node}
    {consulted : List Action} (take : sh.nextNode live = (found, sh', consulted)) :
    sh'.Confined s nodes ∧ ∀ n, found = some n → n ∈ nodes := by
  have hyields := Plan.next_yields (nextNode_next take)
  rw [← h.policy, ← h.snapshot] at confined
  obtain ⟨hleft, hfound⟩ := hyields.confined confined h.left
  exact ⟨⟨hyields.policy.trans h.policy, hyields.snapshot.trans h.snapshot, hleft⟩, hfound⟩

theorem Shared.Confined.nextNode_agree (h : sh.Confined s nodes)
    (confined : s.balancing.Confined s.snapshot nodes) {live live' : Liveness}
    (agree : live.AgreeOn nodes live') : sh.nextNode live = sh.nextNode live' := by
  rw [← h.policy, ← h.snapshot] at confined
  rw [nextNode, nextNode, Plan.next_agree confined agree h.left]

namespace Execution

variable (confined : s.balancing.Confined s.snapshot nodes)

include confined

/-- An execution goes on with one of these nodes. -/
theorem Onward.confines {lead : List Action} (h : Onward s m sh e event sh' e' lead)
    (shared : sh.Confined s nodes) (own : e.node ∈ nodes) :
    sh'.Confined s nodes ∧ e'.node ∈ nodes := by
  cases h with
  | fresh => exact ⟨shared, own⟩
  | same => exact ⟨⟨shared.policy, shared.snapshot, shared.left⟩, own⟩
  | next _ _ take =>
    obtain ⟨hleft, hfound⟩ := (shared.addError _ _).take confined take
    exact ⟨hleft, hfound _ rfl⟩

theorem Turn.confines {progress : Progress} {actions : List Action}
    (h : Turn s deadline m sh e event ⟨sh', progress, actions⟩) (shared : sh.Confined s nodes)
    (own : e.node ∈ nodes) :
    sh'.Confined s nodes ∧ ∀ e', progress = .goesOn e' → e'.node ∈ nodes := by
  cases h with
  | starts onward =>
    obtain ⟨hshared, hnode⟩ := onward.confines confined shared own
    refine ⟨hshared, ?_⟩
    rintro _ ⟨⟩
    exact hnode
  | stops onward => exact ⟨(onward.confines confined shared own).1, fun _ h => by cases h⟩
  | exhausts _ _ take =>
    exact ⟨((shared.addError _ _).take confined take).1, fun _ h => by cases h⟩
  | asks | sends | fails =>
    refine ⟨shared, ?_⟩
    rintro _ ⟨⟩
    exact own
  | succeeds | rethrows =>
    refine ⟨⟨shared.policy, shared.snapshot, shared.left⟩, ?_⟩
    rintro _ ⟨⟩
    exact own
  | succeedsLate | failsLate | returns | throws => exact ⟨shared, fun _ h => by cases h⟩

variable (shared : sh.Confined s nodes) (agree : m.AgreeOn nodes m')

include shared agree

theorem moveOn_agree (e : Execution) : moveOn m sh e = moveOn m' sh e := by
  have htake := shared.nextNode_agree confined agree.liveness
  simp only [moveOn, htake, startAttempt, agree.now]

theorem follow_agree (own : e.node ∈ nodes) (error : AttemptError) (d : Decision) :
    follow s m sh e error d = follow s m' sh e error d := by
  have hmove := moveOn_agree confined (shared.addError e.node error) agree
  cases d with
  | rethrow => rfl
  | ignore => exact hmove _
  | retryNext level => exact hmove _
  | retrySame level =>
    simp only [follow, agree.liveness e.node own, hmove, startAttempt, agree.now]

/-- An execution on one of these nodes takes the same step at both moments. -/
theorem step_agree (own : e.node ∈ nodes) (deadline : Option Instant) (event : ExecutionEvent) :
    e.step s deadline m sh event = e.step s deadline m' sh event := by
  have hfollow := follow_agree (s := s) confined shared agree own
  obtain ⟨hnow, -, -⟩ := agree
  unfold step
  split
  all_goals
    simp only [startAttempt, fail, receive, succeed, hfollow, hnow]

end Execution

end Executions

-- ============================================================================
-- Requests
-- ============================================================================

namespace Request

variable {s : Settings} {nodes : List Node} {ts : List Transition} {σ σ' : State} {r : Running}
  {m m' : Moment} {event : Event}

/-- A running request whose executions are on given nodes, as is what is left of its plan. -/
structure Running.Confined (s : Settings) (nodes : List Node) (r : Running) : Prop where
  shared : r.shared.Confined s nodes
  tried : ∀ e ∈ r.executions, e.node ∈ nodes

theorem freshShared_confined (s : Settings) (nodes : List Node) :
    (freshShared s).Confined s nodes :=
  ⟨rfl, rfl, fun _ h => absurd h List.not_mem_nil⟩

theorem GoesOn.confines {more : List Deed} (h : GoesOn r σ more) (before : r.Confined s nodes)
    {r' : Running} (running : σ = .running r') : r'.Confined s nodes := by
  cases h with
  | still =>
    cases running
    exact before
  | ended => simp [exhaust_eq] at running

section Confinement

variable (confined : s.balancing.Confined s.snapshot nodes)

include confined

theorem Move.confines {deeds : List Deed} (move : Move s m σ event σ' deeds)
    (before : ∀ r, σ = .running r → r.Confined s nodes) {r' : Running}
    (running : σ' = .running r') : r'.Confined s nodes := by
  cases move with
  | begins take armed =>
    cases running
    obtain ⟨hshared, hfound⟩ := (freshShared_confined s nodes).take confined take
    exact ⟨hshared, List.forall_mem_singleton.mpr (hfound _ rfl)⟩
  | @advances r e e' event sh actions mem turn =>
    cases running
    obtain ⟨hshared, htried⟩ := before r rfl
    obtain ⟨hleft, hnode⟩ := turn.confines confined hshared (htried e mem)
    refine ⟨hleft, fun o ho => ?_⟩
    obtain ⟨o', ho', rfl⟩ := List.mem_map.mp ho
    split
    · exact hnode e' rfl
    · exact htried o' ho'
  | @cancels r e event sh actions σ more mem turn goes =>
    obtain ⟨hshared, htried⟩ := before r rfl
    refine goes.confines ⟨(turn.confines confined hshared (htried e mem)).1, ?_⟩ running
    exact fun o ho => htried o (List.mem_filter.mp ho).1
  | @exhausts r e event sh actions lastIgnored σ more mem turn goes =>
    obtain ⟨hshared, htried⟩ := before r rfl
    refine goes.confines ⟨(turn.confines confined hshared (htried e mem)).1, ?_⟩ running
    exact fun o ho => htried o (List.mem_filter.mp ho).1
  | @speculates r t node sh consulted asked metrics timer set due free take counted armed =>
    cases running
    obtain ⟨hshared, htried⟩ := before r rfl
    obtain ⟨hleft, hfound⟩ := hshared.take confined take
    exact ⟨hleft, List.forall_mem_append.mpr
      ⟨htried, List.forall_mem_singleton.mpr (hfound node rfl)⟩⟩
  | @speculatesInVain r t sh consulted σ more set due noNode goes =>
    obtain ⟨hshared, htried⟩ := before r rfl
    refine goes.confines ⟨?_, htried⟩ running
    cases noNode with
    | taken => exact hshared
    | planEmpty _ take => exact (hshared.take confined take).1
  | @timesOutLate r =>
    cases running
    exact ⟨(before r rfl).shared, (before r rfl).tried⟩
  | findsNothing | forgoes | settles | timesOut | drops | finishes | forsakes => cases running

/-- A request never knows of other nodes than those that its policy is confined to. -/
theorem Run.confines (h : Run s ts (.running r)) : r.Confined s nodes := by
  have hall : ∀ r', State.running r = .running r' → r'.Confined s nodes := by
    refine h.invariant (fun _ σ => ∀ r, σ = .running r → r.Confined s nodes) ?_ ?_
    · intro r hr
      cases hr
    · intro ts m σ event σ' deeds _ ih move r hr
      exact move.confines confined ih hr
  exact hall r rfl

variable (agree : m.AgreeOn nodes m')

include agree

theorem begin_agree : begin s m = begin s m' := by
  have htake := (freshShared_confined s nodes).nextNode_agree confined agree.liveness
  rw [freshShared] at htake
  simp only [begin, htake, agree.now, agree.metrics]

theorem stepExecution_agree (known : r.Confined s nodes) (index : Nat)
    (event : ExecutionEvent) :
    stepExecution s m r index event = stepExecution s m' r index event := by
  rw [stepExecution, stepExecution]
  refine Option.bind_congr fun e he => ?_
  rw [Execution.step_agree confined known.shared agree
    (known.tried e (List.mem_of_find?_eq_some he))]

theorem speculate_agree (known : r.Confined s nodes) : speculate s m r = speculate s m' r := by
  have htake := known.shared.nextNode_agree confined agree.liveness
  simp only [speculate, htake, agree.now, agree.metrics]

/-- At moments that agree on all that a request looks at, an event leads it to the same state with
    the same deeds. -/
theorem Run.step_agree (h : Run s ts σ) (event : Event) :
    Request.step s m σ event = Request.step s m' σ event := by
  cases σ with
  | starting =>
    cases event with
    | told => exact congrArg some (begin_agree confined agree)
    | _ => rfl
  | running r =>
    have hknown := h.confines confined
    cases event with
    | execution index event => exact stepExecution_agree confined agree hknown index event
    | speculate => exact speculate_agree confined agree hknown
    | timeUp => simp only [Request.step, timeUp, agree.now]
    | _ => rfl
  | concluding | finished | dropped => cases event <;> rfl

end Confinement

end Request

end RequestEngine
