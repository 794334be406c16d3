/-
  RequestEngine.Proofs.Request.SingleTarget

  Requests that insist on one target.  The plan has this one node, or none: it is
  asked once when the request begins, and yields the target only if it is up then.
  From there on neither an execution that leaves the target nor the timer of a
  speculative one finds another node, nor the same one again.

    * `Began`, `Run.began`  — how a run begins, and what is done about a request for
      which the plan had no node;
    * `Left`                — an execution has left its node, to which it does not return;
    * `SingleTarget`        — what a request with a single target comes to, and
      `Run.singleTarget`.
-/
import RequestEngine.Proofs.Balancing.SingleTarget
import RequestEngine.Proofs.Request.Exhaustion
import RequestEngine.Proofs.Request.Rest
import RequestEngine.Proofs.Request.Touched
import RequestEngine.Proofs.Request.Work

namespace RequestEngine

namespace Execution

variable {s : Settings} {deadline : Option Instant} {m : Moment} {sh sh' : Shared}
  {e e' : Execution} {event : ExecutionEvent} {actions : List Action}

/-- A failure gets known of an execution that has begun. -/
theorem begun_of_reported (reported : e.reported? event ≠ none) : e.phase ≠ .fresh := by
  intro fresh
  cases event <;> simp [reported?, fresh] at reported

/-- Whoever goes on after a failure makes another attempt. -/
theorem Turn.again (h : Turn s deadline m sh e event ⟨sh', .goesOn e', actions⟩)
    (reported : e.reported? event ≠ none) :
    ∃ x, (actions.filterMap Action.notice?).filterMap Notification.start? = [x] := by
  rw [h.told]
  cases h with
  | starts => exact ⟨_, rfl⟩
  | asks phase => simp [reported?, phase] at reported
  | sends | succeeds => exact absurd rfl reported
  | rethrows fails | fails fails => cases fails <;> exact absurd rfl reported

end Execution

namespace Request

-- ============================================================================
-- How a run begins
-- ============================================================================

/-- The policy is asked to pick a node in a step. -/
def Transition.picks (t : Transition) : Bool :=
  (Deed.notes t.deeds).any PlanNote.isPick

/-- The moment at which the plan was asked for its first node. -/
def firstAsked (ts : List Transition) : Option Moment :=
  (ts.find? Transition.picks).map Transition.moment

/-- How a run begins, and what becomes of a request that never runs. -/
inductive Began (s : Settings) : List Transition → State → Prop where
  | notYet : Began s [] .starting
  /-- The caller left before the plan was asked. -/
  | forgone (m : Moment) : Began s [⟨m, .starting, .drop, .dropped, []⟩] .dropped
  /-- The plan had no node.  From there on nothing is done about the request, unless its caller
      leaves while the outcome is being reported. -/
  | vain {m : Moment} {shared : Shared} {consulted : List Action} {later : List Transition}
      {σ : State} (take : (freshShared s).nextNode m.liveness = (none, shared, consulted))
      (failed : σ ≠ .dropped → σ.outcome? = some (.error (.noHostAvailable [])))
      (idle : later.flatMap Transition.deeds = []) :
      Began s (⟨m, .starting, .told, .concluding (.error (.noHostAvailable [])),
        Deed.ofRequest (consulted ++ [.claim .exhaustion true,
          .notify (.requestFailed (.noHostAvailable []))])⟩ :: later) σ
  /-- The first execution was opened. -/
  | opened {m : Moment} {node : Node} {shared : Shared} {consulted asked : List Action}
      {target σ : State} {later : List Transition}
      (take : (freshShared s).nextNode m.liveness = (some node, shared, consulted)) :
      Began s (⟨m, .starting, .told, target,
        Deed.ofRequest (consulted ++ ([.openExecution 0] ++ asked))⟩ :: later) σ

section Beginnings

variable {s : Settings} {ts : List Transition} {σ : State}

theorem Run.began (h : Run s ts σ) : Began s ts σ := by
  refine h.invariant (Began s) .notYet ?_
  intro ts m σ event σ' deeds _ ih move
  cases ih with
  | notYet =>
    cases move with
    | begins take => exact .opened take
    | findsNothing take => exact .vain take (fun _ => rfl) rfl
    | forgoes => exact .forgone m
  | forgone => cases move
  | @vain m' shared consulted later σ take failed idle =>
    have hquiet : deeds = [] ∧
        (σ' ≠ .dropped → σ'.outcome? = some (.error (.noHostAvailable []))) := by
      cases move with
      | finishes => exact ⟨rfl, fun _ => failed (by simp)⟩
      | forsakes => exact ⟨rfl, fun kept => absurd rfl kept⟩
      | _ => cases failed (by simp)
    refine .vain take hquiet.2 ?_
    show (later ++ [_]).flatMap Transition.deeds = []
    rw [List.flatMap_append, idle, List.flatMap_singleton, List.nil_append, hquiet.1]
  | opened take => exact .opened take

/-- The plan of a request asks its policy when it is asked for the first time. -/
theorem picks_of_take {m : Moment} {found : Option Node} {shared : Shared}
    {consulted more : List Action} {source target : State} {event : Event}
    (take : (freshShared s).nextNode m.liveness = (found, shared, consulted)) :
    Transition.picks ⟨m, source, event, target, Deed.ofRequest (consulted ++ more)⟩ = true := by
  have hasks := Plan.next_new_asks (Shared.nextNode_next take)
  rw [Transition.picks, Deed.notes, Deed.seen_ofRequest, List.filterMap_append, List.any_append,
    hasks, Bool.true_or]

theorem firstAsked_cons {t : Transition} {later : List Transition} (picks : t.picks = true) :
    firstAsked (t :: later) = some t.moment := by
  rw [firstAsked, List.find?_cons_of_pos picks]
  rfl

/-- A run whose first step opens the initial execution has opened it. -/
theorem opened_cons {m : Moment} {consulted asked : List Action} {source target : State}
    {event : Event} {later : List Transition} :
    0 ∈ Deed.opened (log (⟨m, source, event, target,
      Deed.ofRequest (consulted ++ ([.openExecution 0] ++ asked))⟩ :: later)) := by
  rw [log, List.flatMap_cons, Deed.opened_append, Deed.opened_append, Deed.opened_ofRequest]
  simp [Action.opened?]

/-- A running request has opened its first execution. -/
theorem Run.opened_of_running {r : Running} (h : Run s ts (.running r)) :
    0 ∈ Deed.opened (log ts) := by
  cases h.began with
  | vain _ failed => cases failed (by simp)
  | opened => exact opened_cons

theorem Run.begun (h : Run s ts σ) (moved : ts ≠ []) : σ ≠ .starting := by
  cases h with
  | start => exact absurd rfl moved
  | step _ taken => exact (step_move taken).begun

end Beginnings

-- ============================================================================
-- One node
-- ============================================================================

/-- An execution has left its node: the observers got to know of a failure, and no other attempt
    followed at once. -/
def Left (ts : List Transition) : Prop :=
  ∃ t ∈ ts, t.report? ≠ none ∧ Deed.starts t.deeds = []

theorem Left.ne_nil {ts : List Transition} (h : Left ts) : ts ≠ [] := by
  obtain ⟨t, ht, -⟩ := h
  exact List.ne_nil_of_mem ht

instance Left.decidable (ts : List Transition) : Decidable (Left ts) :=
  inferInstanceAs (Decidable (∃ t ∈ ts, t.report? ≠ none ∧ Deed.starts t.deeds = []))

/-- A step in which a failure gets known is one of the execution that it happened to. -/
theorem Transition.of_report {t : Transition} (reported : t.report? ≠ none) :
    ∃ (r : Running) (e : Execution) (event : ExecutionEvent), t.source = .running r ∧
      e ∈ r.executions ∧ t.event = .execution e.index event ∧ e.reported? event ≠ none := by
  obtain ⟨m, source, event, target, deeds⟩ := t
  unfold Transition.report? at reported
  split at reported
  · rename_i r index met hsource hevent
    obtain ⟨p, hp⟩ := Option.ne_none_iff_exists'.mp reported
    obtain ⟨e, hfind, hreport⟩ := Option.bind_eq_some_iff.mp hp
    have hindex : e.index = index := by simpa using List.find?_some hfind
    refine ⟨r, e, met, hsource, List.mem_of_find?_eq_some hfind, hindex ▸ hevent, ?_⟩
    rw [hreport]
    simp
  · exact absurd rfl reported

section OneNode

variable {s : Settings} {ts : List Transition} {m : Moment} {σ σ' : State} {event : Event}
  {deeds : List Deed} {n : Node} (confined : s.balancing.Confined s.snapshot [n])

include confined

theorem offeredHosts_card_le (ts : List Transition) : (offeredHosts s ts).card ≤ 1 := by
  have hsubset : offeredHosts s ts ⊆ {n.host} := by
    intro host hhost
    rw [offeredHosts, List.mem_toFinset] at hhost
    obtain ⟨o, ho, rfl⟩ := List.mem_map.mp hhost
    rw [List.mem_singleton.mp (offers_confined confined ts o ho)]
    exact Finset.mem_singleton_self _
  have hcard := Finset.card_le_card hsubset
  rwa [Finset.card_singleton] at hcard

theorem Run.opened_le_one (h : Run s ts σ) : (Deed.opened (log ts)).length ≤ 1 :=
  h.boundedWork.executions.trans (offeredHosts_card_le confined ts)

/-- There is one execution at most, on this node. -/
theorem Run.only (h : Run s ts σ) {e o : Execution} (he : e ∈ σ.executions)
    (ho : o ∈ σ.executions) : o = e := by
  have hnode : ∀ e ∈ σ.executions, e.node = n := fun e he =>
    List.mem_singleton.mp (h.tried_confined confined e he)
  refine List.inj_on_of_nodup_map h.boundedWork.apart ho he ?_
  rw [hnode o ho, hnode e he]

/-- A request that has no execution left makes no further attempt. -/
theorem Run.stays_over (run : Run s ts σ) (run' : Run s (ts ++ [⟨m, σ, event, σ', deeds⟩]) σ')
    (move : Move s m σ event σ' deeds) (begun : σ ≠ .starting) (ended : σ.executions = []) :
    Deed.starts deeds = [] ∧ σ'.executions = [] := by
  have hopened := run'.opened_le_one confined
  rw [log_concat, Deed.opened_append, List.length_append] at hopened
  have hroute := move.route run.distinct
  generalize Deed.starts deeds = tried, Deed.opened deeds = opened at hroute hopened
  cases hroute with
  | advances mem =>
    rw [State.executions] at ended
    rw [ended] at mem
    cases mem
  | launches _ _ _ opener =>
    -- the only execution was opened before
    rcases opener with ⟨rfl, -⟩ | ⟨r, rfl, -⟩
    · exact absurd rfl begun
    · have hfirst := List.length_pos_of_mem run.opened_of_running
      rw [List.length_singleton] at hopened
      omega
  | quiet fewer =>
    rw [ended] at fewer
    exact ⟨rfl, List.sublist_nil.mp fewer⟩

/-- The execution makes another attempt only while the node is up. -/
theorem Run.up_of_again (run : Run s ts σ) (run' : Run s (ts ++ [⟨m, σ, event, σ', deeds⟩]) σ')
    (move : Move s m σ event σ' deeds) {e : Execution} (mem : e ∈ σ.executions)
    (begun : e.phase ≠ .fresh) {x : HostInfo} (started : x ∈ Deed.starts deeds) :
    m.liveness.isUp n = true := by
  have hnode : x.node = n := by
    refine List.mem_singleton.mp (run'.touched_confined confined _ ?_)
    rw [log_concat, Deed.touched, Deed.seen_append]
    exact List.mem_append_right _ (Deed.node_mem_touched started)
  have hplace : e.node = n := List.mem_singleton.mp (run.tried_confined confined e mem)
  obtain ⟨grants, -, -, htour⟩ := run.tour
  have htried : tries n.host (Deed.starts (log ts)) = e.retries + 1 :=
    hplace ▸ (htour.staying e mem begun).1
  have hrepeats : Repeats ts ⟨m, σ, event, σ', deeds⟩ n :=
    ⟨by rw [htried]; exact Nat.succ_ne_zero _, x, started, hnode⟩
  obtain ⟨_, _, _, _, _, _, up, _⟩ := run.mayRepeat move hrepeats
  exact up

/-- If a failure is known and another attempt made, the node is up. -/
theorem Run.again (h : Run s ts σ) : ∀ t ∈ ts, t.report? ≠ none → Deed.starts t.deeds ≠ [] →
    t.moment.liveness.isUp n = true := by
  induction h with
  | start => exact fun _ ht => absurd ht List.not_mem_nil
  | @step ts m σ σ' event deeds run taken ih =>
    refine List.forall_mem_append.mpr ⟨ih, List.forall_mem_singleton.mpr ?_⟩
    intro reported tried
    obtain ⟨r, e, met, hsource, mem, -, hreport⟩ := Transition.of_report reported
    obtain rfl : σ = .running r := hsource
    obtain ⟨x, hx⟩ := List.exists_mem_of_ne_nil _ tried
    exact run.up_of_again confined (run.step taken) (step_move taken) mem
      (Execution.begun_of_reported hreport) hx

/-- If a failure is known and no other attempt made, no execution is left. -/
theorem Run.leaves (run : Run s ts σ) (move : Move s m σ event σ' deeds)
    (reported : Transition.report? ⟨m, σ, event, σ', deeds⟩ ≠ none)
    (untried : Deed.starts deeds = []) : σ'.executions = [] := by
  obtain ⟨r, e, met, hsource, mem, hevent, hreport⟩ := Transition.of_report reported
  obtain rfl : σ = .running r := hsource
  have own {o : Execution} {event : ExecutionEvent} (ho : o ∈ r.executions)
      (same : Event.execution o.index event = .execution e.index met) : o = e ∧ event = met :=
    ⟨run.only confined mem ho, (Event.execution.inj same).2⟩
  have hothers : r.others e.index = [] := by
    refine List.filter_eq_nil_iff.mpr fun o ho other => ?_
    rw [run.only confined mem ho] at other
    simp at other
  cases move with
  | advances other turn =>
    obtain ⟨rfl, rfl⟩ := own other hevent
    obtain ⟨x, hx⟩ := turn.again hreport
    rw [Deed.starts_ofExecution, hx] at untried
    cases untried
  | settles => rfl
  | cancels other turn goes | exhausts other turn goes =>
    obtain ⟨rfl, rfl⟩ := own other hevent
    have hleft := goes.executions
    rw [hothers] at hleft
    exact List.sublist_nil.mp hleft
  | speculates | speculatesInVain | timesOut | timesOutLate | drops => cases hevent

/-- Once the execution has left the node, none is left, and no attempt is made any more. -/
theorem Run.left (h : Run s ts σ) : (Left ts → σ.executions = []) ∧
    EachAfter (fun before t => Left before → Deed.starts t.deeds = []) ts := by
  induction h with
  | start => exact ⟨fun _ => rfl, .nil⟩
  | @step ts m σ σ' event deeds run taken ih =>
    have hover (left : Left ts) : Deed.starts deeds = [] ∧ σ'.executions = [] := by
      have hbegun : σ ≠ .starting := run.begun left.ne_nil
      exact run.stays_over confined (run.step taken) (step_move taken) hbegun (ih.1 left)
    refine ⟨?_, ih.2.concat fun left => (hover left).1⟩
    rintro ⟨t, ht, reported, untried⟩
    rcases List.mem_append.mp ht with earlier | now
    · exact (hover ⟨t, earlier, reported, untried⟩).2
    · obtain rfl := List.mem_singleton.mp now
      exact run.leaves confined (step_move taken) reported untried

end OneNode

-- ============================================================================
-- Single targets
-- ============================================================================

/-- A request that fails without any attempt, because its plan had no node. -/
structure FailsAtOnce (ts : List Transition) (σ : State) : Prop where
  /-- Its caller gets an error that lists no failed attempts, unless he leaves before. -/
  outcome : σ ≠ .dropped → σ.outcome? = some (.error (.noHostAvailable []))
  told : Deed.notices (log ts) = [.requestStarted, .requestFailed (.noHostAvailable [])]
  untouched : Deed.touched (log ts) = []
  unopened : Deed.opened (log ts) = []

/-- A request that goes to one node only. -/
structure KeepsTo (s : Settings) (n : Node) (ts : List Transition) : Prop where
  attempts : ∀ h ∈ Deed.starts (log ts), h.node = n ∧ h.execution = 0
  touched : ∀ x ∈ Deed.touched (log ts), x = n
  capped : (Deed.starts (log ts)).length ≤ s.sameTargetCap + 1
  /-- Only the initial execution is opened, and no other is announced. -/
  alone : Deed.opened (log ts) = [0] ∧ Deed.announcements (log ts) = []
  /-- After a failure the node is tried again at once, and only if it is up then. -/
  again : ∀ t ∈ ts, t.report? ≠ none → Deed.starts t.deeds ≠ [] → t.moment.liveness.isUp n = true
  /-- Otherwise it is not tried any more, whether or not it comes up later. -/
  left : EachAfter (fun before t => Left before → Deed.starts t.deeds = []) ts

variable {s : Settings} {ts : List Transition} {σ : State}

theorem log_cons_of_idle {t : Transition} {later : List Transition}
    (idle : later.flatMap Transition.deeds = []) : log (t :: later) = start.2 ++ t.deeds := by
  rw [log, List.flatMap_cons, idle, List.append_nil]

/-- A request for which the plan has no node fails at once. -/
theorem FailsAtOnce.of_vain {m : Moment} {source target : State} {event : Event}
    {shared : Shared} {consulted : List Action} {later : List Transition}
    (take : (freshShared s).nextNode m.liveness = (none, shared, consulted))
    (failed : σ ≠ .dropped → σ.outcome? = some (.error (.noHostAvailable [])))
    (idle : later.flatMap Transition.deeds = []) :
    FailsAtOnce (⟨m, source, event, target, Deed.ofRequest (consulted ++
      [.claim .exhaustion true, .notify (.requestFailed (.noHostAvailable []))])⟩ :: later) σ := by
  have hquiet := Execution.nextNode_quiet take
  have hnodes : consulted.filterMap Action.node? = [] :=
    List.filterMap_eq_nil_iff.mpr fun a ha =>
      Action.node?_of_isGeneral (Action.isGeneral_of_isQuiet (hquiet a ha))
  refine ⟨failed, ?_, ?_, ?_⟩ <;> rw [log_cons_of_idle idle]
  · rw [Deed.notices, Deed.seen_append, Deed.seen_ofRequest, List.filterMap_append,
      Action.notice?_blind.quiet hquiet]
    rfl
  · rw [Deed.touched, Deed.seen_append, Deed.seen_ofRequest, List.filterMap_append, hnodes]
    rfl
  · rw [Deed.opened_append, Deed.opened_ofRequest, List.filterMap_append, nextNode_opened take]
    rfl

/-- Without any announcement of a speculative execution, all attempts are of the initial one. -/
theorem Run.initial_of_unannounced (h : Run s ts σ)
    (unannounced : Deed.announcements (log ts) = []) :
    ∀ x ∈ Deed.starts (log ts), x.execution = 0 := by
  intro x hx
  by_contra later
  obtain ⟨notice, hnotice, hstart⟩ := List.mem_filterMap.mp hx
  obtain rfl : notice = .nodeStarted x := by
    cases notice <;> cases hstart
    rfl
  obtain ⟨before, after, hsplit⟩ := List.append_of_mem hnotice
  obtain ⟨host, delay, hmem, -⟩ := h.introduced before _ after hsplit x rfl later
  have hhost : host ∈ Deed.announcements (log ts) := by
    rw [announcements_eq, hsplit]
    exact List.mem_filterMap.mpr ⟨_, List.mem_append_left _ hmem, rfl⟩
  rw [unannounced] at hhost
  cases hhost

/-- A request whose policy is confined to one node keeps to it, if it is opened at all. -/
theorem Run.keepsTo {n : Node} (confined : s.balancing.Confined s.snapshot [n]) (h : Run s ts σ)
    (opened : 0 ∈ Deed.opened (log ts)) : KeepsTo s n ts := by
  have hone : (Deed.opened (log ts)).length = 1 :=
    Nat.le_antisymm (h.opened_le_one confined) (List.length_pos_of_mem opened)
  have hopened : Deed.opened (log ts) = [0] := by
    obtain ⟨index, hindex⟩ := List.length_eq_one_iff.mp hone
    rw [hindex] at opened ⊢
    rw [List.mem_singleton.mp opened]
  have hannounced : Deed.announcements (log ts) = [] := by
    have hcount := h.speculations_eq
    rw [hopened] at hcount
    exact List.length_eq_zero_iff.mp hcount
  have htouched : ∀ x ∈ Deed.touched (log ts), x = n :=
    fun x hx => List.mem_singleton.mp (h.touched_confined confined x hx)
  constructor
  case attempts =>
    intro x hx
    exact ⟨htouched _ (Deed.node_mem_touched hx), h.initial_of_unannounced hannounced x hx⟩
  case touched => exact htouched
  case capped =>
    have hattempts := h.boundedWork.attempts
    have hhosts := offeredHosts_card_le confined ts
    have hbound := Nat.mul_le_mul_right (s.sameTargetCap + 1) hhosts
    omega
  case alone => exact ⟨hopened, hannounced⟩
  case again => exact h.again confined
  case left => exact (h.left confined).2

/-- What a request with a single target comes to. -/
structure SingleTarget (s : Settings) (t : Target) (ts : List Transition) (σ : State) : Prop where
  /-- Before its plan is asked nothing is done, but the caller may leave. -/
  unasked : firstAsked ts = none →
    Deed.notices (log ts) = [.requestStarted] ∧ (σ = .starting ∨ σ = .dropped)
  /-- If the target is not found or is down at that moment, nothing is tried, then or later. -/
  unavailable : ∀ m, firstAsked ts = some m →
    (∀ n, t.Names s.snapshot n → m.liveness.isUp n = false) → FailsAtOnce ts σ
  available : ∀ m, firstAsked ts = some m → ∀ n, t.Names s.snapshot n →
    m.liveness.isUp n = true → KeepsTo s n ts

/-- A request under the policy that insists on a target goes to it, or nowhere. -/
theorem Run.singleTarget {t : Target} {watched : Bool} (h : Run s ts σ)
    (single : s.balancing = { BalancingPolicy.single t with watched }) :
    SingleTarget s t ts σ := by
  have hfound {m : Moment} {found : Option Node} {shared : Shared} {consulted : List Action}
      (take : (freshShared s).nextNode m.liveness = (found, shared, consulted)) :
      found = (t.find s.snapshot).filter m.liveness.isUp := by
    have hbare : (s.balancing.fallback s.routing s.snapshot m.liveness).nodes = [] := by
      rw [single]
      rfl
    have hnext := Plan.next_new_of_bare hbare (Shared.nextNode_next take)
    rwa [single] at hnext
  constructor
  case unasked =>
    intro asked
    cases h.began with
    | notYet => exact ⟨rfl, .inl rfl⟩
    | forgone => exact ⟨rfl, .inr rfl⟩
    | vain take | opened take =>
      rw [firstAsked_cons (picks_of_take take)] at asked
      cases asked
  case unavailable =>
    intro m asked missing
    cases h.began with
    | notYet | forgone => cases asked
    | vain take failed idle => exact .of_vain take failed idle
    | @opened m' node _ _ _ _ _ _ take =>
      rw [firstAsked_cons (picks_of_take take)] at asked
      obtain rfl : m' = m := Option.some.inj asked
      obtain ⟨hfind, hup⟩ := Option.filter_eq_some_iff.mp (hfound take).symm
      rw [missing node (Target.names_iff.mpr hfind)] at hup
      cases hup
  case available =>
    intro m asked n names up
    have hfind : t.find s.snapshot = some n := Target.names_iff.mp names
    cases h.began with
    | notYet | forgone => cases asked
    | @vain m' _ _ _ _ take =>
      rw [firstAsked_cons (picks_of_take take)] at asked
      obtain rfl : m' = m := Option.some.inj asked
      have hnone := hfound take
      rw [hfind, Option.filter_some, if_pos up] at hnone
      cases hnone
    | opened take =>
      have hconfined := (BalancingPolicy.single_confined_target t s.snapshot).watching watched
      rw [← single, hfind] at hconfined
      exact h.keepsTo hconfined opened_cons

/-- The settings of `stubbornSettings` on a cluster without the node that its policy insists on. -/
def insistingSettings : Settings :=
  { stubbornSettings with
    balancing := { BalancingPolicy.single (.node otherNode) with watched := true }
    snapshot := ⟨[default]⟩ }

/-- Two attempts that get no connection and the timer of a speculative execution between them.  The
    target is down when the second failure gets known, and up again after that. -/
def insistingEvents : List (Moment × Event) :=
  eventsAt 0 [.told, .execution 0 .begin, .execution 0 .told] ++ eventsAt 1 [.speculate] ++
    eventsAt 2 (refusedAttempt 0) ++ eventsAt 3 ((refusedAttempt 0).take 1) ++
    [({ now := ⟨⟨4⟩⟩, liveness := ⟨[otherNode.serial]⟩ }, .execution 0 .told)] ++ eventsAt 5 [.told]

/-- The steps of this run. -/
def insistingSteps : List Transition :=
  ((replay insistingSettings [] .starting insistingEvents).map Prod.fst).getD []

/-- What it ends with. -/
def insistingOutcome : Outcome :=
  .error (.noHostAvailable (List.replicate 2
    ⟨otherNode.host, default, .pool .nodeDisabled⟩))

theorem insistingRun : Run insistingSettings insistingSteps (.finished insistingOutcome) :=
  Run.start.replay insistingEvents rfl

/-- A node outside the cluster is tried twice, and not again once it was down. -/
theorem Run.singleTarget_of_insisting :
    SingleTarget insistingSettings (.node otherNode) insistingSteps
        (.finished insistingOutcome) ∧
      insistingSettings.balancing =
          { BalancingPolicy.single (.node otherNode) with watched := true } ∧
        otherNode ∉ insistingSettings.snapshot.nodes ∧
          (firstAsked insistingSteps).map (·.liveness.isUp otherNode) = some true ∧
            (Deed.starts (log insistingSteps)).map HostInfo.node = [otherNode, otherNode] ∧
              Left insistingSteps := by
  refine ⟨Run.singleTarget insistingRun rfl, rfl, ?_, ?_, ?_, ?_⟩
  · decide +kernel
  · decide +kernel
  · decide +kernel
  · decide +kernel

end Request

end RequestEngine
