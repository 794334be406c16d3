/-
  RequestEngine.Proofs.Request.Touched

  The nodes that a request has to do with.  An execution asks for connections,
  sends, and reports about the node that it is on; the request as a whole does
  nothing of this kind.  So no node is touched but those that executions are on, and
  under a policy that is confined to some nodes these are among them.

    * `Deed.touched`         — the nodes that deeds are about;
    * `Turn.actOn`           — what one turn touches, and `Move.touched` one step;
    * `Run.touched_confined` — what a whole run touches.
-/
import RequestEngine.Proofs.Request.Hosts
import RequestEngine.Proofs.Request.Sight

namespace RequestEngine

-- ============================================================================
-- Nodes that are touched
-- ============================================================================

/-- The node that an action is about: a connection to it is asked for, used or given back, the
    policy or the observers are told of an attempt on it. -/
def Action.node? : Action → Option Node
  | .askConnection n | .acquired n _ | .acquireFailed n _ | .send n _ _ _ | .release n _
  | .reportSuccess _ n _ | .reportFailure _ n _ _ => some n
  | .notify n => n.attempt?.map HostInfo.node
  | _ => none

/-- The nodes that deeds are about, in order. -/
abbrev Deed.touched (log : List Deed) : List Node :=
  seen Action.node? log

theorem Action.node?_of_isGeneral {a : Action} (h : a.isGeneral = true) : a.node? = none := by
  cases a with
  | notify n =>
    have hnone : n.attempt? = none := Option.isNone_iff_eq_none.mp h
    rw [node?, hnone]
    rfl
  | _ => first | rfl | cases h

theorem Deed.node_mem_touched {log : List Deed} {h : HostInfo} (started : h ∈ starts log) :
    h.node ∈ touched log := by
  obtain ⟨n, hn, hstart⟩ := List.mem_filterMap.mp started
  obtain ⟨d, hd, hnotice⟩ := mem_seen.mp hn
  refine mem_seen.mpr ⟨d, hd, ?_⟩
  cases haction : d.action <;> rw [haction] at hnotice <;> cases hnotice
  cases n <;> cases hstart
  rfl

namespace Execution

variable {s : Settings} {deadline : Option Instant} {m : Moment} {sh sh' : Shared}
  {e e' : Execution} {event : ExecutionEvent} {lead actions : List Action} {progress : Progress}

/-- Actions that are about no node but one that meets a condition. -/
def ActOn (place : Node → Prop) (actions : List Action) : Prop :=
  ∀ a ∈ actions, ∀ n, a.node? = some n → place n

section Touches

variable {place : Node → Prop}

theorem ActOn.append {more : List Action} (h : ActOn place actions) (h' : ActOn place more) :
    ActOn place (actions ++ more) :=
  List.forall_mem_append.mpr ⟨h, h'⟩

theorem ActOn.of_quiet (quiet : ∀ a ∈ actions, a.isQuiet = true) : ActOn place actions := by
  intro a ha n hn
  rw [Action.node?_of_isGeneral (Action.isGeneral_of_isQuiet (quiet a ha))] at hn
  cases hn

theorem Fails.actOn {a : Attempt} {error : AttemptError} {back : List Action}
    (h : Fails s deadline m e event a error back) (own : place e.node) : ActOn place back := by
  cases h <;> simpa [ActOn, Action.node?] using own

theorem assess_actOn (a : Attempt) (error : AttemptError) (own : place e.node) :
    ActOn place (e.assess s m a error) := by
  cases hsent : error.wasSent <;> simp [ActOn, assess, hsent, Action.node?, own]

theorem abandon_actOn (own : place e.node) : ActOn place e.abandon := by
  intro a ha n hn
  simp only [abandon, List.mem_append, Option.mem_toList, Option.map_eq_some_iff] at ha
  rcases ha with ⟨c, -, rfl⟩ | ⟨a, -, rfl⟩ <;> cases hn
  exact own

/-- An execution touches no node but the one that it is on and the one that it goes on with. -/
theorem Turn.actOn (h : Turn s deadline m sh e event ⟨sh', progress, actions⟩)
    (own : place e.node) (next : ∀ e', progress = .goesOn e' → place e'.node) :
    ActOn place actions := by
  cases h with
  | @starts _ _ e' _ onward =>
    have hnext : place e'.node := next (e'.announce m.now) rfl
    exact (ActOn.of_quiet onward.quiet).append
      (by simpa [ActOn, Action.node?, Notification.attempt?, host] using hnext)
  | stops onward => exact .of_quiet onward.stopping_quiet
  | exhausts _ moves take => exact .of_quiet (moves.exhausting_quiet take)
  | rethrows fails | fails fails =>
    refine (fails.actOn own).append ((assess_actOn _ _ own).append ?_)
    simpa [ActOn, Action.node?, Notification.attempt?, host] using own
  | failsLate fails asked =>
    subst asked
    refine (fails.actOn own).append ((assess_actOn _ _ own).append ?_)
    split <;> simp [ActOn, Action.node?]
  | asks | sends | succeeds | succeedsLate | returns | throws =>
    simp [ActOn, Action.node?, Notification.attempt?, host, own]

end Touches

end Execution

namespace Request

section Steps

variable {s : Settings} {ts : List Transition} {m : Moment} {σ σ' : State} {event : Event}
  {deeds : List Deed} {place : Node → Prop}

/-- A step touches no node but those that executions are on before or after it. -/
theorem Move.touched (move : Move s m σ event σ' deeds) (before : ∀ e ∈ σ.executions, place e.node)
    (after : ∀ e ∈ σ'.executions, place e.node) : ∀ n ∈ Deed.touched deeds, place n := by
  have hplaces := move.forall_deeds (P := fun d => ∀ n, d.action.node? = some n → place n) ?_ ?_ ?_
  · intro n hn
    obtain ⟨d, hd, hnode⟩ := Deed.mem_seen.mp hn
    exact hplaces d hd n hnode
  · -- what the request does as a whole is about no node
    intro a general n hnode
    rw [Action.node?_of_isGeneral general] at hnode
    cases hnode
  · rintro r e met advance rfl mem - turn next
    exact turn.actOn (before e mem) fun e' goes => after e' (next e' goes)
  · rintro r e rfl mem
    exact Execution.abandon_actOn (before e mem)

section Confinement

variable {nodes : List Node} (confined : s.balancing.Confined s.snapshot nodes)

include confined

theorem offers_confined (ts : List Transition) : ∀ n ∈ offers s ts, n ∈ nodes := by
  intro n hn
  obtain ⟨t, -, hoffered⟩ := List.mem_flatMap.mp hn
  obtain ⟨note, -, hnote⟩ := List.mem_flatMap.mp hoffered
  exact confined.offers s.routing t.moment.liveness note n hnote

theorem Run.tried_confined (h : Run s ts σ) : ∀ e ∈ σ.executions, e.node ∈ nodes := by
  cases σ with
  | running r => exact (h.confines confined).tried
  | _ => exact fun _ he => absurd he List.not_mem_nil

/-- A request touches no nodes but those that its policy is confined to. -/
theorem Run.touched_confined (h : Run s ts σ) : ∀ n ∈ Deed.touched (log ts), n ∈ nodes := by
  induction h with
  | start => exact fun _ hn => absurd hn List.not_mem_nil
  | step run taken ih =>
    have hmove := (step_move taken).touched (run.tried_confined confined)
      ((run.step taken).tried_confined confined)
    rw [log_concat, Deed.touched, Deed.seen_append]
    exact List.forall_mem_append.mpr ⟨ih, hmove⟩

end Confinement

end Steps

end Request

end RequestEngine
