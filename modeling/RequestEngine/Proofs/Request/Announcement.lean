/-
  RequestEngine.Proofs.Request.Announcement

  What a request tells its observers about itself: its start, and then its
  outcome or that its caller left.  Executions tell of their attempts meanwhile,
  which concerns no announcement.

    * `State.telling?` — what is being announced while the request waits for its
      observers;
    * `Aside`          — deeds that announce nothing;
    * `Announces`      — what a step announces; `Move.announces` says that every
      step is one of these.
-/
import RequestEngine.Proofs.Observation.Delivery
import RequestEngine.Proofs.Request.Protocol

namespace RequestEngine

-- ============================================================================
-- What a step announces
-- ============================================================================

/-- What a request is announcing to its observers as a whole. -/
def Request.State.telling? : Request.State → Option Notification
  | .starting => some .requestStarted
  | .concluding o => some (finalNotice o)
  | _ => none

@[simp] theorem Request.isFinal_finalNotice (o : Outcome) : (finalNotice o).isFinal = true := by
  cases o <;> rfl

@[simp] theorem Request.isOverall_finalNotice (o : Outcome) :
    (finalNotice o).isOverall = true := by
  cases o <;> rfl

@[simp] theorem Request.suspends_finalNotice (o : Outcome) :
    (finalNotice o).callback.suspends = true := by
  cases o <;> rfl

theorem Request.isOverall_of_telling {σ : State} {n : Notification}
    (h : σ.telling? = some n) : n.isOverall = true := by
  cases σ with
  | starting =>
    cases h
    rfl
  | concluding o =>
    cases h
    exact isOverall_finalNotice o
  | running | finished | dropped => cases h

/-- Deeds that announce nothing about the request as a whole: executions tell of their attempts,
    and what the request tells itself suspends nobody. -/
def Aside (deeds : List Deed) : Prop :=
  ∀ d ∈ deeds, ∀ n, d.action = .notify n →
    n.isOverall = false ∧ (n.callback.suspends = true → d.execution ≠ none)

namespace Aside

variable {deeds more : List Deed} {actions : List Action} {index : Nat}

theorem append (h : Aside deeds) (h' : Aside more) : Aside (deeds ++ more) :=
  List.forall_mem_append.mpr ⟨h, h'⟩

/-- Deeds without notifications. -/
theorem of_silent (silent : ∀ d ∈ deeds, d.action.notice? = none) : Aside deeds := by
  intro d hd n hn
  have hsilent := silent d hd
  rw [hn] at hsilent
  cases hsilent

theorem of_quiet (quiet : ∀ a ∈ actions, a.isQuiet = true) : Aside (Deed.ofRequest actions) :=
  of_silent fun _ hd =>
    Action.notice?_blind _ (Action.isInner_of_isQuiet (quiet _ (Deed.mem_ofRequest.mp hd).2))

end Aside

namespace Request

/-- What a step of a request announces. -/
inductive Announces : State → Event → State → List Deed → Prop where
  | begins {r : Running} {deeds : List Deed} (aside : Aside deeds) :
      Announces .starting .told (.running r) deeds
  | runs {r r' : Running} {event : Event} {deeds : List Deed} (aside : Aside deeds) :
      Announces (.running r) event (.running r') deeds
  | ends {σ : State} {event : Event} {o : Outcome} {lead : List Deed}
      (source : σ = .starting ∧ event = .told ∨ ∃ r, σ = .running r) (aside : Aside lead) :
      Announces σ event (.concluding o) (lead ++ [⟨none, .notify (finalNotice o)⟩])
  | cancels {r : Running} {lead : List Deed} (aside : Aside lead) :
      Announces (.running r) .drop .dropped (lead ++ [⟨none, .notify .requestCancelled⟩])
  | forgoes : Announces .starting .drop .dropped []
  | finishes {o : Outcome} : Announces (.concluding o) .told (.finished o) []
  | forsakes {o : Outcome} : Announces (.concluding o) .drop .dropped []

section Steps

variable {s : Settings} {m : Moment} {σ σ' : State} {event : Event} {deeds : List Deed}
  {r : Running}

theorem aside_abandonAll (executions : List Execution) : Aside (abandonAll executions) := by
  refine .of_silent fun d hd => ?_
  obtain ⟨e, -, hd⟩ := List.mem_flatMap.mp hd
  exact Action.notice?_blind _ (e.abandon_inner _ (Deed.mem_ofExecution.mp hd).2)

/-- Executions tell of their attempts only. -/
theorem aside_turn {e : Execution} {deadline : Option Instant} {sh sh' : Shared}
    {event : ExecutionEvent} {progress : Progress} {actions : List Action}
    (turn : e.Turn s deadline m sh event ⟨sh', progress, actions⟩) :
    Aside (Deed.ofExecution e.index actions) := by
  intro d hd n hn
  obtain ⟨hindex, hmem⟩ := Deed.mem_ofExecution.mp hd
  have htold : n ∈ progress.told := by
    rw [← turn.told]
    exact List.mem_filterMap.mpr ⟨d.action, hmem, by rw [hn]; rfl⟩
  refine ⟨?_, fun _ => by simp [hindex]⟩
  cases progress with
  | goesOn e' => cases n <;> first | rfl | cases Execution.told_execution htold
  | resolved | cancelled | exhausted => cases htold

theorem GoesOn.announces {first more : List Deed} {r' : Running} (h : GoesOn r' σ more)
    (aside : Aside first) : Announces (.running r) event σ (first ++ more) := by
  cases h with
  | still =>
    rw [List.append_nil]
    exact .runs aside
  | ended =>
    rw [exhaust_eq, Deed.ofRequest, List.map_cons, List.append_cons]
    refine .ends (.inr ⟨r, rfl⟩) (aside.append ?_)
    exact .of_silent (List.forall_mem_singleton.mpr rfl)

/-- Every step announces one of these. -/
theorem Move.announces (move : Move s m σ event σ' deeds) : Announces σ event σ' deeds := by
  cases move with
  | begins take armed =>
    exact .begins (.of_quiet (armed.beginning_quiet take 0))
  | @findsNothing shared consulted take =>
    rw [Deed.ofRequest, List.map_append, List.map_cons, List.append_cons]
    refine .ends (o := .error _) (.inl ⟨rfl, rfl⟩) (Aside.append ?_ ?_)
    · exact .of_quiet (Execution.nextNode_quiet take)
    · exact .of_silent (List.forall_mem_singleton.mpr rfl)
  | forgoes => exact .forgoes
  | advances mem turn => exact .runs (aside_turn turn)
  | settles mem turn =>
    -- the other executions are dropped before the outcome is announced
    rw [← List.append_assoc]
    exact .ends (.inr ⟨_, rfl⟩) ((aside_turn turn).append (aside_abandonAll _))
  | cancels mem turn goes | exhausts mem turn goes => exact goes.announces (aside_turn turn)
  | speculates set due free take counted armed =>
    refine .runs ?_
    rw [Deed.ofRequest, List.map_append, List.map_cons]
    refine (Aside.of_quiet (Execution.nextNode_quiet take)).append ?_
    refine List.forall_mem_cons.mpr ⟨?_, Aside.of_quiet (armed.opening_quiet _)⟩
    rintro _ ⟨⟩
    refine ⟨rfl, ?_⟩
    rintro ⟨⟩
  | speculatesInVain set due noNode goes =>
    exact goes.announces (.of_quiet noNode.vain_quiet)
  | timesOut =>
    rw [← List.append_assoc]
    refine .ends (o := .error _) (.inr ⟨_, rfl⟩) (Aside.append ?_ (aside_abandonAll _))
    exact .of_silent (by simp [Deed.ofRequest])
  | timesOutLate => exact .runs (.of_silent (by simp [Deed.ofRequest]))
  | drops =>
    rw [Deed.ofRequest, List.map_cons, List.append_cons]
    refine .cancels ((aside_abandonAll _).append ?_)
    exact .of_silent (List.forall_mem_singleton.mpr rfl)
  | finishes => exact .finishes
  | forsakes => exact .forsakes

end Steps

end Request

end RequestEngine
