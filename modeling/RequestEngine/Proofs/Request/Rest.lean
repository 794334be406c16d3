/-
  RequestEngine.Proofs.Request.Rest

  Requests between two notifications.  While nothing is being told, everything that
  was told is accounted for: a request in flight has told of no end and no success,
  and one that has ended has told of its end alone, and of one success exactly if
  it succeeded.  A caller whose request waits for no observer cannot drop it at any
  other moment.

    * `State.AtRest`, `DropsAtRest` — nothing is being told, and drops at such
      moments;
    * `Run.settled`                 — the ends and the successes that were told;
    * `Run.speculations_eq`         — the speculative executions that were announced
      are those that were opened.
-/
import RequestEngine.Proofs.Request.Announcement
import RequestEngine.Proofs.Request.Reports

namespace RequestEngine

namespace Request

-- ============================================================================
-- Rest
-- ============================================================================

/-- Nothing is being told to observers, neither of a request as a whole nor of its attempts. -/
structure State.AtRest (σ : State) : Prop where
  overall : σ.telling? = none
  attempts : ∀ e ∈ σ.executions, e.told = []

instance State.decidableAtRest (σ : State) : Decidable σ.AtRest :=
  decidable_of_iff (σ.telling? = none ∧ ∀ e ∈ σ.executions, e.told = [])
    ⟨fun h => ⟨h.1, h.2⟩, fun h => ⟨h.overall, h.attempts⟩⟩

/-- A caller drops a request only while nothing is being told. -/
def DropsAtRest (σ : State) : Event → Prop
  | .drop => σ.AtRest
  | _ => True

instance decidableDropsAtRest (σ : State) (event : Event) : Decidable (DropsAtRest σ event) :=
  match event with
  | .drop => inferInstanceAs (Decidable σ.AtRest)
  | .told | .execution .. | .speculate | .timeUp => .isTrue trivial

/-- The notification of the end of a request that has ended. -/
def State.end? : State → Option Notification
  | .finished o => some (finalNotice o)
  | .dropped => some .requestCancelled
  | _ => none

/-- Whether a request has ended with a result. -/
def State.succeeded : State → Bool
  | .finished (.ok _) => true
  | _ => false

variable {s : Settings} {ts : List Transition} {σ : State} {r : Running}

/-- A running request at rest has told of no end and no success. -/
theorem Pending.unsettled (h : Pending s ts r) (rest : ∀ e ∈ r.executions, e.told = []) :
    Deed.finals (log ts) = [] ∧ Deed.successes (log ts) = [] := by
  refine ⟨h.silent, ?_⟩
  by_cases hfree : r.shared.claim = none
  · exact (h.free hfree).2.1
  · -- who has claimed the resolution tells of its attempt
    obtain ⟨e, he, hverdict⟩ := h.holder hfree
    have htold := rest e he
    unfold Execution.verdict? at hverdict
    split at hverdict <;> simp_all [Execution.told]

theorem GoesOn.ne_dropped {more : List Deed} (h : GoesOn r σ more) : σ ≠ .dropped := by
  cases h with
  | still => simp
  | ended => simp [exhaust_eq]

/-- A request that is dropped at rest was running. -/
theorem Move.dropped {m : Moment} {σ σ' : State} {event : Event} {deeds : List Deed}
    (move : Move s m σ event σ' deeds) (rest : DropsAtRest σ event) (last : σ' = .dropped) :
    ∃ r, σ = .running r ∧ event = .drop ∧ deeds = abandonAll r.executions ++
      Deed.ofRequest [.remark .droppedUnresolved, .notify .requestCancelled] := by
  cases move with
  | forgoes | forsakes => cases rest.overall
  | drops => exact ⟨_, rfl, rfl, rfl⟩
  | cancels _ _ goes | exhausts _ _ goes | speculatesInVain _ _ _ goes =>
    exact absurd last goes.ne_dropped
  | begins | findsNothing | advances | settles | speculates | timesOut | timesOutLate
  | finishes => cases last

/-- A request at rest has told of its end, if it has ended, and of one success, if it has
    succeeded. -/
theorem Run.settled (h : Run s ts σ) (drops : ∀ t ∈ ts, DropsAtRest t.source t.event)
    (rest : σ.AtRest) : Deed.finals (log ts) = σ.end?.toList ∧
      (Deed.successes (log ts)).length = if σ.succeeded then 1 else 0 := by
  have hstanding := h.standing
  cases hσ : σ with
  | starting | concluding =>
    subst hσ
    cases rest.overall
  | running r =>
    subst hσ
    obtain ⟨hfinals, hsuccesses⟩ := hstanding.unsettled rest.attempts
    rw [hfinals, hsuccesses]
    exact ⟨rfl, rfl⟩
  | finished o =>
    subst hσ
    obtain ⟨who, hdecided, hfinals⟩ := hstanding
    refine ⟨hfinals, ?_⟩
    cases o with
    | ok answer =>
      obtain ⟨index, number, -, hsuccesses⟩ := hdecided.succeeded answer rfl
      rw [hsuccesses]
      rfl
    | error error =>
      rw [hdecided.failed error rfl]
      rfl
  | dropped =>
    cases h with
    | start => cases hσ
    | step run taken =>
      -- it was running and at rest when it was dropped, so nothing but the drop was told
      have hrest := drops _ (List.mem_append_right _ (List.mem_singleton_self _))
      have hmove := step_move taken
      obtain ⟨r, rfl, rfl, rfl⟩ := hmove.dropped hrest hσ
      obtain ⟨hfinals, hsuccesses⟩ := run.standing.unsettled hrest.attempts
      have hneutral := Deed.neutral_abandonAll r.executions
      simp only [log_concat, Deed.finals, Deed.successes, Deed.seen_append] at hfinals hsuccesses ⊢
      rw [hfinals, hsuccesses, ← Deed.finals, ← Deed.successes, hneutral.finals,
        hneutral.successes]
      exact ⟨rfl, rfl⟩

-- ============================================================================
-- Speculative executions
-- ============================================================================

theorem GoesOn.announced {more : List Deed} (h : GoesOn r σ more) :
    Deed.announcements more = [] := by
  cases h with
  | still => rfl
  | ended =>
    rw [exhaust_eq]
    cases exhaustion r <;> rfl

/-- A step announces the speculative execution that it opens, and no other. -/
theorem Move.speculations {m : Moment} {σ σ' : State} {event : Event} {deeds : List Deed}
    (move : Move s m σ event σ' deeds) (started : ∀ r, σ = .running r → 0 < r.started) :
    (Deed.announcements deeds).length = (Deed.opened deeds).countP (· ≠ 0) := by
  cases move with
  | @begins _ _ consulted asked _ take armed =>
    have hopened : Deed.opened (Deed.ofRequest (consulted ++ ([.openExecution 0] ++ asked))) =
        [0] := opened_launch take armed [] rfl 0
    rw [hopened, Deed.announcements, Deed.seen_ofRequest,
      Action.announced?_blind.quiet (armed.beginning_quiet take 0)]
    rfl
  | findsNothing take =>
    rw [Deed.announcements, Deed.seen_ofRequest, List.filterMap_append,
      Action.announced?_blind.quiet (Execution.nextNode_quiet take), Deed.opened_ofRequest,
      List.filterMap_append, nextNode_opened take]
    rfl
  | forgoes | finishes | forsakes | timesOutLate => rfl
  | advances mem turn =>
    have hnone := turn.announced?
    simp [hnone]
  | @settles r e event sh actions o mem turn =>
    have hnone := turn.announced?
    cases o <;> simp [hnone, seen_abandonAll Action.announced?_blind, List.filterMap_cons,
      finalNotice, Action.announced?, Action.opened?]
  | cancels mem turn goes | exhausts mem turn goes =>
    have hnone := turn.announced?
    simp [hnone, goes.announced, goes.idle.2]
  | @speculates r t node sh consulted asked metrics timer set due free take counted armed =>
    have hpos : r.started ≠ 0 := Nat.ne_of_gt (started r rfl)
    have hopened : Deed.opened (Deed.ofRequest (consulted ++
        (.notify (.speculated ⟨node, r.started, 1⟩ t.delay) ::
          ([.openExecution r.started] ++ asked)))) = [r.started] :=
      opened_launch take armed [.notify (.speculated ⟨node, r.started, 1⟩ t.delay)] rfl r.started
    rw [hopened, Deed.announcements, seen_speculation Action.announced?_blind take armed]
    simp [Action.announced?, hpos]
  | speculatesInVain _ _ noNode goes =>
    rw [Deed.announcements, Deed.seen_append, Deed.seen_ofRequest,
      Action.announced?_blind.quiet noNode.vain_quiet, ← Deed.announcements, goes.announced,
      Deed.opened_append, goes.idle.2, Deed.opened_ofRequest, noNode.opens_nothing]
    rfl
  | timesOut | drops =>
    simp [seen_abandonAll Action.announced?_blind, List.filterMap_cons, Action.announced?,
      Action.opened?]

/-- The speculative executions that are announced are those that are opened. -/
theorem Run.speculations_eq (h : Run s ts σ) :
    (Deed.announcements (log ts)).length = (Deed.opened (log ts)).countP (· ≠ 0) := by
  refine h.invariant (fun ts _ => (Deed.announcements (log ts)).length =
    (Deed.opened (log ts)).countP (· ≠ 0)) rfl ?_
  intro ts m σ event σ' deeds run ih move
  have hmove := move.speculations fun r hr => Run.started_pos (hr ▸ run)
  rw [log_concat, Deed.announcements, Deed.seen_append, List.length_append,
    Deed.opened_append, List.countP_append, ← hmove, ← ih]

end Request

end RequestEngine
