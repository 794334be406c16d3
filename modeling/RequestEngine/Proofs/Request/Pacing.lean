/-
  RequestEngine.Proofs.Request.Pacing

  The pace at which a request starts its executions.  Each start is followed by
  one question to the speculative execution policy, and each but the first comes
  the answered delay after the one before; nothing starts any more once the
  policy has no delay to give, the plan no node, or the request is resolved.

    * `timeline ts`     — starts, questions and ends of this kind, with their times;
    * `Beat`            — what one step means for the timeline and the timer;
    * `Paced`           — a timeline that keeps the pace, and the starts on it;
    * `Run.pacing`      — every run is paced, and while it runs its timer is set
      for the next start, unless there is to be none.
-/
import Mathlib.Data.List.Chain
import RequestEngine.Proofs.Request.Hosts
import RequestEngine.Proofs.Request.Punctual

namespace RequestEngine

-- ============================================================================
-- The pace of a log
-- ============================================================================

/-- What an action means for the pace of executions: one starts, the policy is asked for the next
    one, or there is to be none any more. -/
inductive Pace where
  | opens (index : Nat)
  | asks (started : Nat) (delay : Option Duration)
  | ends
  deriving DecidableEq, Repr

/-- What an action means for the pace. None is to start after an execution found the plan
    exhausted, the timer found no node, or somebody claimed the resolution. -/
def Action.pace? : Action → Option Pace
  | .openExecution index => some (.opens index)
  | .askDelay started _ delay => some (.asks started delay)
  | .remark .planExhausted | .remark .noNodeForSpeculation | .claim _ true => some .ends
  | _ => none

/-- What a log shows of the pace. -/
abbrev Deed.paces (log : List Deed) : List Pace :=
  seen Action.pace? log

@[simp] theorem Action.pace?_notify (n : Notification) : (notify n).pace? = none := rfl

@[simp] theorem Action.pace?_lost (who : Claimant) : (claim who false).pace? = none := rfl

@[simp] theorem Action.pace?_won (who : Claimant) : (claim who true).pace? = some .ends := rfl

/-- Only a question to the policy shows as one. -/
theorem Action.askDelay_of_pace {a : Action} {started : Nat} {delay : Option Duration}
    (shows : a.pace? = some (.asks started delay)) :
    ∃ warning, a = .askDelay started warning delay := by
  cases a with
  | askDelay =>
    cases shows
    exact ⟨_, rfl⟩
  | remark r => cases r <;> cases shows
  | claim who won => cases won <;> cases shows
  | _ => cases shows

/-- Whoever wins the claim puts an end to speculation. -/
theorem Action.pace?_of_winner {a : Action} {who : Claimant} (wins : a.winner? = some who) :
    a.pace? = some .ends := by
  cases a with
  | claim who won =>
    cases won with
    | true => rfl
    | false => cases wins
  | _ => cases wins

theorem Action.paces_consult (notes : List PlanNote) :
    (notes.map consult).filterMap pace? = [] :=
  consult_shows_nothing (fun _ => rfl) notes

namespace Execution

variable {s : Settings} {deadline : Option Instant} {m : Moment} {sh sh' : Shared}
  {e e' : Execution} {event : ExecutionEvent} {lead : List Action} {advance : Advance}

/-- Asking the plan for a node shows nothing of the pace. -/
theorem nextNode_paces {found : Option Node} {consulted : List Action} {live : Liveness}
    (take : sh.nextNode live = (found, sh', consulted)) :
    consulted.filterMap Action.pace? = [] :=
  Shared.nextNode_shows_nothing (fun _ => rfl) take

theorem MovesOn.paces {d : Decision} {left : List Action} (h : MovesOn s m e d left) :
    left.filterMap Action.pace? = [] := by
  cases h <;> rfl

theorem Onward.paces (h : Onward s m sh e event sh' e' lead) :
    lead.filterMap Action.pace? = [] := by
  cases h with
  | fresh | same => rfl
  | next _ moves take => rw [List.filterMap_append, moves.paces, nextNode_paces take]; rfl

theorem Fails.paces {a : Attempt} {error : AttemptError} {back : List Action}
    (h : Fails s deadline m e event a error back) : back.filterMap Action.pace? = [] := by
  cases h <;> rfl

theorem assess_paces (a : Attempt) (error : AttemptError) :
    (e.assess s m a error).filterMap Action.pace? = [] := by
  cases h : error.wasSent <;> rw [assess, h] <;> rfl

theorem abandon_paces (e : Execution) : e.abandon.filterMap Action.pace? = [] := by
  cases hphase : e.phase <;> simp [abandon, connection?, pending?, hphase, Action.pace?]

/-- An execution starts no other. It lets none follow exactly if it finds the plan exhausted or
    claims the resolution. -/
theorem Turn.paces (h : Turn s deadline m sh e event advance) :
    advance.actions.filterMap Action.pace? = [] ∧ (∀ l, advance.progress ≠ .exhausted l) ∨
      advance.actions.filterMap Action.pace? = [.ends] ∧
        (advance.shared.claim ≠ none ∨ ∃ l, advance.progress = .exhausted l) := by
  cases h with
  | starts onward | stops onward =>
    refine .inl ⟨?_, by simp⟩
    rw [List.filterMap_append, onward.paces]
    rfl
  | exhausts _ moves take =>
    refine .inr ⟨?_, .inr ⟨_, rfl⟩⟩
    rw [List.filterMap_append, moves.paces, List.filterMap_append, nextNode_paces take]
    rfl
  | asks | sends | succeedsLate | returns | throws => exact .inl ⟨rfl, by simp⟩
  | succeeds => exact .inr ⟨rfl, .inl (by simp)⟩
  | rethrows fails =>
    refine .inr ⟨?_, .inl (by simp)⟩
    rw [List.filterMap_append, fails.paces, List.filterMap_append, assess_paces]
    rfl
  | fails fails =>
    refine .inl ⟨?_, by simp⟩
    rw [List.filterMap_append, fails.paces, List.filterMap_append, assess_paces]
    rfl
  | failsLate fails asked =>
    refine .inl ⟨?_, by simp⟩
    rw [List.filterMap_append, fails.paces, List.filterMap_append, assess_paces, asked]
    split <;> rfl

end Execution

namespace Request

-- ============================================================================
-- The pace of one step
-- ============================================================================

/-- The start of an execution, and the policy's answer about the next one. -/
structure Started where
  time : Instant
  delay : Option Duration
  deriving DecidableEq, Repr

/-- What the start of an execution adds to the pace: the policy, if one is in force, is asked
    right after it. -/
def Started.paces (s : Settings) (index : Nat) (x : Started) : List Pace :=
  .opens index :: if s.speculationPolicy.isSome then [.asks (index + 1) x.delay] else []

theorem Started.opens_mem {s : Settings} {index other : Nat} {x : Started} :
    .opens other ∈ x.paces s index ↔ other = index := by
  unfold paces
  split <;> simp

theorem Started.ends_not_mem {s : Settings} {index : Nat} {x : Started} :
    .ends ∉ x.paces s index := by
  unfold paces
  split <;> simp

/-- The timer that an answer sets. -/
def Started.timer? (x : Started) : Option Timer :=
  x.delay.map fun d => ⟨x.time.after d, d⟩

/-- What a step means for the pace and for the timer. -/
inductive Beat (s : Settings) (m : Moment) : State → State → List Deed → Prop where
  /-- The first execution starts. -/
  | begins {r : Running} {notes : List PlanNote} {asked : List Action} (count : r.started = 1)
      (armed : Armed s m.now m.metrics 1 r.timer asked) :
      Beat s m .starting (.running r)
        (Deed.ofRequest (notes.map .consult ++ ([.openExecution 0] ++ asked)))
  /-- The timer starts another one on the next node of the plan. -/
  | launches {r r' : Running} {t : Timer} {node : Node} {notes : List PlanNote}
      {metrics : Metrics} {asked : List Action} (set : r.timer = some t) (due : t.due ≤ m.now)
      (free : r.shared.claim = none)
      (next : r.shared.plan.next m.liveness = (some node, r'.shared.plan, notes))
      (begun : r'.executions = r.executions ++ [Execution.new r.started node s.routing.level])
      (count : r'.started = r.started + 1)
      (counted : metrics =
        (m.metrics.record {} m.now (.speculated ⟨node, r.started, 1⟩ t.delay)).1)
      (armed : Armed s m.now metrics (r.started + 1) r'.timer asked) :
      Beat s m (.running r) (.running r')
        (Deed.ofRequest (notes.map .consult ++
          (.notify (.speculated ⟨node, r.started, 1⟩ t.delay) ::
            ([.openExecution r.started] ++ asked))))
  /-- The timer stays as it is. -/
  | keeps {r r' : Running} {deeds : List Deed} (timer : r'.timer = r.timer)
      (count : r'.started = r.started)
      (unclaimed : r'.shared.claim = none → r.shared.claim = none ∧ Deed.paces deeds = [])
      (ends : ∀ p ∈ Deed.paces deeds, p = .ends) : Beat s m (.running r) (.running r') deeds
  /-- The timer is stopped for good. -/
  | stops {r r' : Running} {deeds : List Deed} (timer : r'.timer = none)
      (count : r'.started = r.started) (some : Deed.paces deeds ≠ [])
      (ends : ∀ p ∈ Deed.paces deeds, p = .ends) : Beat s m (.running r) (.running r') deeds
  /-- The request runs no more. -/
  | closes {σ σ' : State} {deeds : List Deed} (closed : ∀ r, σ' ≠ .running r)
      (begun : σ' ≠ .starting) (ends : ∀ p ∈ Deed.paces deeds, p = .ends) : Beat s m σ σ' deeds

section Beats

variable {s : Settings} {m : Moment} {σ σ' : State} {event : Event} {deeds more : List Deed}
  {r : Running}

@[simp] theorem paces_abandonAll (executions : List Execution) :
    Deed.paces (abandonAll executions) = [] :=
  seen_abandonAll_eq_nil Execution.abandon_paces executions

theorem NoNode.paces {sh rest : Shared} {consulted : List Action}
    (h : NoNode m sh rest consulted) : consulted.filterMap Action.pace? = [] :=
  h.shows_nothing fun _ => rfl

/-- What is asked after a start sets the timer. -/
theorem Armed.paces {now : Instant} {metrics : Metrics} {index : Nat} {timer : Option Timer}
    {asked : List Action} (h : Armed s now metrics (index + 1) timer asked)
    (notes : List PlanNote) (told : List Action) (silent : told.filterMap Action.pace? = []) :
    ∃ x : Started, x.time = now ∧ (s.speculationPolicy = none → x.delay = none) ∧
      timer = x.timer? ∧ Deed.paces (Deed.ofRequest (notes.map .consult ++
        (told ++ ([.openExecution index] ++ asked)))) = x.paces s index := by
  rw [Deed.paces, Deed.seen_ofRequest, List.filterMap_append, Action.paces_consult,
    List.nil_append, List.filterMap_append, silent, List.nil_append]
  cases h with
  | unwanted absent =>
    refine ⟨⟨now, none⟩, rfl, fun _ => rfl, rfl, ?_⟩
    simp [Action.pace?, Started.paces, absent]
  | @asked policy present =>
    refine ⟨⟨now, policy.nextDelay ⟨index + 1, metrics⟩⟩, rfl, by simp [present], rfl, ?_⟩
    simp [Action.pace?, Started.paces, present]

theorem GoesOn.paces (h : GoesOn r σ more) : ∀ p ∈ Deed.paces more, p = .ends := by
  cases h with
  | still => simp
  | ended =>
    rw [exhaust_eq]
    cases r.shared.claim <;> simp [List.filterMap_cons]

/-- The end of an execution, or of the timer, leaves the pace as it was or stops it for good. -/
theorem GoesOn.beat {r r' : Running} {first : List Deed} (goes : GoesOn r' σ more)
    (count : r'.started = r.started) (ends : ∀ p ∈ Deed.paces first, p = .ends)
    (after : r'.timer = none ∧ Deed.paces first ≠ [] ∨ r'.timer = r.timer ∧
      (r'.shared.claim = none → r.shared.claim = none ∧ Deed.paces first = [])) :
    Beat s m (.running r) σ (first ++ more) := by
  have hall : ∀ p ∈ Deed.paces (first ++ more), p = .ends := by
    rw [Deed.paces, Deed.seen_append]
    exact List.forall_mem_append.mpr ⟨ends, goes.paces⟩
  cases goes with
  | still =>
    rw [List.append_nil]
    rcases after with ⟨timer, some⟩ | ⟨timer, unclaimed⟩
    · exact .stops timer count some ends
    · exact .keeps timer count unclaimed ends
  | ended =>
    refine .closes ?_ ?_ hall <;> rw [exhaust_eq] <;> simp

/-- Every step has its beat. -/
theorem Move.beat (move : Move s m σ event σ' deeds) : Beat s m σ σ' deeds := by
  cases move with
  | begins take armed =>
    obtain ⟨notes, -, rfl⟩ := Shared.nextNode_notes take
    exact .begins rfl armed
  | findsNothing take =>
    refine .closes (by simp) (by simp) ?_
    simp [Execution.nextNode_paces take, List.filterMap_cons]
  | forgoes | finishes | forsakes => exact .closes (by simp) (by simp) (by simp)
  | @advances r e e' met sh actions mem turn =>
    have hturn : Deed.paces (Deed.ofExecution e.index actions) = [] ∨
        Deed.paces (Deed.ofExecution e.index actions) = [.ends] ∧ sh.claim ≠ none := by
      rw [Deed.paces, Deed.seen_ofExecution]
      refine turn.paces.imp And.left fun h => ⟨h.1, h.2.resolve_right (by simp)⟩
    rcases hturn with hpaces | ⟨hpaces, htaken⟩
    · -- a claim is never given back
      exact .keeps rfl rfl (fun hfree => ⟨turn.visit.claim hfree, hpaces⟩) (by simp [hpaces])
    · exact .keeps rfl rfl (fun hfree => absurd hfree htaken) (by simp [hpaces])
  | settles mem turn =>
    refine .closes (by simp) (by simp) ?_
    rcases turn.paces with ⟨hpaces, -⟩ | ⟨hpaces, -⟩ <;> simp [hpaces, List.filterMap_cons]
  | cancels mem turn goes =>
    refine goes.beat rfl ?_ (.inr ⟨rfl, ?_⟩)
    · rw [Deed.paces, Deed.seen_ofExecution]
      rcases turn.paces with ⟨hpaces, -⟩ | ⟨hpaces, -⟩ <;> simp [hpaces]
    · -- an execution is cancelled only because somebody has the claim
      intro hfree
      cases turn.effect with
      | none claim _ _ _ late => exact absurd (claim.symm.trans hfree) (late rfl)
  | exhausts mem turn goes =>
    have hpaces := turn.paces.resolve_left fun h => h.2 _ rfl
    refine goes.beat rfl ?_ (.inl ⟨rfl, ?_⟩) <;>
      rw [Deed.paces, Deed.seen_ofExecution, hpaces.1] <;> simp
  | speculates set due free take counted armed =>
    obtain ⟨notes, hnext, rfl⟩ := Shared.nextNode_notes take
    exact .launches set due free hnext rfl rfl counted armed
  | speculatesInVain set due noNode goes =>
    have hfirst {consulted : List Action} (none : consulted.filterMap Action.pace? = []) :
        Deed.paces (Deed.ofRequest (consulted ++ [.remark .noNodeForSpeculation])) = [.ends] := by
      rw [Deed.paces, Deed.seen_ofRequest, List.filterMap_append, none]
      rfl
    refine goes.beat rfl ?_ (.inl ⟨rfl, ?_⟩) <;> rw [hfirst noNode.paces] <;> simp
  | timesOut =>
    refine .closes (by simp) (by simp) ?_
    simp [List.filterMap_cons, Action.pace?]
  | timesOutLate => exact .keeps rfl rfl (fun hfree => ⟨hfree, rfl⟩) (by simp)
  | drops =>
    refine .closes (by simp) (by simp) ?_
    simp [List.filterMap_cons, Action.pace?]

end Beats

-- ============================================================================
-- The pace of a run
-- ============================================================================

/-- What some steps show of the pace, with the time of each step. -/
def timeline (ts : List Transition) : List (Instant × Pace) :=
  ts.flatMap fun t => (Deed.paces t.deeds).map (t.moment.now, ·)

/-- What the starts of executions show of the pace. -/
def paceOf (s : Settings) (starts : List Started) : List (Instant × Pace) :=
  starts.zipIdx.flatMap fun (x, index) => (x.paces s index).map (x.time, ·)

@[simp] theorem timeline_concat (ts : List Transition) (t : Transition) :
    timeline (ts ++ [t]) = timeline ts ++ (Deed.paces t.deeds).map (t.moment.now, ·) := by
  simp [timeline]

theorem map_snd_timeline (ts : List Transition) :
    (timeline ts).map Prod.snd = Deed.paces (log ts) := by
  induction ts using List.reverseRecOn with
  | nil => rfl
  | append_singleton ts t ih =>
    rw [timeline_concat, List.map_append, ih, List.map_map, log_concat]
    simp [Function.comp_def]

theorem paceOf_concat (s : Settings) (starts : List Started) (x : Started) :
    paceOf s (starts ++ [x]) =
      paceOf s starts ++ (x.paces s starts.length).map (x.time, ·) := by
  simp [paceOf, List.zipIdx_append]

/-- One start follows another: the delay that the policy answered after the other has passed, and
    under a punctual clock no more than the tolerance on top of it. -/
def Follows (s : Settings) (ts : List Transition) (x y : Started) : Prop :=
  ∃ delay, x.delay = some delay ∧ x.time.after delay ≤ y.time ∧
    ∀ tolerance, EachAfter (Punctual s tolerance) ts →
      y.time ≤ (x.time.after delay).after tolerance

/-- A timeline that keeps the pace: starts that follow each other, each with its question, and
    after the last of them nothing but ends. -/
structure Paced (s : Settings) (ts : List Transition) (starts : List Started)
    (ended : List (Instant × Pace)) : Prop where
  timeline : timeline ts = paceOf s starts ++ ended
  ends : ∀ p ∈ ended, p.2 = .ends
  chain : starts.IsChain (Follows s ts)
  unasked : s.speculationPolicy = none → ∀ x ∈ starts, x.delay = none

/-- The timer of a running request, after the latest start of an execution: it is set for the
    delay that was answered then, unless no other is to start. -/
structure TimerSet (s : Settings) (ts : List Transition) (r : Running) (latest : Started)
    (ended : List (Instant × Pace)) : Prop where
  set : ∀ t, r.timer = some t → latest.delay = some t.delay ∧ t.due = latest.time.after t.delay
  unclaimed : r.timer ≠ none → r.shared.claim = none → ended = []
  ahead : ∀ t, r.timer = some t → ∀ tolerance, EachAfter (Punctual s tolerance) ts →
    clock ts ≤ t.due.after tolerance
  stopped : r.timer = none → ended ≠ [] ∨ latest.delay = none

/-- The pace of a request in a state. -/
def Pacing (s : Settings) (ts : List Transition) : State → Prop
  | .starting => timeline ts = []
  | .running r => ∃ earlier latest ended, Paced s ts (earlier ++ [latest]) ended ∧
      earlier.length + 1 = r.started ∧ TimerSet s ts r latest ended
  | _ => ∃ starts ended, Paced s ts starts ended

section Paces

variable {s : Settings} {ts : List Transition} {t : Transition} {σ : State}
  {starts earlier : List Started} {latest x : Started} {ended : List (Instant × Pace)}
  {r r' : Running}

theorem Follows.concat {y : Started} (h : Follows s ts x y) : Follows s (ts ++ [t]) x y := by
  obtain ⟨delay, hdelay, hafter, hwithin⟩ := h
  refine ⟨delay, hdelay, hafter, fun tolerance punctual => ?_⟩
  exact hwithin tolerance (EachAfter.concat_iff.mp punctual).1

/-- A step in which no execution starts. -/
theorem Paced.concat (h : Paced s ts starts ended) (only : ∀ p ∈ Deed.paces t.deeds, p = .ends) :
    Paced s (ts ++ [t]) starts (ended ++ (Deed.paces t.deeds).map (t.moment.now, ·)) where
  timeline := by rw [timeline_concat, h.timeline, List.append_assoc]
  ends := by
    refine List.forall_mem_append.mpr ⟨h.ends, fun p hp => ?_⟩
    obtain ⟨pace, hpace, rfl⟩ := List.mem_map.mp hp
    exact only pace hpace
  chain := h.chain.imp fun _ _ => Follows.concat
  unasked := h.unasked

/-- A step in which an execution starts. -/
theorem Paced.launch (h : Paced s ts starts []) (time : x.time = t.moment.now)
    (paces : Deed.paces t.deeds = x.paces s starts.length)
    (unasked : s.speculationPolicy = none → x.delay = none)
    (follows : ∀ y ∈ starts.getLast?, Follows s (ts ++ [t]) y x) :
    Paced s (ts ++ [t]) (starts ++ [x]) [] where
  timeline := by
    rw [timeline_concat, h.timeline, List.append_nil, List.append_nil, paceOf_concat, paces, time]
  ends := by simp
  chain := by
    refine List.isChain_append.mpr ⟨h.chain.imp fun _ _ => Follows.concat, .singleton x, ?_⟩
    intro y hy z hz
    cases hz
    exact follows y hy
  unasked := fun absent =>
    List.forall_mem_append.mpr ⟨h.unasked absent, List.forall_mem_singleton.mpr (unasked absent)⟩

/-- The timer that the latest start has set lies ahead. -/
theorem TimerSet.ofStart (timer : r.timer = latest.timer?) (time : latest.time = t.moment.now) :
    TimerSet s (ts ++ [t]) r latest [] where
  set := by
    intro t' ht'
    rw [timer] at ht'
    obtain ⟨d, hd, rfl⟩ := Option.map_eq_some_iff.mp ht'
    exact ⟨hd, rfl⟩
  unclaimed := fun _ _ => rfl
  ahead := by
    intro t' ht' tolerance _
    rw [timer] at ht'
    obtain ⟨d, -, rfl⟩ := Option.map_eq_some_iff.mp ht'
    rw [clock_concat, ← time]
    exact Instant.le_trans (Instant.le_after ..) (Instant.le_after ..)
  stopped := by
    intro hnone
    rw [timer] at hnone
    exact .inr (Option.map_eq_none_iff.mp hnone)

/-- What the timer was set to stays ahead as long as it is kept. -/
theorem TimerSet.keep (h : TimerSet s ts r latest ended) (source : t.source = .running r)
    (timer : r'.timer = r.timer)
    (unclaimed : r'.shared.claim = none → r.shared.claim = none ∧ Deed.paces t.deeds = []) :
    TimerSet s (ts ++ [t]) r' latest (ended ++ (Deed.paces t.deeds).map (t.moment.now, ·)) where
  set := timer ▸ h.set
  unclaimed := by
    intro hset hfree
    obtain ⟨hbefore, hnone⟩ := unclaimed hfree
    rw [h.unclaimed (timer ▸ hset) hbefore, hnone]
    rfl
  ahead := by
    intro t' ht' tolerance punctual
    rw [timer] at ht'
    obtain ⟨hpunctual, hlast⟩ := EachAfter.concat_iff.mp punctual
    rw [clock_concat]
    refine hlast.ahead ?_ (h.ahead t' ht' tolerance hpunctual)
    rw [source]
    exact timer_mem_alarms ht'
  stopped := by
    intro hnone
    rw [timer] at hnone
    refine (h.stopped hnone).imp_left fun hended => ?_
    exact List.append_ne_nil_of_left_ne_nil hended _

/-- An execution that the timer starts follows the start that set it. -/
theorem TimerSet.follows {timer : Timer} (h : TimerSet s ts r latest ended)
    (source : t.source = .running r) (set : r.timer = some timer)
    (due : timer.due ≤ t.moment.now) (time : x.time = t.moment.now) :
    Follows s (ts ++ [t]) latest x := by
  obtain ⟨hdelay, hdue⟩ := h.set timer set
  refine ⟨timer.delay, hdelay, ?_, fun tolerance punctual => ?_⟩
  · rw [← hdue, time]
    exact due
  · obtain ⟨hpunctual, hlast⟩ := EachAfter.concat_iff.mp punctual
    rw [← hdue, time]
    refine hlast.ahead ?_ (h.ahead timer set tolerance hpunctual)
    rw [source]
    exact timer_mem_alarms set

/-- Every run keeps the pace. -/
theorem Run.pacing (h : Run s ts σ) : Pacing s ts σ := by
  refine h.invariant (Pacing s) rfl ?_
  intro ts m σ event σ' deeds run ih move
  -- whatever state a step starts from, its timeline is paced so far
  have hpaced : ∃ starts ended, Paced s ts starts ended := by
    cases σ with
    | starting => exact ⟨[], [], ih, by simp, .nil, by simp⟩
    | running r =>
      obtain ⟨earlier, latest, ended, hpaced, -⟩ := ih
      exact ⟨_, ended, hpaced⟩
    | concluding | finished | dropped => exact ih
  cases move.beat with
  | begins count armed =>
    obtain ⟨x, htime, hunasked, htimer, hpaces⟩ := armed.paces _ [] rfl
    have hnone : Paced s ts [] [] := ⟨ih, by simp, .nil, by simp⟩
    exact ⟨[], x, [], hnone.launch htime hpaces hunasked (by simp), count.symm,
      .ofStart htimer htime⟩
  | @launches r r' t node notes metrics asked set due free next begun count counted armed =>
    obtain ⟨earlier, latest, ended, hpaced, hcount, htimer⟩ := ih
    obtain rfl := htimer.unclaimed (by simp [set]) free
    have hlength : (earlier ++ [latest]).length = r.started := by
      rw [List.length_append]
      exact hcount
    obtain ⟨x, htime, hunasked, hset, hpaces⟩ := armed.paces notes
      [.notify (.speculated ⟨node, r.started, 1⟩ t.delay)] rfl
    refine ⟨earlier ++ [latest], x, [], hpaced.launch htime (hlength ▸ hpaces) hunasked ?_, ?_,
      .ofStart hset htime⟩
    · intro y hy
      rw [List.getLast?_concat, Option.mem_some_iff] at hy
      exact hy ▸ htimer.follows rfl set due htime
    · rw [hlength]
      exact count.symm
  | keeps timer count unclaimed ends =>
    obtain ⟨earlier, latest, ended, hpaced, hcount, htimer⟩ := ih
    refine ⟨earlier, latest, _, hpaced.concat ends, hcount.trans count.symm, ?_⟩
    exact htimer.keep rfl timer unclaimed
  | stops timer count some ends =>
    obtain ⟨earlier, latest, ended, hpaced, hcount, -⟩ := ih
    refine ⟨earlier, latest, _, hpaced.concat ends, hcount.trans count.symm, ?_⟩
    refine ⟨by simp [timer], fun hset => absurd timer hset, by simp [timer], fun _ => .inl ?_⟩
    exact List.append_ne_nil_of_right_ne_nil _ (by simpa using some)
  | closes closed begun ends =>
    obtain ⟨starts, ended, hpaced⟩ := hpaced
    have hafter := hpaced.concat (t := ⟨m, σ, event, σ', deeds⟩) ends
    cases σ' with
    | starting => exact absurd rfl begun
    | running r => exact absurd rfl (closed r)
    | concluding | finished | dropped => exact ⟨starts, _, hafter⟩

/-- The timeline of every run is paced, and shows as many starts as there were. -/
theorem Run.paced (h : Run s ts σ) : ∃ starts ended, Paced s ts starts ended ∧
    ∀ r, σ = .running r → starts.length = r.started ∧
      ∀ latest ∈ starts.getLast?, TimerSet s ts r latest ended := by
  have hpacing := h.pacing
  cases σ with
  | starting => exact ⟨[], [], ⟨hpacing, by simp, .nil, by simp⟩, by simp⟩
  | running r =>
    obtain ⟨earlier, latest, ended, hpaced, hcount, htimer⟩ := hpacing
    refine ⟨earlier ++ [latest], ended, hpaced, ?_⟩
    rintro _ ⟨⟩
    refine ⟨by rw [List.length_append]; exact hcount, fun x hx => ?_⟩
    rw [List.getLast?_concat, Option.mem_some_iff] at hx
    exact hx ▸ htimer
  | concluding | finished | dropped =>
    obtain ⟨starts, ended, hpaced⟩ := hpacing
    exact ⟨starts, ended, hpaced, by simp⟩

end Paces

end Request

end RequestEngine
