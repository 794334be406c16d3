/-
  RequestEngine.Proofs.Request.Plans

  The plan that the executions of a request share.  Whoever needs a node, an
  execution that goes on or the timer of the next one, asks the same plan, and
  a step asks it at most once (`Move.draws`).

    * `given ts`    — the hosts that the plan has yielded, in order;
    * `offers s ts` — the nodes that the policy offered when the plan asked it;
    * `Drawn`       — no host is given twice, none that was not offered, and all
      the policy is told of the request is the same each time.
-/
import RequestEngine.Proofs.Balancing.Plan
import RequestEngine.Proofs.Request.Run

namespace RequestEngine

/-- The note about the plan that an action is. -/
def Action.note? : Action → Option PlanNote
  | .consult note => some note
  | _ => none

/-- The notes about the plan, in order. -/
abbrev Deed.notes (log : List Deed) : List PlanNote :=
  seen Action.note? log

-- ============================================================================
-- One step
-- ============================================================================

/-- Asking the shared plan for a node is asking the plan, as the notes show that it leaves. -/
theorem Shared.nextNode_next {sh sh' : Shared} {live : Liveness} {found : Option Node}
    {consulted : List Action} (take : sh.nextNode live = (found, sh', consulted)) :
    sh.plan.next live = (found, sh'.plan, consulted.filterMap Action.note?) := by
  obtain ⟨notes, hnext, rfl⟩ := nextNode_notes take
  have hnotes : (notes.map Action.consult).filterMap Action.note? = notes := by
    rw [List.filterMap_map]
    exact List.filterMap_some
  rw [hnotes, hnext]

namespace Execution

variable {s : Settings} {deadline : Option Instant} {m : Moment} {sh sh' : Shared}
  {e e' : Execution} {event : ExecutionEvent} {lead : List Action} {advance : Advance}

theorem MovesOn.notes {d : Decision} {left : List Action} (h : MovesOn s m e d left) :
    left.filterMap Action.note? = [] := by
  cases h <;> rfl

theorem Fails.notes {a : Attempt} {error : AttemptError} {back : List Action}
    (h : Fails s deadline m e event a error back) : back.filterMap Action.note? = [] := by
  cases h <;> rfl

theorem assess_notes (a : Attempt) (error : AttemptError) :
    (e.assess s m a error).filterMap Action.note? = [] := by
  cases h : error.wasSent <;> rw [assess, h] <;> rfl

theorem abandon_notes (e : Execution) : e.abandon.filterMap Action.note? = [] := by
  cases hphase : e.phase <;> simp [abandon, connection?, pending?, hphase, Action.note?]

theorem Onward.draws (h : Onward s m sh e event sh' e' lead) :
    sh.plan.Draws m.liveness sh'.plan (lead.filterMap Action.note?) := by
  cases h with
  | fresh | same => exact .refl ..
  | next _ moves take =>
    have hdraws := Plan.draws_of_next (Shared.nextNode_next take)
    rw [List.filterMap_append, moves.notes]
    exact hdraws

/-- A turn takes at most one node from the plan. -/
theorem Turn.draws (h : Turn s deadline m sh e event advance) :
    sh.plan.Draws m.liveness advance.shared.plan (advance.actions.filterMap Action.note?) := by
  cases h with
  | starts onward | stops onward =>
    rw [List.filterMap_append]
    exact (List.append_nil _).symm ▸ onward.draws
  | exhausts _ moves take =>
    have hdraws := Plan.draws_of_next (Shared.nextNode_next take)
    rw [List.filterMap_append, moves.notes, List.filterMap_append]
    exact (List.append_nil _).symm ▸ hdraws
  | asks | sends | succeeds | succeedsLate | returns | throws => exact .refl ..
  | rethrows fails | fails fails =>
    rw [List.filterMap_append, fails.notes, List.filterMap_append, assess_notes]
    exact .refl ..
  | failsLate fails asked =>
    rw [List.filterMap_append, fails.notes, List.filterMap_append, assess_notes, asked]
    split <;> exact .refl ..

end Execution

namespace Request

/-- The plan of a request that may still take nodes from it. -/
def State.plan? (s : Settings) : State → Option Plan
  | .starting => some (freshShared s).plan
  | .running r => some r.shared.plan
  | _ => none

/-- What a step does about the plan: it takes at most one node, or the request needs none any
    more. -/
inductive Draws (s : Settings) (m : Moment) (σ σ' : State) (notes : List PlanNote) : Prop where
  | takes {p p' : Plan} (source : σ.plan? s = some p) (draws : p.Draws m.liveness p' notes)
      (target : ∀ r, σ' = .running r → r.shared.plan = p')
  | closes (target : ∀ r, σ' ≠ .running r) (quiet : notes = [])

@[simp] theorem notes_abandonAll (executions : List Execution) :
    Deed.seen Action.note? (abandonAll executions) = [] :=
  seen_abandonAll_eq_nil Execution.abandon_notes executions

section Moves

variable {s : Settings} {m : Moment} {σ σ' : State} {event : Event} {deeds more : List Deed}
  {r : Running}

theorem Armed.notes {now : Instant} {metrics : Metrics} {started : Nat} {timer : Option Timer}
    {asked : List Action} (h : Armed s now metrics started timer asked) :
    asked.filterMap Action.note? = [] := by
  cases h <;> rfl

/-- A request that goes on keeps the plan it has, and one that ends has none. -/
theorem GoesOn.plan (h : GoesOn r σ more) : Deed.notes more = [] ∧
    ∀ r', σ = .running r' → r'.shared.plan = r.shared.plan := by
  cases h with
  | still =>
    refine ⟨rfl, ?_⟩
    rintro _ ⟨⟩
    rfl
  | ended =>
    rw [exhaust_eq]
    exact ⟨rfl, by simp⟩

theorem NoNode.draws {sh rest : Shared} {consulted : List Action}
    (h : NoNode m sh rest consulted) :
    sh.plan.Draws m.liveness rest.plan (consulted.filterMap Action.note?) := by
  cases h with
  | taken => exact .refl ..
  | planEmpty _ take => exact Plan.draws_of_next (Shared.nextNode_next take)

/-- A step takes at most one node from the plan. -/
theorem Move.draws (move : Move s m σ event σ' deeds) :
    Draws s m σ σ' (Deed.notes deeds) := by
  have asked {sh sh' : Shared} {found : Option Node} {consulted : List Action}
      (take : sh.nextNode m.liveness = (found, sh', consulted)) :
      sh.plan.Draws m.liveness sh'.plan (consulted.filterMap Action.note?) :=
    Plan.draws_of_next (Shared.nextNode_next take)
  cases move with
  | begins take armed =>
    refine .takes rfl ?_ (by rintro _ ⟨⟩; rfl)
    simpa [List.filterMap_cons, armed.notes, Action.note?] using asked take
  | @findsNothing shared _ take =>
    refine .takes rfl (?_ : Plan.Draws _ _ shared.plan _) (by simp)
    simpa [List.filterMap_cons, Action.note?] using asked take
  | forgoes | finishes | forsakes => exact .closes (by simp) rfl
  | advances mem turn =>
    refine .takes rfl ?_ (by rintro _ ⟨⟩; rfl)
    simpa using turn.draws
  | @settles _ _ _ sh _ _ mem turn =>
    refine .takes rfl (?_ : Plan.Draws _ _ sh.plan _) (by simp)
    simpa [List.filterMap_cons, Action.note?] using turn.draws
  | cancels mem turn goes | exhausts mem turn goes =>
    obtain ⟨hnotes, hleft⟩ := goes.plan
    refine .takes rfl ?_ hleft
    rw [Deed.notes, Deed.seen_append, ← Deed.notes, ← Deed.notes, hnotes]
    simpa using turn.draws
  | speculates set due free take counted armed =>
    refine .takes rfl ?_ (by rintro _ ⟨⟩; rfl)
    simpa [List.filterMap_cons, armed.notes, Action.note?] using asked take
  | speculatesInVain set due noNode goes =>
    obtain ⟨hnotes, hleft⟩ := goes.plan
    refine .takes rfl ?_ hleft
    rw [Deed.notes, Deed.seen_append, ← Deed.notes, ← Deed.notes, hnotes]
    simpa [List.filterMap_cons, Action.note?] using noNode.draws
  | timesOut | drops => exact .closes (by simp) (by simp [List.filterMap_cons, Action.note?])
  | timesOutLate => exact .takes rfl (.refl ..) (by rintro _ ⟨⟩; rfl)

/-- A request starts only once. -/
theorem Move.begun (move : Move s m σ event σ' deeds) : σ' ≠ .starting := by
  have goesOn {r : Running} {σ : State} {more : List Deed} (h : GoesOn r σ more) :
      σ ≠ .starting := by
    cases h with
    | still => simp
    | ended =>
      rw [exhaust_eq]
      simp
  cases move with
  | cancels _ _ goes | exhausts _ _ goes | speculatesInVain _ _ _ goes => exact goesOn goes
  | _ => simp

end Moves

-- ============================================================================
-- A whole run
-- ============================================================================

/-- The hosts that the plan of a running request has yielded, in order. -/
def State.given? : State → Option (List HostId)
  | .running r => some r.shared.plan.yielded.reverse
  | _ => none

/-- The hosts that the plan has yielded in some steps, in order. -/
def given (ts : List Transition) : List HostId :=
  (ts.filterMap (·.target.given?)).getLast?.getD []

@[simp] theorem given_nil : given [] = [] := rfl

theorem given_concat (ts : List Transition) (t : Transition) :
    given (ts ++ [t]) = t.target.given?.getD (given ts) := by
  cases h : t.target.given? <;> simp [given, h]

/-- The nodes that the policy offered in a step. -/
def Transition.offers (s : Settings) (t : Transition) : List Node :=
  (Deed.notes t.deeds).flatMap (s.balancing.offered s.routing s.snapshot t.moment.liveness)

/-- The nodes that the policy offered in some steps: what it picked and its fallback. -/
def offers (s : Settings) (ts : List Transition) : List Node :=
  ts.flatMap (Transition.offers s)

@[simp] theorem offers_concat (s : Settings) (ts : List Transition) (t : Transition) :
    offers s (ts ++ [t]) = offers s ts ++ t.offers s := by
  simp [offers]

/-- What was drawn from the plan of a request. -/
structure Drawn (s : Settings) (ts : List Transition) (σ : State) : Prop where
  plan : ∀ p, σ.plan? s = some p → p.policy = s.balancing ∧ p.routing = s.routing ∧
    p.snapshot = s.snapshot ∧ p.yielded.reverse = given ts ∧ ∀ n ∈ p.left, n ∈ offers s ts
  new : (given ts).Nodup
  offered : ∀ host ∈ given ts, ∃ n ∈ offers s ts, n.host = host
  noted : ∀ note ∈ Deed.notes (log ts), ∀ r, note.routing? = some r → r = s.routing

variable {s : Settings} {ts : List Transition} {σ : State}

theorem Drawn.start (s : Settings) : Drawn s [] .starting where
  plan := by
    rintro _ ⟨⟩
    exact ⟨rfl, rfl, rfl, rfl, by simp [Plan.left, freshShared, Plan.new]⟩
  new := .nil
  offered _ hmem := absurd hmem List.not_mem_nil
  noted := by simp [Deed.seen, Action.note?]

section Steps

variable {t : Transition}

theorem notes_concat (ts : List Transition) (t : Transition) :
    Deed.notes (log (ts ++ [t])) = Deed.notes (log ts) ++ Deed.notes t.deeds := by
  simp

/-- Nothing more is drawn for a request that needs no node any more. -/
theorem Drawn.close (h : Drawn s ts σ) (begun : t.target ≠ .starting)
    (target : ∀ r, t.target ≠ .running r) (quiet : Deed.notes t.deeds = []) :
    Drawn s (ts ++ [t]) t.target := by
  have hgiven : given (ts ++ [t]) = given ts := by
    rw [given_concat]
    cases hσ : t.target with
    | running r => exact absurd hσ (target r)
    | _ => rfl
  have hoffers : offers s (ts ++ [t]) = offers s ts := by
    rw [offers_concat, Transition.offers, quiet, List.flatMap_nil, List.append_nil]
  refine ⟨?_, hgiven ▸ h.new, ?_, ?_⟩
  · cases hσ : t.target with
    | starting => exact absurd hσ begun
    | running r => exact absurd hσ (target r)
    | _ => simp [State.plan?]
  · rw [hgiven, hoffers]
    exact h.offered
  · rw [notes_concat, quiet, List.append_nil]
    exact h.noted

/-- What is drawn from the plan comes from what the policy has offered, and is new. -/
theorem Drawn.take {p p' : Plan} (h : Drawn s ts σ) (source : σ.plan? s = some p)
    (draws : p.Draws t.moment.liveness p' (Deed.notes t.deeds)) (begun : t.target ≠ .starting)
    (target : ∀ r, t.target = .running r → r.shared.plan = p') :
    Drawn s (ts ++ [t]) t.target := by
  obtain ⟨found, hyields⟩ := draws
  obtain ⟨hpolicy, hrouting, hsnapshot, hyielded, hleft⟩ := h.plan p source
  have hpool : ∀ n ∈ p.left ++ p.offered t.moment.liveness (Deed.notes t.deeds),
      n ∈ offers s (ts ++ [t]) := by
    rw [offers_concat, Plan.offered, hpolicy, hrouting, hsnapshot]
    exact List.forall_mem_append.mpr ⟨fun n hn => List.mem_append_left _ (hleft n hn),
      fun n hn => List.mem_append_right _ hn⟩
  have hearlier : ∀ host ∈ given ts, ∃ n ∈ offers s (ts ++ [t]), n.host = host := by
    intro host hhost
    obtain ⟨n, hn, hnode⟩ := h.offered host hhost
    exact ⟨n, (offers_concat s ts t) ▸ List.mem_append_left _ hn, hnode⟩
  have hnoted : ∀ note ∈ Deed.notes (log (ts ++ [t])), ∀ r, note.routing? = some r →
      r = s.routing := by
    rw [notes_concat]
    exact List.forall_mem_append.mpr ⟨h.noted, hrouting ▸ hyields.noted⟩
  have hgiven : given (ts ++ [t]) = t.target.given?.getD (given ts) := given_concat ..
  cases hσ : t.target with
  | starting => exact absurd hσ begun
  | running r =>
    have hshared := target r hσ
    have hr : given (ts ++ [t]) = p'.yielded.reverse := by
      rw [hgiven, hσ, ← hshared]
      rfl
    refine ⟨?_, hr ▸ hyields.nodup (hyielded ▸ h.new),
      hr ▸ hyields.among hpool (hyielded ▸ hearlier), hnoted⟩
    rintro _ ⟨⟩
    rw [hshared]
    exact ⟨hyields.policy.trans hpolicy, hyields.routing.trans hrouting,
      hyields.snapshot.trans hsnapshot, hr.symm, fun n hn => hpool n (hyields.left n hn)⟩
  | concluding | finished | dropped =>
    rw [hσ] at hgiven
    exact ⟨by simp [State.plan?], hgiven ▸ h.new, hgiven ▸ hearlier, hnoted⟩

end Steps

/-- What a plan came to is what was drawn from it. -/
theorem Run.drawn (h : Run s ts σ) : Drawn s ts σ := by
  refine h.invariant (Drawn s) (.start s) ?_
  intro ts m σ event σ' deeds _ ih move
  cases move.draws with
  | takes source draws target => exact ih.take source draws move.begun target
  | closes target quiet => exact ih.close move.begun target quiet

/-- The plan of a request has yielded what was given. -/
theorem Run.yielded (h : Run s ts σ) {p : Plan} (source : σ.plan? s = some p) :
    p.yielded.reverse = given ts :=
  (h.drawn.plan p source).2.2.2.1

/-- What a step draws from the plan is given after what was given before. -/
theorem Run.given_step {m : Moment} {σ' : State} {event : Event} {deeds : List Deed}
    (h : Run s ts σ) (move : Move s m σ event σ' deeds) :
    given (ts ++ [⟨m, σ, event, σ', deeds⟩]) = given ts ∨
      ∃ (p p' : Plan) (notes : List PlanNote), p.yielded.reverse = given ts ∧
        p.Draws m.liveness p' notes ∧
          given (ts ++ [⟨m, σ, event, σ', deeds⟩]) = p'.yielded.reverse := by
  rw [Request.given_concat]
  cases σ' with
  | running r =>
    cases move.draws with
    | closes target => exact absurd rfl (target r)
    | takes source draws target =>
      refine .inr ⟨_, _, _, h.yielded source, draws, ?_⟩
      rw [← target r rfl]
      rfl
  | starting | concluding | finished | dropped => exact .inl rfl

/-- A step takes nothing back of what was given. -/
theorem Run.given_prefix {m : Moment} {σ' : State} {event : Event} {deeds : List Deed}
    (h : Run s ts σ) (move : Move s m σ event σ' deeds) :
    given ts <+: given (ts ++ [⟨m, σ, event, σ', deeds⟩]) := by
  rcases h.given_step move with hgiven | ⟨p, p', notes, hbefore, draws, hafter⟩
  · exact hgiven ▸ List.prefix_rfl
  · rw [← hbefore, hafter]
    exact draws.yielded_prefix

end Request

end RequestEngine
