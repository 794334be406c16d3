/-
  RequestEngine.Proofs.Request.Chronicle

  From one execution to all of them.  Executions of a request run beside each
  other, but each only appends to its own part of the log, so what one of them
  does can be studied alone: a `Law` says what holds of the actions of an
  execution while it is in flight and once it is over, and `Law.chronicle` gives
  it for every execution of every run, together with

    * the order of announcements: the n-th speculative execution is announced
      with the index n and the node that it begins on;
    * the indices: those of the executions in flight are distinct, and nothing
      was done by executions that were not opened.

  `Move.forall_deeds` says where the deeds of one step come from: what holds of the
  request's own deeds, of turns and of dropping executions holds of all of them.
-/
import Mathlib.Data.List.Nodup
import RequestEngine.Proofs.Request.Run

namespace RequestEngine

namespace Action

/-- The host that an action announces for a speculative execution. -/
def announced? : Action → Option HostInfo
  | .notify (.speculated h _) => some h
  | _ => none

theorem announced?_blind : Blind announced? := by
  intro a h
  cases a <;> first | rfl | cases h

end Action

/-- The hosts that were announced for speculative executions, in order. -/
abbrev Deed.announcements (log : List Deed) : List HostInfo :=
  seen Action.announced? log

namespace Execution

variable {s : Settings} {deadline : Option Instant} {m : Moment} {sh : Shared} {e : Execution}
  {event : ExecutionEvent} {advance : Advance}

/-- An execution announces no other. -/
theorem Turn.announced? (h : Turn s deadline m sh e event advance) :
    advance.actions.filterMap Action.announced? = [] := by
  have inner {actions : List Action} (h : ∀ a ∈ actions, a.isInner = true) :=
    Action.announced?_blind.inner h
  cases h with
  | starts onward => simp [Action.announced?_blind.quiet onward.quiet, Action.announced?]
  | stops onward => exact Action.announced?_blind.quiet onward.stopping_quiet
  | exhausts _ moves take => exact Action.announced?_blind.quiet (moves.exhausting_quiet take)
  | rethrows fails | fails fails =>
    simp [inner fails.inner, inner (assess_inner _ _), Action.announced?]
  | failsLate fails asked =>
    subst asked
    split <;> simp [inner fails.inner, inner (assess_inner _ _), Action.announced?]
  | asks | sends | succeeds | succeedsLate | returns | throws => simp [Action.announced?]

end Execution

namespace Request

-- ============================================================================
-- Laws of an execution and the chronicle of a request
-- ============================================================================

/-- What holds of the node that an execution began on and of everything it did, while it is in
    flight and once it is over.  Each turn keeps the law, and so does being dropped. -/
structure Law (s : Settings) where
  live : Node → List Action → Execution → Prop
  ended : Nat → Node → List Action → Prop
  new : ∀ index node, live node [] (Execution.new index node s.routing.level)
  goesOn : ∀ {deadline m sh sh' e e' event origin done actions}, live origin done e →
    e.Turn s deadline m sh event ⟨sh', .goesOn e', actions⟩ →
      live origin (done ++ actions) e'
  ends : ∀ {deadline m sh sh' e event progress origin done actions}, live origin done e →
    e.Turn s deadline m sh event ⟨sh', progress, actions⟩ →
      (∀ e', progress ≠ .goesOn e') → ended e.index origin (done ++ actions)
  dropped : ∀ {e origin done}, live origin done e → ended e.index origin (done ++ e.abandon)

/-- A log and the executions in flight agree with a law; `origins` are the nodes that the
    executions began on, by index. -/
structure Chronicle {s : Settings} (law : Law s) (log : List Deed)
    (executions : List Execution) (origins : List Node) : Prop where
  distinct : (executions.map Execution.index).Nodup
  live : ∀ e ∈ executions, ∃ origin, origins[e.index]? = some origin ∧
    law.live origin (Deed.actionsOf e.index log) e
  ended : ∀ index origin, origins[index]? = some origin → (∀ e ∈ executions, e.index ≠ index) →
    law.ended index origin (Deed.actionsOf index log)
  unopened : ∀ index, origins.length ≤ index → Deed.actionsOf index log = []
  announced : Deed.announcements log = origins.tail.mapIdx fun i node => ⟨node, i + 1, 1⟩

/-- An execution that is put in the place of one with its index leaves the indices as they are. -/
theorem map_index_replaced {executions : List Execution} {e e' : Execution}
    (index : e'.index = e.index) :
    (executions.map fun o => if o.index = e.index then e' else o).map Execution.index =
      executions.map Execution.index := by
  rw [List.map_map]
  refine List.map_congr_left fun o _ => ?_
  by_cases ho : o.index = e.index
  · simp [ho, index]
  · simp [ho]

theorem eq_of_index_eq {executions : List Execution} {e o : Execution}
    (distinct : (executions.map Execution.index).Nodup) (he : e ∈ executions)
    (ho : o ∈ executions) (h : o.index = e.index) : o = e :=
  List.inj_on_of_nodup_map distinct ho he h

/-- What holds of an execution and of all others holds once it has replaced the one it was. -/
theorem forall_mem_replaced {executions : List Execution} {e e' : Execution}
    {P : Execution → Prop} (own : P e') (others : ∀ o ∈ executions, o.index ≠ e.index → P o) :
    ∀ o ∈ executions.map fun o => if o.index = e.index then e' else o, P o := by
  intro _ ho
  obtain ⟨o, hmem, rfl⟩ := List.mem_map.mp ho
  split
  · exact own
  · exact others o hmem ‹_›

/-- Dropping executions adds to each of them what it does when it is dropped. -/
theorem actionsOf_abandonAll_of_mem {executions : List Execution} {e : Execution}
    (distinct : (executions.map Execution.index).Nodup) (mem : e ∈ executions) :
    Deed.actionsOf e.index (abandonAll executions) = e.abandon := by
  induction executions with
  | nil => simp at mem
  | cons o rest ih =>
    simp only [List.map_cons, List.nodup_cons] at distinct
    simp only [abandonAll, List.flatMap_cons, Deed.actionsOf_append]
    rcases List.mem_cons.mp mem with rfl | hmem
    · have hrest : Deed.actionsOf e.index (abandonAll rest) = [] := by
        simp only [Deed.actionsOf, abandonAll, List.filterMap_eq_nil_iff, List.mem_flatMap]
        rintro d ⟨o, ho, hd⟩
        have hne : o.index ≠ e.index := fun heq =>
          distinct.1 (List.mem_map.mpr ⟨o, ho, heq⟩)
        simp [(Deed.mem_ofExecution.mp hd).1, hne]
      simp only [abandonAll] at hrest
      simp [hrest]
    · have hne : o.index ≠ e.index := fun heq =>
        distinct.1 (List.mem_map.mpr ⟨e, hmem, heq.symm⟩)
      rw [Deed.actionsOf_ofExecution_of_ne hne, List.nil_append]
      exact ih distinct.2 hmem

theorem actionsOf_abandonAll_of_not_mem {executions : List Execution} {index : Nat}
    (absent : ∀ e ∈ executions, e.index ≠ index) :
    Deed.actionsOf index (abandonAll executions) = [] := by
  simp only [Deed.actionsOf, abandonAll, List.filterMap_eq_nil_iff, List.mem_flatMap]
  rintro d ⟨e, he, hd⟩
  simp [(Deed.mem_ofExecution.mp hd).1, absent e he]

namespace Chronicle

variable {s : Settings} {law : Law s} {log : List Deed} {executions : List Execution}
  {origins : List Node} {deadline : Option Instant} {m : Moment} {sh sh' : Shared}
  {e e' : Execution} {event : ExecutionEvent} {actions : List Action}

theorem index_lt (h : Chronicle law log executions origins) (mem : e ∈ executions) :
    e.index < origins.length := by
  obtain ⟨origin, horigin, -⟩ := h.live e mem
  exact (List.getElem?_eq_some_iff.mp horigin).1

/-- A turn of an execution is no deed of one that was not opened. -/
theorem unopened_turn (h : Chronicle law log executions origins) (mem : e ∈ executions)
    {index : Nat} (unopened : origins.length ≤ index) :
    Deed.actionsOf index (log ++ Deed.ofExecution e.index actions) = [] := by
  have hlt := h.index_lt mem
  rw [Deed.actionsOf_append, h.unopened index unopened,
    Deed.actionsOf_ofExecution_of_ne (by omega)]
  rfl

theorem announced_turn {progress : Progress} (h : Chronicle law log executions origins)
    (turn : e.Turn s deadline m sh event ⟨sh', progress, actions⟩) :
    Deed.announcements (log ++ Deed.ofExecution e.index actions) =
      origins.tail.mapIdx fun i node => ⟨node, i + 1, 1⟩ := by
  have hnone : actions.filterMap Action.announced? = [] := turn.announced?
  simpa [hnone] using h.announced

/-- Deeds of the request as a whole leave every execution as it was. -/
theorem request (h : Chronicle law log executions origins)
    (silent : actions.filterMap Action.announced? = []) :
    Chronicle law (log ++ Deed.ofRequest actions) executions origins where
  distinct := h.distinct
  live := by simpa using h.live
  ended := by simpa using h.ended
  unopened := by simpa using h.unopened
  announced := by simpa [silent] using h.announced

/-- An execution goes on. -/
theorem advance (h : Chronicle law log executions origins) (mem : e ∈ executions)
    (turn : e.Turn s deadline m sh event ⟨sh', .goesOn e', actions⟩) :
    Chronicle law (log ++ Deed.ofExecution e.index actions)
      (executions.map fun o => if o.index = e.index then e' else o) origins where
  distinct := by
    rw [map_index_replaced turn.index]
    exact h.distinct
  live := by
    intro o ho
    obtain ⟨o, hmem, rfl⟩ := List.mem_map.mp ho
    by_cases hindex : o.index = e.index
    · obtain ⟨origin, horigin, hlive⟩ := h.live e mem
      refine ⟨origin, ?_, ?_⟩
      · simpa [hindex, turn.index] using horigin
      · simpa [hindex, turn.index] using law.goesOn hlive turn
    · obtain ⟨origin, horigin, hlive⟩ := h.live o hmem
      refine ⟨origin, by simpa [hindex] using horigin, ?_⟩
      simpa [hindex, Deed.actionsOf_ofExecution_of_ne (Ne.symm hindex)] using hlive
  ended := by
    intro index origin horigin absent
    have hne : e.index ≠ index := by
      simpa [turn.index] using absent e' (List.mem_map.mpr ⟨e, mem, by simp⟩)
    have hover := h.ended index origin horigin fun o ho heq => by
      refine absent o (List.mem_map.mpr ⟨o, ho, ?_⟩) heq
      simp [heq, Ne.symm hne]
    simpa [Deed.actionsOf_ofExecution_of_ne hne] using hover
  unopened _ := h.unopened_turn mem
  announced := h.announced_turn turn

/-- An execution ends. -/
theorem remove {progress : Progress} (h : Chronicle law log executions origins)
    (mem : e ∈ executions) (turn : e.Turn s deadline m sh event ⟨sh', progress, actions⟩)
    (last : ∀ e', progress ≠ .goesOn e') :
    Chronicle law (log ++ Deed.ofExecution e.index actions)
      (executions.filter fun o => o.index ≠ e.index) origins where
  distinct := h.distinct.sublist (List.filter_sublist.map _)
  live := by
    intro o ho
    simp only [List.mem_filter, decide_eq_true_eq] at ho
    obtain ⟨origin, horigin, hlive⟩ := h.live o ho.1
    refine ⟨origin, horigin, ?_⟩
    simpa [Deed.actionsOf_ofExecution_of_ne (Ne.symm ho.2)] using hlive
  ended := by
    intro index origin horigin absent
    by_cases hindex : e.index = index
    · obtain ⟨origin', horigin', hlive⟩ := h.live e mem
      rw [hindex, horigin, Option.some.injEq] at horigin'
      subst hindex horigin'
      simpa using law.ends hlive turn last
    · have hover := h.ended index origin horigin fun o ho heq => by
        refine absent o ?_ heq
        simp only [List.mem_filter, decide_eq_true_eq]
        exact ⟨ho, by rw [heq]; exact Ne.symm hindex⟩
      simpa [Deed.actionsOf_ofExecution_of_ne hindex] using hover
  unopened _ := h.unopened_turn mem
  announced := h.announced_turn turn

/-- Everything in flight is dropped. -/
theorem dropAll (h : Chronicle law log executions origins) :
    Chronicle law (log ++ abandonAll executions) [] origins where
  distinct := by simp
  live := by simp
  ended := by
    intro index origin horigin _
    rw [Deed.actionsOf_append]
    by_cases hmem : ∃ e ∈ executions, e.index = index
    · obtain ⟨e, mem, rfl⟩ := hmem
      obtain ⟨origin', horigin', hlive⟩ := h.live e mem
      rw [horigin, Option.some.injEq] at horigin'
      subst horigin'
      rw [actionsOf_abandonAll_of_mem h.distinct mem]
      exact law.dropped hlive
    · simp only [not_exists, not_and] at hmem
      rw [actionsOf_abandonAll_of_not_mem hmem, List.append_nil]
      exact h.ended index origin horigin hmem
  unopened := by
    intro index hindex
    rw [Deed.actionsOf_append, h.unopened index hindex, List.nil_append]
    refine actionsOf_abandonAll_of_not_mem fun e he heq => ?_
    exact absurd (h.index_lt he) (Nat.not_lt.mpr (heq ▸ hindex))
  announced := by
    rw [Deed.announcements, Deed.seen_append,
      seen_abandonAll Action.announced?_blind, List.append_nil]
    exact h.announced

/-- Another execution begins; all but the first are announced. -/
theorem launch {node : Node} (h : Chronicle law log executions origins)
    (notice : actions.filterMap Action.announced? =
      if origins = [] then [] else [⟨node, origins.length, 1⟩]) :
    Chronicle law (log ++ Deed.ofRequest actions)
      (executions ++ [Execution.new origins.length node s.routing.level])
      (origins ++ [node]) where
  distinct := by
    rw [List.map_append, List.nodup_append]
    refine ⟨h.distinct, by simp, ?_⟩
    intro index hindex other hother heq
    obtain ⟨e, he, rfl⟩ := List.mem_map.mp hindex
    simp only [List.map_cons, List.map_nil, List.mem_singleton] at hother
    subst hother
    exact absurd heq (Nat.ne_of_lt (h.index_lt he))
  live := by
    intro o ho
    rcases List.mem_append.mp ho with ho | ho
    · obtain ⟨origin, horigin, hlive⟩ := h.live o ho
      refine ⟨origin, ?_, by simpa using hlive⟩
      rw [List.getElem?_append_left (h.index_lt ho)]
      exact horigin
    · rw [List.mem_singleton] at ho
      subst ho
      refine ⟨node, by simp [Execution.new], ?_⟩
      simpa [Execution.new, h.unopened origins.length (Nat.le_refl _)]
        using law.new origins.length node
  ended := by
    intro index origin horigin absent
    have hne : origins.length ≠ index := by
      simpa [Execution.new] using absent _ (List.mem_append_right _ (List.mem_singleton_self _))
    have hlt : index < origins.length := by
      have := (List.getElem?_eq_some_iff.mp horigin).1
      simp only [List.length_append, List.length_singleton] at this
      omega
    rw [List.getElem?_append_left hlt] at horigin
    have hover := h.ended index origin horigin fun o ho => absent o (List.mem_append_left _ ho)
    simpa using hover
  unopened := by
    intro index hindex
    simp only [List.length_append, List.length_singleton] at hindex
    rw [Deed.actionsOf_append, h.unopened index (by omega)]
    simp
  announced := by
    rw [Deed.announcements, Deed.seen_append, Deed.seen_ofRequest, notice, ← Deed.announcements,
      h.announced]
    cases origins with
    | nil => simp
    | cons first rest => simp [List.mapIdx_append]

/-- Before the first execution begins there is nothing to tell. -/
theorem start (law : Law s) : Chronicle law (Request.log []) [] [] where
  distinct := .nil
  live _ he := absurd he List.not_mem_nil
  ended _ _ horigin := by cases horigin
  unopened _ _ := rfl
  announced := rfl

/-- A request that goes on after one of its parties is gone leaves every execution as it was. -/
theorem goesOn {r : Running} {σ : State} {more : List Deed}
    (h : Chronicle law log r.executions origins) (goes : GoesOn r σ more) :
    Chronicle law (log ++ more) σ.executions origins := by
  cases goes with
  | still => simpa [State.executions] using h
  | ended noExecution =>
    rw [exhaust_eq]
    rw [noExecution] at h
    exact h.request (by cases exhaustion r <;> simp [finalNotice, Action.announced?])

end Chronicle

/-- How many executions were started, as long as more may follow. -/
def State.started? : State → Option Nat
  | .starting => some 0
  | .running r => some r.started
  | _ => none

theorem GoesOn.started? {r : Running} {σ : State} {more : List Deed} (h : GoesOn r σ more)
    {n : Nat} (hn : σ.started? = some n) : r.started = n := by
  cases h with
  | still => simpa [State.started?] using hn
  | ended => simp [exhaust_eq, State.started?] at hn

/-- A running request has started an execution. -/
theorem Run.started_pos {s : Settings} {ts : List Transition} {r : Running}
    (h : Run s ts (.running r)) : 0 < r.started := by
  refine h.invariant (fun _ σ => ∀ r, σ = .running r → 0 < r.started)
    (by simp) ?_ r rfl
  intro ts m σ event σ' deeds _ ih move r' hr'
  cases move with
  | begins | speculates =>
    cases hr'
    exact Nat.succ_pos _
  | advances | timesOutLate =>
    have hpos := ih _ rfl
    cases hr'
    exact hpos
  | cancels _ _ goes | exhausts _ _ goes | speculatesInVain _ _ _ goes =>
    have hpos := ih _ rfl
    subst hr'
    exact Nat.lt_of_lt_of_eq hpos (goes.started? rfl)
  | findsNothing | forgoes | settles | timesOut | drops | finishes | forsakes => cases hr'

/-- Every run has a chronicle under every law. -/
theorem Law.chronicle {s : Settings} (law : Law s) {ts : List Transition} {σ : State}
    (h : Run s ts σ) :
    ∃ origins, Chronicle law (log ts) σ.executions origins ∧
      ∀ n, σ.started? = some n → origins.length = n := by
  refine h.invariant (fun ts σ => ∃ origins,
    Chronicle law (log ts) σ.executions origins ∧
      ∀ n, σ.started? = some n → origins.length = n) ⟨[], .start law, by rintro _ ⟨⟩; rfl⟩ ?_
  intro ts m σ event σ' deeds run hinv move
  obtain ⟨origins, ih, hlength⟩ := hinv
  rw [log_concat]
  cases move with
  | @begins node shared consulted asked timer take armed =>
    have hnil : origins = [] := List.length_eq_zero_iff.mp (hlength 0 rfl)
    subst hnil
    refine ⟨[node], ?_, by simp [State.started?]⟩
    exact ih.launch (Action.announced?_blind.quiet (armed.beginning_quiet take 0))
  | findsNothing take =>
    refine ⟨origins, ih.request ?_, by simp [State.started?]⟩
    simp [Action.announced?_blind.quiet (Execution.nextNode_quiet take), Action.announced?]
  | forgoes | finishes | forsakes =>
    exact ⟨origins, by simpa [State.executions] using ih, by simp [State.started?]⟩
  | advances mem turn =>
    exact ⟨origins, ih.advance mem turn, fun n hn => hlength n hn⟩
  | @settles r e event sh actions o mem turn =>
    refine ⟨origins, ?_, by simp [State.started?]⟩
    rw [← List.append_assoc, ← List.append_assoc]
    refine Chronicle.request (ih.remove mem turn (by simp)).dropAll ?_
    cases o <;> simp [finalNotice, Action.announced?]
  | cancels mem turn goes =>
    refine ⟨origins, ?_, fun n hn => hlength n (congrArg some (goes.started? hn))⟩
    rw [← List.append_assoc]
    exact Chronicle.goesOn (ih.remove mem turn (by simp)) goes
  | exhausts mem turn goes =>
    refine ⟨origins, ?_, fun n hn => hlength n (congrArg some (goes.started? hn))⟩
    rw [← List.append_assoc]
    exact Chronicle.goesOn (ih.remove mem turn (by simp)) goes
  | @speculates r t node sh consulted asked metrics timer set due free take counted armed =>
    have hstarted : origins.length = r.started := hlength r.started rfl
    have hne : origins ≠ [] := List.ne_nil_of_length_pos (hstarted ▸ run.started_pos)
    refine ⟨origins ++ [node], ?_, by simp [State.started?, hstarted]⟩
    rw [← hstarted]
    refine ih.launch ?_
    rw [← Deed.seen_ofRequest, seen_speculation Action.announced?_blind take armed, if_neg hne]
    rfl
  | speculatesInVain set due noNode goes =>
    refine ⟨origins, ?_, fun n hn => hlength n (congrArg some (goes.started? hn))⟩
    rw [← List.append_assoc]
    refine Chronicle.goesOn (Chronicle.request (by simpa [State.executions] using ih) ?_) goes
    exact Action.announced?_blind.quiet noNode.vain_quiet
  | timesOut =>
    refine ⟨origins, ?_, by simp [State.started?]⟩
    rw [← List.append_assoc, ← List.append_assoc]
    refine Chronicle.request (Chronicle.dropAll (ih.request ?_)) ?_ <;>
      simp [Action.announced?]
  | timesOutLate =>
    exact ⟨origins, ih.request (by simp [Action.announced?]), fun n hn => hlength n hn⟩
  | drops =>
    refine ⟨origins, ?_, by simp [State.started?]⟩
    rw [← List.append_assoc]
    exact Chronicle.request (Chronicle.dropAll ih) (by simp [Action.announced?])

/-- What a run shows of the execution with a given index: it is in flight, or it is over, or
    there was none. -/
inductive Law.Record {s : Settings} (law : Law s) (log : List Deed)
    (executions : List Execution) (index : Nat) : Prop where
  | live {e : Execution} {origin : Node} (mem : e ∈ executions) (own : e.index = index)
      (holds : law.live origin (Deed.actionsOf index log) e) : law.Record log executions index
  | ended {origin : Node} (absent : ∀ e ∈ executions, e.index ≠ index)
      (holds : law.ended index origin (Deed.actionsOf index log)) :
      law.Record log executions index
  | never (absent : ∀ e ∈ executions, e.index ≠ index)
      (nothing : Deed.actionsOf index log = []) : law.Record log executions index

theorem Law.record {s : Settings} (law : Law s) {ts : List Transition} {σ : State}
    (h : Run s ts σ) (index : Nat) : law.Record (log ts) σ.executions index := by
  obtain ⟨origins, chronicle, -⟩ := law.chronicle h
  by_cases hmem : ∃ e ∈ σ.executions, e.index = index
  · obtain ⟨e, mem, rfl⟩ := hmem
    obtain ⟨origin, -, hlive⟩ := chronicle.live e mem
    exact .live mem rfl hlive
  · simp only [not_exists, not_and] at hmem
    cases horigin : origins[index]? with
    | none =>
      exact .never hmem (chronicle.unopened index (List.getElem?_eq_none_iff.mp horigin))
    | some origin => exact .ended hmem (chronicle.ended index origin horigin hmem)

/-- If a law orders the actions of an execution, live or ended, they are in this order in every
    run. -/
theorem Law.eachAfter {s : Settings} (law : Law s) {ok : List Action → Action → Prop}
    {ts : List Transition} {σ : State} (h : Run s ts σ)
    (live : ∀ {origin done e}, law.live origin done e → EachAfter ok done)
    (ended : ∀ {index origin done}, law.ended index origin done → EachAfter ok done)
    (index : Nat) : EachAfter ok (Deed.actionsOf index (log ts)) := by
  cases law.record h index with
  | live _ _ holds => exact live holds
  | ended _ holds => exact ended holds
  | never _ nothing =>
    rw [nothing]
    exact .nil

/-! ## First laws -/

/-- The law that the policy has decided about every failure that is being reported. -/
def Law.decided (s : Settings) : Law s where
  live _ done e := ∀ a error d, e.phase = .reportingFailure a error d →
    ∃ remark, .decide (Execution.failed s a error) remark d ∈ done
  ended _ _ _ := True
  new _ _ := by simp [Execution.new]
  goesOn := by
    intro deadline m sh sh' e e' event origin done actions _ turn a error d hphase
    cases turn with
    | starts | asks | sends | succeeds => cases hphase
    | rethrows _ decision | fails _ decision =>
      cases hphase
      exact ⟨s.retry.remark (Execution.failed s a error), by simp [Execution.assess, decision]⟩
  ends _ _ _ := trivial
  dropped _ := trivial

variable {s : Settings} {ts : List Transition} {σ : State} {r : Running} {e : Execution}

/-- No two executions in flight have the same index. -/
theorem Run.distinct (h : Run s ts σ) : (σ.executions.map Execution.index).Nodup := by
  obtain ⟨_, chronicle, -⟩ := (Law.decided s).chronicle h
  exact chronicle.distinct

/-- A failure that is being reported was put to the retry policy. -/
theorem Run.decided {a : Attempt} {error : AttemptError} {d : Decision}
    (h : Run s ts (.running r)) (mem : e ∈ r.executions)
    (phase : e.phase = .reportingFailure a error d) :
    ∃ remark, ⟨some e.index, .decide (Execution.failed s a error) remark d⟩ ∈ log ts := by
  obtain ⟨_, chronicle, -⟩ := (Law.decided s).chronicle h
  obtain ⟨_, -, hlive⟩ := chronicle.live e mem
  obtain ⟨remark, hremark⟩ := hlive a error d phase
  exact ⟨remark, Deed.mem_actionsOf.mp hremark⟩

-- ============================================================================
-- Where deeds come from
-- ============================================================================

/-- Where a deed of a step comes from: the request as a whole, the turn of an execution, or an
    execution that is dropped. -/
inductive Source (s : Settings) (m : Moment) (σ : State) : Deed → Prop where
  | request {a : Action} (general : a.isGeneral = true) : Source s m σ ⟨none, a⟩
  | turn {e : Execution} {deadline : Option Instant} {sh : Shared} {event : ExecutionEvent}
      {advance : Advance} {a : Action} (mem : e ∈ σ.executions)
      (turn : e.Turn s deadline m sh event advance) (done : a ∈ advance.actions) :
      Source s m σ ⟨some e.index, a⟩
  | abandon {e : Execution} {a : Action} (mem : e ∈ σ.executions) (done : a ∈ e.abandon) :
      Source s m σ ⟨some e.index, a⟩

section Sources

variable {m : Moment} {σ' : State} {deeds : List Deed} {actions : List Action}

/-- What holds of whatever a request does as a whole, of what an execution does in its turn and of
    what is done to drop an execution, holds of every deed of a step. -/
theorem Move.forall_deeds {event : Event} {P : Deed → Prop} (move : Move s m σ event σ' deeds)
    (request : ∀ a : Action, a.isGeneral = true → P ⟨none, a⟩)
    (turns : ∀ (r : Running) (e : Execution) (met : ExecutionEvent) (advance : Advance),
      σ = .running r → e ∈ r.executions → event = .execution e.index met →
        e.Turn s r.deadline m r.shared met advance →
          (∀ e', advance.progress = .goesOn e' → e' ∈ σ'.executions) →
            ∀ a ∈ advance.actions, P ⟨some e.index, a⟩)
    (dropped : ∀ (r : Running) (e : Execution), σ = .running r → e ∈ r.executions →
      ∀ a ∈ e.abandon, P ⟨some e.index, a⟩) : ∀ d ∈ deeds, P d := by
  have general {actions : List Action} (h : ∀ a ∈ actions, a.isGeneral = true) :
      ∀ d ∈ Deed.ofRequest actions, P d :=
    List.forall_mem_map.mpr fun a ha => request a (h a ha)
  have quiet {actions : List Action} (h : ∀ a ∈ actions, a.isQuiet = true) :
      ∀ a ∈ actions, a.isGeneral = true :=
    fun a ha => Action.isGeneral_of_isQuiet (h a ha)
  have abandoned {r : Running} {executions : List Execution} (running : σ = .running r)
      (flying : ∀ e ∈ executions, e ∈ r.executions) : ∀ d ∈ abandonAll executions, P d :=
    List.forall_mem_flatMap.mpr fun e he =>
      List.forall_mem_map.mpr (dropped r e running (flying e he))
  have goesOn {r : Running} {σ : State} {more : List Deed} (h : GoesOn r σ more) :
      ∀ d ∈ more, P d := by
    cases h with
    | still => simp
    | ended =>
      rw [exhaust_eq]
      exact general (List.forall_mem_cons.mpr ⟨rfl, List.forall_mem_singleton.mpr (by simp)⟩)
  cases move with
  | begins take armed => exact general (quiet (armed.beginning_quiet take 0))
  | findsNothing take =>
    exact general (List.forall_mem_append.mpr
      ⟨quiet (Execution.nextNode_quiet take), by simp [Action.isGeneral, Notification.attempt?]⟩)
  | forgoes | finishes | forsakes => simp
  | timesOutLate => exact general (by simp [Action.isGeneral])
  | @advances r e e' _ _ _ mem turn =>
    refine List.forall_mem_map.mpr (turns r e _ _ rfl mem rfl turn ?_)
    rintro _ ⟨⟩
    exact List.mem_map.mpr ⟨e, mem, if_pos rfl⟩
  | @settles r e _ _ _ o mem turn =>
    refine List.forall_mem_append.mpr
      ⟨List.forall_mem_map.mpr (turns r e _ _ rfl mem rfl turn (by simp)),
        List.forall_mem_append.mpr ⟨abandoned rfl fun o ho => List.mem_of_mem_filter ho, ?_⟩⟩
    exact general (List.forall_mem_singleton.mpr (Action.isGeneral_finalNotice o))
  | @cancels r e _ _ _ _ _ mem turn goes | @exhausts r e _ _ _ _ _ _ mem turn goes =>
    exact List.forall_mem_append.mpr
      ⟨List.forall_mem_map.mpr (turns r e _ _ rfl mem rfl turn (by simp)), goesOn goes⟩
  | speculates set due free take counted armed =>
    exact general (List.forall_mem_append.mpr ⟨quiet (Execution.nextNode_quiet take),
      List.forall_mem_cons.mpr ⟨rfl, quiet (armed.opening_quiet _)⟩⟩)
  | speculatesInVain set due noNode goes =>
    exact List.forall_mem_append.mpr ⟨general (quiet noNode.vain_quiet), goesOn goes⟩
  | timesOut =>
    exact List.forall_mem_append.mpr ⟨general (by simp [Action.isGeneral]),
      List.forall_mem_append.mpr ⟨abandoned rfl fun _ he => he,
        general (by simp [Action.isGeneral, Notification.attempt?])⟩⟩
  | drops =>
    exact List.forall_mem_append.mpr ⟨abandoned rfl fun _ he => he,
      general (by simp [Action.isGeneral, Notification.attempt?])⟩

theorem Move.source {event : Event} (move : Move s m σ event σ' deeds) :
    ∀ d ∈ deeds, Source s m σ d := by
  refine move.forall_deeds (fun _ general => .request general) ?_ ?_
  · rintro r e met advance rfl mem - turn - a done
    exact .turn mem turn done
  · rintro r e rfl mem a done
    exact .abandon mem done

end Sources

/-- Deeds among which those of no execution concern no attempt. -/
def General (deeds : List Deed) : Prop :=
  ∀ d ∈ deeds, d.execution = none → d.action.isGeneral = true

theorem Move.general {m : Moment} {σ' : State} {event : Event} {deeds : List Deed}
    (move : Move s m σ event σ' deeds) : General deeds := by
  intro d hd hnone
  cases move.source d hd with
  | request general => exact general
  | turn | abandon => cases hnone

theorem General.of_append {deeds more : List Deed} (h : General (deeds ++ more)) :
    General deeds ∧ General more :=
  List.forall_mem_append.mp h

theorem General.actions {actions : List Action} (h : General (Deed.ofRequest actions)) :
    ∀ a ∈ actions, a.isGeneral = true :=
  fun a ha => h ⟨none, a⟩ (List.mem_map_of_mem ha) rfl

/-- What the request as a whole does is nothing to a view of attempts. -/
theorem General.seen_ofRequest {α : Type} {view : Action → Option α} {actions : List Action}
    (h : General (Deed.ofRequest actions))
    (view_general : ∀ a, a.isGeneral = true → view a = none) :
    Deed.seen view (Deed.ofRequest actions) = [] :=
  List.filterMap_eq_nil_iff.mpr fun d hd =>
    view_general d.action (h d hd (Deed.mem_ofRequest.mp hd).1)

/-- Whatever concerns an attempt is done by an execution. -/
theorem Run.general (h : Run s ts σ) : General (log ts) := by
  refine h.invariant (fun ts _ => General (log ts)) ?_ ?_
  · simp [General, Action.isGeneral, Notification.attempt?]
  · intro ts m σ event σ' deeds _ ih move
    rw [log_concat]
    exact List.forall_mem_append.mpr ⟨ih, move.general⟩

end Request

end RequestEngine
