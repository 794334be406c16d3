/-
  RequestEngine.Proofs.Request.Speculation

  When a request starts speculative executions.  None starts for a statement that
  must not run twice or without a policy.  Otherwise each starts on the next node
  of the plan that all executions share, after the delay that the policy answered
  when it was asked about it, and is announced with this delay; the policy is
  asked once after each start, and what it answers is all that it has a say in.

    * `Speculates`     — how a speculative execution starts;
    * `NextStart`      — what awaits a request whose policy has answered a delay;
    * `SpeculationLaw` — the whole of it, with the bounds that policies of limited
      number put on the executions.
-/
import RequestEngine.Proofs.Request.Pacing
import RequestEngine.Proofs.Request.Work

namespace RequestEngine

-- ============================================================================
-- Policies of limited number
-- ============================================================================

namespace SpeculationPolicy

/-- A policy that has no delay to give once more than `limit` executions were started. -/
def Limited (p : SpeculationPolicy) (limit : Nat) : Prop :=
  ∀ c : SpeculationContext, limit < c.started → p.nextDelay c = none

theorem simple_limited (limit : Nat) (interval : Duration) :
    (simple limit interval).Limited limit := by
  intro c hmore
  have hreached : ¬ c.started - 1 < limit := by omega
  exact if_neg hreached

theorem percentile_limited (limit : Nat) (p : Float) : (percentile limit p).Limited limit := by
  intro c hmore
  have hreached : limit ≤ c.started - 1 := by omega
  exact if_pos hreached

end SpeculationPolicy

/-- The index of the execution that starts. -/
def Pace.opened? : Pace → Option Nat
  | .opens index => some index
  | _ => none

theorem Deed.seen_opened (log : List Deed) :
    seen Action.opened? log = (paces log).filterMap Pace.opened? := by
  have hview : ∀ a : Action, a.opened? = a.pace?.bind Pace.opened? := by
    intro a
    cases a with
    | remark r => cases r <;> rfl
    | claim who won => cases won <;> rfl
    | _ => rfl
  rw [paces, seen, seen, List.filterMap_filterMap]
  exact List.filterMap_congr fun d _ => hview d.action

namespace Settings

/-- A policy is in force if there is one and the statement may run twice. -/
theorem speculationPolicy_eq_none_iff {s : Settings} :
    s.speculationPolicy = none ↔ s.routing.idempotent = false ∨ s.speculation = none := by
  cases h : s.routing.idempotent <;> simp [speculationPolicy, h]

end Settings

namespace Request

-- ============================================================================
-- Starts of speculative executions
-- ============================================================================

/-- How the speculative execution with a given index starts: the request is open, and the plan
    that all executions share gives a node, of a host that it gave to nobody and that nobody has
    tried. The observers are told of this node and of the delay, which is what the policy
    answered when as many executions were started as the index says. -/
inductive Speculates (s : Settings) (before : List Transition) (t : Transition) (index : Nat) :
    Prop where
  | intro {r r' : Running} {node : Node} {notes : List PlanNote} {delay : Duration}
      {asked : List Action} (source : t.source = .running r) (target : t.target = .running r')
      (free : r.shared.claim = none)
      (next : r.shared.plan.next t.moment.liveness = (some node, r'.shared.plan, notes))
      (new : node.host ∉ given before) (untried : tries node.host (Deed.starts (log before)) = 0)
      (begun : r'.executions = r.executions ++ [Execution.new index node s.routing.level])
      (answered : .asks index (some delay) ∈ Deed.paces (log before))
      (announced : t.deeds = Deed.ofRequest (notes.map .consult ++
        (.notify (.speculated ⟨node, index, 1⟩ delay) :: .openExecution index :: asked)))

/-- The metrics of the session once the notifications of a step were counted. -/
def Transition.metrics (t : Transition) : Metrics :=
  (Deed.notices t.deeds).foldl (fun metrics n => (metrics.record {} t.moment.now n).1)
    t.moment.metrics

/-- Every answer in a step is the one that the policy in force gives for as many executions as
    were started, and for the metrics at this moment. -/
def Answered (s : Settings) (t : Transition) : Prop :=
  ∀ d ∈ t.deeds, ∀ started warning delay, d.action = .askDelay started warning delay →
    ∃ policy, s.speculationPolicy = some policy ∧
      warning = policy.warning ⟨started, t.metrics⟩ ∧
        delay = policy.nextDelay ⟨started, t.metrics⟩

/-- What awaits a running request after the policy has answered a delay for the execution after
    the latest one: the timer is set to this delay after the latest start, the clock has not
    passed it, and from then on the timer may fire, which starts the execution if the plan has a
    node for it. -/
structure NextStart (s : Settings) (ts : List Transition) (r : Running) (latest : Started)
    (delay : Duration) : Prop where
  free : r.shared.claim = none
  set : r.timer = some ⟨latest.time.after delay, delay⟩
  ahead : ∀ tolerance, EachAfter (Punctual s tolerance) ts →
    clock ts ≤ (latest.time.after delay).after tolerance
  fires : ∀ m : Moment, latest.time.after delay ≤ m.now → ∀ node,
    (r.shared.plan.next m.liveness).1 = some node → ∃ r' deeds,
      step s m (.running r) .speculate = some (.running r', deeds) ∧
        .opens r.started ∈ Deed.paces deeds

section Starts

variable {s : Settings} {ts : List Transition} {t : Transition} {σ σ' : State} {m : Moment}
  {event : Event} {deeds : List Deed} {starts : List Started} {latest : Started}
  {ended : List (Instant × Pace)} {r : Running}

/-- A start of an execution tells the observers no more than what precedes it does. -/
theorem Armed.notices {timer : Option Timer} {now : Instant} {metrics : Metrics}
    {started : Nat} {asked : List Action} (h : Armed s now metrics started timer asked)
    (notes : List PlanNote) (told : List Action) (index : Nat) :
    Deed.notices (Deed.ofRequest (notes.map .consult ++
      (told ++ ([.openExecution index] ++ asked)))) = told.filterMap Action.notice? := by
  have hconsult : (notes.map Action.consult).filterMap Action.notice? = [] :=
    Action.consult_shows_nothing (fun _ => rfl) notes
  have hasked : ([Action.openExecution index] ++ asked).filterMap Action.notice? = [] := by
    cases h <;> rfl
  rw [Deed.notices, Deed.seen_ofRequest, List.filterMap_append, hconsult, List.filterMap_append,
    hasked, List.append_nil, List.nil_append]

/-- What was asked after a start was answered by the policy in force. -/
theorem Armed.answered {timer : Option Timer} {now : Instant} {metrics : Metrics} {count : Nat}
    {asked : List Action} (h : Armed s now metrics count timer asked) {started : Nat}
    {warning : Option String} {delay : Option Duration}
    (mem : .askDelay started warning delay ∈ asked) :
    ∃ policy, s.speculationPolicy = some policy ∧ warning = policy.warning ⟨started, metrics⟩ ∧
      delay = policy.nextDelay ⟨started, metrics⟩ := by
  cases h with
  | unwanted => cases mem
  | asked present =>
    cases List.mem_singleton.mp mem
    exact ⟨_, present, rfl, rfl⟩

/-- Every answer of a step is the policy's. -/
theorem Move.answered (move : Move s m σ event σ' deeds) :
    Answered s ⟨m, σ, event, σ', deeds⟩ := by
  intro d hmem started warning delay haction
  have hpace : .asks started delay ∈ Deed.paces deeds :=
    Deed.mem_seen.mpr ⟨d, hmem, by rw [haction]; rfl⟩
  cases move.beat with
  | @begins r notes asked count armed =>
    have hnotices := armed.notices notes [] 0
    rw [List.nil_append] at hnotices
    rw [Transition.metrics, hnotices]
    refine armed.answered ?_
    have hdone := (Deed.mem_ofRequest.mp hmem).2
    rw [haction] at hdone
    simpa using hdone
  | @launches r r' t node notes metrics asked set due free next begun count counted armed =>
    have hnotices := armed.notices notes
      [.notify (.speculated ⟨node, r.started, 1⟩ t.delay)] r.started
    rw [List.singleton_append] at hnotices
    rw [Transition.metrics, hnotices]
    subst counted
    refine armed.answered ?_
    have hdone := (Deed.mem_ofRequest.mp hmem).2
    rw [haction] at hdone
    simpa using hdone
  | keeps _ _ _ ends | stops _ _ _ ends | closes _ _ ends => cases ends _ hpace

/-- What a start shows of the pace is on the timeline. -/
theorem Paced.mem_timeline (h : Paced s ts starts ended) {index : Nat} {x : Started}
    (found : starts[index]? = some x) {pace : Pace} (shows : pace ∈ x.paces s index) :
    (x.time, pace) ∈ Request.timeline ts := by
  rw [h.timeline]
  refine List.mem_append_left _ (List.mem_flatMap.mpr ⟨(x, index), ?_, ?_⟩)
  · exact List.mem_zipIdx_iff_getElem?.mpr found
  · exact List.mem_map.mpr ⟨pace, shows, rfl⟩

/-- Where the policy answered a delay, it was asked after as many starts as there were. -/
theorem Paced.asks_mem (h : Paced s ts starts ended) {index : Nat} {x : Started}
    (found : starts[index]? = some x) {delay : Duration} (answer : x.delay = some delay) :
    .asks (index + 1) (some delay) ∈ x.paces s index := by
  have hpresent : s.speculationPolicy.isSome = true := by
    by_contra habsent
    have hnone := h.unasked (by simpa using habsent) x (List.mem_of_getElem? found)
    rw [hnone] at answer
    cases answer
  simp [Started.paces, hpresent, answer]

/-- An execution other than the first starts as a speculative one. -/
theorem Run.speculates (run : Run s ts σ) (move : Move s m σ event σ' deeds) {index : Nat}
    (opens : .opens (index + 1) ∈ Deed.paces deeds) :
    Speculates s ts ⟨m, σ, event, σ', deeds⟩ (index + 1) := by
  cases move.beat with
  | begins count armed =>
    obtain ⟨x, -, -, -, hpaces⟩ := armed.paces _ [] rfl
    rw [List.nil_append] at hpaces
    rw [hpaces] at opens
    cases Started.opens_mem.mp opens
  | @launches r r' t node notes metrics asked set due free next begun count counted armed =>
    obtain ⟨x, -, -, -, hpaces⟩ := armed.paces notes
      [.notify (.speculated ⟨node, r.started, 1⟩ t.delay)] rfl
    rw [List.singleton_append] at hpaces
    rw [hpaces] at opens
    have hindex : index + 1 = r.started := Started.opens_mem.mp opens
    -- the policy had answered the delay of the timer when the latest execution started
    obtain ⟨earlier, latest, ended, hpaced, hcount, htimer⟩ := run.pacing
    obtain ⟨hdelay, -⟩ := htimer.set t set
    have hlatest : (earlier ++ [latest])[earlier.length]? = some latest := by simp
    have hasked := hpaced.mem_timeline hlatest (hpaced.asks_mem hlatest hdelay)
    rw [hcount] at hasked
    have hanswered : .asks r.started (some t.delay) ∈ Deed.paces (log ts) := by
      rw [← map_snd_timeline]
      exact List.mem_map_of_mem hasked
    -- the node was given to nobody, so nobody has tried it
    obtain ⟨grants, hgrants, -, htour⟩ := run.tour
    obtain ⟨hnew, -⟩ := Tour.new_of_yields (hgrants.trans (run.yielded rfl).symm)
      (Plan.next_yields next) rfl 0
    rw [hindex]
    exact .intro rfl rfl free next (hgrants ▸ hnew) (htour.untried hnew) begun hanswered rfl
  | keeps _ _ _ ends | stops _ _ _ ends | closes _ _ ends => cases ends _ opens

/-- A claim is an end, and shows on the timeline. -/
theorem Run.ended_of_claim (run : Run s ts (.running r)) (paced : Paced s ts starts ended)
    (taken : r.shared.claim ≠ none) : ended ≠ [] := by
  rintro rfl
  have hpending : Pending s ts r := run.standing
  obtain ⟨e, he, hverdict⟩ := hpending.holder taken
  obtain ⟨⟨a, o⟩, hverdict⟩ := Option.ne_none_iff_exists'.mp hverdict
  have hclaimed := (hpending.held e he a o hverdict).2.claimed
  have hwinner : e.claimant a ∈ Deed.winners (log ts) := by
    rw [hclaimed]
    exact List.mem_singleton_self _
  obtain ⟨d, hd, hwon⟩ := Deed.mem_seen.mp hwinner
  have hends : .ends ∈ Deed.paces (log ts) :=
    Deed.mem_seen.mpr ⟨d, hd, Action.pace?_of_winner hwon⟩
  rw [← map_snd_timeline, paced.timeline, List.append_nil] at hends
  obtain ⟨⟨_, _⟩, hmem, rfl⟩ := List.mem_map.mp hends
  obtain ⟨⟨x, index⟩, -, hmem⟩ := List.mem_flatMap.mp hmem
  obtain ⟨pace, hpace, heq⟩ := List.mem_map.mp hmem
  cases heq
  exact Started.ends_not_mem hpace

/-- While nothing has ended the speculation, a running request whose policy has answered a delay
    awaits the next start. -/
theorem Run.nextStart (run : Run s ts (.running r)) (paced : Paced s ts starts [])
    (timer : TimerSet s ts r latest []) {delay : Duration} (answer : latest.delay = some delay) :
    NextStart s ts r latest delay := by
  have hset : r.timer = some ⟨latest.time.after delay, delay⟩ := by
    cases htimer : r.timer with
    | none =>
      have hnone := (timer.stopped htimer).resolve_left fun hended => hended rfl
      rw [hnone] at answer
      cases answer
    | some t =>
      obtain ⟨hdelay, hdue⟩ := timer.set t htimer
      have heq : t.delay = delay := Option.some.inj (hdelay.symm.trans answer)
      subst heq
      rw [← hdue]
  have hfree : r.shared.claim = none := by
    by_contra htaken
    exact run.ended_of_claim paced htaken rfl
  refine ⟨hfree, hset, timer.ahead _ hset, fun m due node found => ?_⟩
  obtain ⟨⟨σ', deeds⟩, hstep⟩ := Option.isSome_iff_exists.mp
    (speculate_isSome (s := s) hset (Nat.not_lt.mpr due))
  cases speculate_move hstep with
  | @speculates _ t node sh consulted asked metrics timer' set due' free take counted armed =>
    obtain ⟨notes, -, rfl⟩ := Shared.nextNode_notes take
    obtain ⟨x, -, -, -, hpaces⟩ := armed.paces notes
      [.notify (.speculated ⟨node, r.started, 1⟩ t.delay)] rfl
    refine ⟨_, _, hstep, ?_⟩
    rw [List.singleton_append] at hpaces
    rw [hpaces]
    exact Started.opens_mem.mpr rfl
  | speculatesInVain _ _ noNode =>
    cases noNode with
    | taken taken => exact absurd hfree taken
    | planEmpty _ take =>
      obtain ⟨notes, hnext, -⟩ := Shared.nextNode_notes take
      rw [hnext] at found
      cases found

/-- Every answer of a run is the policy's. -/
theorem Run.answered (run : Run s ts σ) : ∀ t ∈ ts, Answered s t :=
  run.everyStep fun _ _ _ _ _ _ _ move => move.answered

/-- A delay that was answered after some start is one that the policy in force gives for as many
    executions. -/
theorem Paced.delay_eq (h : Paced s ts starts ended) (answered : ∀ t ∈ ts, Answered s t)
    {index : Nat} {x : Started} (found : starts[index]? = some x) {delay : Duration}
    (answer : x.delay = some delay) : ∃ policy metrics, s.speculationPolicy = some policy ∧
      policy.nextDelay ⟨index + 1, metrics⟩ = some delay := by
  obtain ⟨t, ht, hmem⟩ := List.mem_flatMap.mp (h.mem_timeline found (h.asks_mem found answer))
  obtain ⟨pace, hpace, heq⟩ := List.mem_map.mp hmem
  obtain ⟨-, rfl⟩ := Prod.mk.inj heq
  obtain ⟨d, hd, haction⟩ := Deed.mem_seen.mp hpace
  obtain ⟨warning, hasked⟩ := Action.askDelay_of_pace haction
  obtain ⟨policy, hpolicy, -, hanswer⟩ := answered t ht d hd _ _ _ hasked
  exact ⟨policy, t.metrics, hpolicy, hanswer.symm⟩

/-- A policy of limited number bounds the executions that start. -/
theorem Paced.length_le (h : Paced s ts starts ended) (answered : ∀ t ∈ ts, Answered s t)
    (limit : Nat) (limited : ∀ policy, s.speculationPolicy = some policy → policy.Limited limit) :
    starts.length ≤ limit + 1 := by
  by_contra hmore
  have hnext : limit + 1 < starts.length := by omega
  obtain ⟨delay, hdelay, -⟩ := List.isChain_iff_getElem.mp h.chain limit hnext
  have hfound := List.getElem?_eq_getElem (Nat.lt_of_succ_lt hnext)
  obtain ⟨policy, metrics, hpolicy, hanswer⟩ := h.delay_eq answered hfound hdelay
  have hnone := limited policy hpolicy ⟨limit + 1, metrics⟩ (Nat.lt_succ_self limit)
  rw [hnone] at hanswer
  cases hanswer

theorem opened_paceOf (s : Settings) (starts : List Started) :
    ((paceOf s starts).map Prod.snd).filterMap Pace.opened? = List.range starts.length := by
  induction starts using List.reverseRecOn with
  | nil => rfl
  | append_singleton starts x ih =>
    have hlast : (x.paces s starts.length).filterMap Pace.opened? = [starts.length] := by
      unfold Started.paces
      split <;> rfl
    rw [paceOf_concat, List.map_append, List.filterMap_append, ih, List.map_map]
    simp [Function.comp_def, hlast, List.range_succ]

/-- The executions that start have the indices from 0 on. -/
theorem Paced.opened (h : Paced s ts starts ended) :
    Deed.seen Action.opened? (log ts) = List.range starts.length := by
  have hends : (ended.map Prod.snd).filterMap Pace.opened? = [] := by
    refine List.filterMap_eq_nil_iff.mpr fun pace hpace => ?_
    obtain ⟨p, hp, rfl⟩ := List.mem_map.mp hpace
    rw [h.ends p hp]
    rfl
  rw [Deed.seen_opened, ← map_snd_timeline, h.timeline, List.map_append, List.filterMap_append,
    hends, List.append_nil, opened_paceOf]

/-- No more executions are in flight than were started. -/
theorem Run.length_executions_le (run : Run s ts (.running r)) :
    r.executions.length ≤ r.started := by
  have hsubset : r.executions.map Execution.index ⊆ List.range r.started := by
    intro index hindex
    obtain ⟨e, he, rfl⟩ := List.mem_map.mp hindex
    exact List.mem_range.mpr (run.index_lt e he)
  have hdistinct : (r.executions.map Execution.index).Nodup := run.distinct
  calc r.executions.length = (r.executions.map Execution.index).length := by rw [List.length_map]
    _ ≤ (List.range r.started).length := (hdistinct.subperm hsubset).length_le
    _ = r.started := List.length_range

end Starts

-- ============================================================================
-- The law
-- ============================================================================

/-- When a run starts executions: `starts` are their starts, in order, and `ended` what put an end
    to speculation. -/
structure SpeculationLaw (s : Settings) (ts : List Transition) (σ : State)
    (starts : List Started) (ended : List (Instant × Pace)) : Prop where
  /-- A statement that must not run twice, or without a policy, has no speculative execution, and
      no policy is asked. -/
  gated : s.routing.idempotent = false ∨ s.speculation = none → starts.length ≤ 1 ∧
    ∀ d ∈ log ts, ∀ started warning delay, d.action ≠ .askDelay started warning delay
  /-- The policy is asked once after each start; executions start when the answered delay has
      passed, and none starts without one, or after an end. -/
  paced : Paced s ts starts ended
  indexed : Deed.seen Action.opened? (log ts) = List.range starts.length
  answered : ∀ t ∈ ts, Answered s t
  speculates : EachAfter (fun before t => ∀ index,
    .opens (index + 1) ∈ Deed.paces t.deeds → Speculates s before t (index + 1)) ts
  /-- As long as nothing has put an end to it, the next execution is awaited. -/
  awaited : ∀ r latest delay, σ = .running r → starts.getLast? = some latest →
    latest.delay = some delay → ended = [] → NextStart s ts r latest delay
  /-- A policy of limited number starts no more executions than that. -/
  limited : ∀ limit, (∃ interval, s.speculation = some (.simple limit interval)) ∨
    (∃ p, s.speculation = some (.percentile limit p)) →
      starts.length ≤ limit + 1 ∧ σ.executions.length ≤ limit + 1

/-- Every run keeps the law. -/
theorem Run.speculationLaw {s : Settings} {ts : List Transition} {σ : State} (h : Run s ts σ) :
    ∃ starts ended, SpeculationLaw s ts σ starts ended := by
  obtain ⟨starts, ended, hpaced, hrunning⟩ := h.paced
  have hanswered := h.answered
  refine ⟨starts, ended, ?_, hpaced, hpaced.opened, hanswered, ?_, ?_, ?_⟩
  · intro hgate
    have habsent : s.speculationPolicy = none := Settings.speculationPolicy_eq_none_iff.mpr hgate
    refine ⟨hpaced.length_le hanswered 0 (by simp [habsent]), ?_⟩
    intro d hd started warning delay haction
    rcases List.mem_append.mp hd with hd | hd
    · cases List.mem_singleton.mp hd
      cases haction
    · obtain ⟨t, ht, hd⟩ := List.mem_flatMap.mp hd
      obtain ⟨policy, hpolicy, -⟩ := hanswered t ht d hd _ _ _ haction
      rw [habsent] at hpolicy
      cases hpolicy
  · exact h.eachStep fun _ _ _ _ _ _ run move _ opens => run.speculates move opens
  · rintro r latest delay rfl hlatest hanswer rfl
    obtain ⟨-, htimer⟩ := hrunning r rfl
    exact h.nextStart hpaced (htimer latest hlatest) hanswer
  · intro limit hkind
    have hlimited : ∀ policy, s.speculationPolicy = some policy → policy.Limited limit := by
      intro policy hpolicy
      have hspeculation : s.speculation = some policy := by
        unfold Settings.speculationPolicy at hpolicy
        split at hpolicy
        · exact hpolicy
        · cases hpolicy
      rcases hkind with ⟨interval, hkind⟩ | ⟨p, hkind⟩
      · cases hkind.symm.trans hspeculation
        exact SpeculationPolicy.simple_limited limit interval
      · cases hkind.symm.trans hspeculation
        exact SpeculationPolicy.percentile_limited limit p
    have hstarts := hpaced.length_le hanswered limit hlimited
    refine ⟨hstarts, ?_⟩
    cases σ with
    | running r =>
      rw [(hrunning r rfl).1] at hstarts
      exact Nat.le_trans h.length_executions_le hstarts
    | starting | concluding | finished | dropped => exact Nat.zero_le _

/-- One speculative execution starts a nanosecond after the first one, on the other node, and the
    policy has no delay for another. -/
theorem Run.speculationLaw_of_stubborn :
    (∃ starts ended, SpeculationLaw stubbornSettings stubbornSteps (.finished stubbornOutcome)
      starts ended) ∧ EachAfter (Punctual stubbornSettings ⟨0⟩) stubbornSteps ∧
        (timeline stubbornSteps).take 4 = paceOf stubbornSettings
          [⟨⟨⟨0⟩⟩, some ⟨1⟩⟩, ⟨⟨⟨1⟩⟩, none⟩] := by
  refine ⟨Run.speculationLaw stubbornRun, ?_, ?_⟩
  · decide +kernel
  · decide +kernel

end Request

end RequestEngine
