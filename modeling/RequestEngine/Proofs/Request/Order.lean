/-
  RequestEngine.Proofs.Request.Order

  The order of first attempts.  The plan gives hosts in an order, and executions
  try them for the first time in that order as long as their steps do not get in
  each other's way: an execution that the timer has opened takes its turn before
  another one asks the plan for a node.

    * `Spaced`  — what this takes of a step: no time passes while an execution
      waits for its turn, they begin in the order in which they were opened, and
      no timer fires at the instant at which another execution goes on;
    * `InLine`  — then the hosts given so far are those tried so far and, after
      them, those of the executions that wait for their turn;
    * `Run.tried_prefix` — the hosts in the order of their first attempts are a first
      part of those that the plan gave.
-/
import RequestEngine.Proofs.Request.Hosts

namespace RequestEngine

-- ============================================================================
-- First attempts
-- ============================================================================

/-- The hosts that were tried, in the order of their first attempts. -/
def firstTried (starts : List HostInfo) : List HostId :=
  (starts.map (·.node.host)).eraseDups

theorem eraseDups_concat {α : Type} [DecidableEq α] (l : List α) (a : α) :
    (l ++ [a]).eraseDups = if a ∈ l then l.eraseDups else l.eraseDups ++ [a] := by
  have hrest : [a].removeAll l = if a ∈ l then [] else [a] := by
    by_cases h : a ∈ l <;> simp [List.removeAll, h]
  rw [List.eraseDups_append, hrest]
  split
  · exact List.append_nil _
  · rfl

theorem firstTried_concat_of_new {starts : List HostInfo} {h : HostInfo}
    (new : tries h.node.host starts = 0) :
    firstTried (starts ++ [h]) = firstTried starts ++ [h.node.host] := by
  rw [firstTried, List.map_append, List.map_singleton, eraseDups_concat, if_neg, firstTried]
  intro hmem
  obtain ⟨x, hx, same⟩ := List.mem_map.mp hmem
  exact tries_eq_zero.mp new x hx same

theorem firstTried_concat_of_tried {starts : List HostInfo} {h : HostInfo}
    (tried : tries h.node.host starts ≠ 0) :
    firstTried (starts ++ [h]) = firstTried starts := by
  rw [firstTried, List.map_append, List.map_singleton, eraseDups_concat, if_pos, firstTried]
  by_contra absent
  exact tried (tries_eq_zero.mpr fun x hx same => absent (List.mem_map.mpr ⟨x, hx, same⟩))

namespace Request

-- ============================================================================
-- Steps that do not get in each other's way
-- ============================================================================

/-- The execution that a timer or the end of an attempt gets going in a step: the one that the
    timer opens, or the one that goes on after a failure. -/
def Transition.moved? (t : Transition) : Option Nat :=
  match t.source, t.event with
  | .running r, .speculate => some r.started
  | .running r, .execution index .told =>
    (r.executions.find? fun e => e.index = index).bind fun e =>
      match e.phase with
      | .reportingFailure .. => some index
      | _ => none
  | _, _ => none

/-- A step leaves the executions that wait for their turn undisturbed. -/
structure Spaced (before : List Transition) (t : Transition) : Prop where
  /-- An execution takes its turn as soon as it is opened. -/
  prompt : ∀ last, before.getLast? = some last → waiting t.source.executions ≠ [] →
    t.moment.now = last.moment.now
  /-- The one that was opened first takes its turn first. -/
  firstCome : ∀ index, t.event = .execution index .begin →
    ∀ e ∈ waiting t.source.executions, index ≤ e.index
  /-- No two executions are got going at the same instant. -/
  apart : ∀ t' ∈ before, t'.moment.now = t.moment.now →
    ∀ i j, t'.moved? = some i → t.moved? = some j → i = j

/-- The execution that begins in an event. -/
def Event.begins? : Event → Option Nat
  | .execution index .begin => some index
  | _ => none

theorem Event.begins?_eq_some {event : Event} {index : Nat} :
    event.begins? = some index ↔ event = .execution index .begin := by
  constructor
  · intro h
    unfold begins? at h
    split at h
    · cases h
      rfl
    · cases h
  · rintro rfl
    rfl

/-- Whether a step is spaced can be computed. -/
theorem spaced_iff {before : List Transition} {t : Transition} : Spaced before t ↔
    (∀ last ∈ before.getLast?, waiting t.source.executions ≠ [] →
        t.moment.now = last.moment.now) ∧
      (∀ index ∈ t.event.begins?, ∀ e ∈ waiting t.source.executions, index ≤ e.index) ∧
      ∀ t' ∈ before, t'.moment.now = t.moment.now →
        ∀ i ∈ t'.moved?, ∀ j ∈ t.moved?, i = j := by
  constructor
  · rintro ⟨prompt, firstCome, apart⟩
    exact ⟨prompt, fun index h => firstCome index (Event.begins?_eq_some.mp h),
      fun t' ht' hnow i hi j hj => apart t' ht' hnow i j hi hj⟩
  · rintro ⟨prompt, firstCome, apart⟩
    exact ⟨prompt, fun index h => firstCome index (Event.begins?_eq_some.mpr h),
      fun t' ht' hnow i j hi hj => apart t' ht' hnow i hi j hj⟩

instance (before : List Transition) (t : Transition) : Decidable (Spaced before t) :=
  decidable_of_iff _ spaced_iff.symm

variable {s : Settings} {ts : List Transition} {σ : State} {r : Running} {e e' : Execution}

-- ============================================================================
-- Executions in order
-- ============================================================================

/-- The executions in flight have been opened. -/
theorem Run.index_lt (h : Run s ts (.running r)) : ∀ e ∈ r.executions, e.index < r.started := by
  obtain ⟨origins, chronicle, hlength⟩ := (Law.decided s).chronicle h
  intro e he
  rw [← hlength r.started rfl]
  exact chronicle.index_lt he

/-- The executions in flight stand in the order in which they were opened. -/
theorem Run.sorted (h : Run s ts σ) : (σ.executions.map Execution.index).Pairwise (· < ·) := by
  refine h.invariant (fun _ σ => (σ.executions.map Execution.index).Pairwise (· < ·)) .nil ?_
  intro ts m σ event σ' deeds run ih move
  have hroute := move.route run.distinct
  generalize Deed.starts deeds = tried, Deed.opened deeds = opened at hroute
  cases hroute with
  | advances mem index =>
    exact (map_index_replaced index).symm ▸ ih
  | launches source take executions opener =>
    rw [State.executions, executions, List.map_append]
    refine List.pairwise_append.mpr ⟨ih, List.pairwise_singleton .., ?_⟩
    intro i hi j hj
    obtain ⟨e, he, rfl⟩ := List.mem_map.mp hi
    rw [List.mem_singleton.mp hj]
    rcases opener with ⟨rfl, -⟩ | ⟨r₀, rfl, -, -, rfl⟩
    · simp [State.executions] at he
    · exact run.index_lt e he
  | quiet fewer => exact ih.sublist (fewer.map _)

-- ============================================================================
-- The executions that wait
-- ============================================================================

theorem waiting_append (executions more : List Execution) :
    waiting (executions ++ more) = waiting executions ++ waiting more :=
  List.filter_append ..

theorem waiting_cons_of_begun {rest : List Execution} (begun : e.phase ≠ .fresh) :
    waiting (e :: rest) = waiting rest := by
  rw [waiting, List.filter_cons_of_neg (by simpa using begun), waiting]

theorem waiting_cons_of_fresh {rest : List Execution} (fresh : e.phase = .fresh) :
    waiting (e :: rest) = e :: waiting rest := by
  rw [waiting, List.filter_cons_of_pos (by simpa using fresh), waiting]

theorem mem_waiting {executions : List Execution} :
    e ∈ waiting executions ↔ e ∈ executions ∧ e.phase = .fresh := by
  simp [waiting]

theorem waiting_sorted {executions : List Execution}
    (sorted : (executions.map Execution.index).Pairwise (· < ·)) :
    ((waiting executions).map Execution.index).Pairwise (· < ·) :=
  sorted.sublist (List.filter_sublist.map _)

/-- One execution is replaced where it stands. -/
theorem Running.replaced_eq {before after : List Execution}
    (distinct : (r.executions.map Execution.index).Nodup)
    (split : r.executions = before ++ e :: after) :
    r.replaced e.index e' = before ++ e' :: after := by
  rw [split, List.map_append, List.map_cons] at distinct
  have hdistinct := List.nodup_middle.mp distinct
  have others : ∀ o ∈ before ++ after, (if o.index = e.index then e' else o) = o := by
    intro o ho
    rw [if_neg]
    rintro heq
    rw [List.nodup_cons, ← List.map_append] at hdistinct
    exact hdistinct.1 (List.mem_map.mpr ⟨o, ho, heq⟩)
  rw [Running.replaced, split, List.map_append, List.map_cons, if_pos rfl]
  congr 1
  · refine (List.map_congr_left fun o ho => ?_).trans (List.map_id _)
    exact others o (List.mem_append_left _ ho)
  · congr 1
    refine (List.map_congr_left fun o ho => ?_).trans (List.map_id _)
    exact others o (List.mem_append_right _ ho)

/-- An execution that has begun leaves those that wait as they are, whatever it goes on to. -/
theorem waiting_replaced (distinct : (r.executions.map Execution.index).Nodup)
    (mem : e ∈ r.executions) (begun : e.phase ≠ .fresh) (still : e'.phase ≠ .fresh) :
    waiting (r.replaced e.index e') = waiting r.executions := by
  obtain ⟨before, after, split⟩ := List.append_of_mem mem
  rw [Running.replaced_eq distinct split, split, waiting_append, waiting_append,
    waiting_cons_of_begun begun, waiting_cons_of_begun still]

/-- The execution that begins is the first of those that wait. -/
theorem waiting_begin (sorted : (r.executions.map Execution.index).Pairwise (· < ·))
    (mem : e ∈ r.executions) (fresh : e.phase = .fresh) (begun : e'.phase ≠ .fresh)
    (first : ∀ o ∈ waiting r.executions, e.index ≤ o.index) :
    waiting r.executions = e :: waiting (r.replaced e.index e') := by
  obtain ⟨before, after, split⟩ := List.append_of_mem mem
  have hbefore : waiting before = [] := by
    refine List.filter_eq_nil_iff.mpr fun o ho waits => ?_
    have hlt : o.index < e.index := by
      rw [split, List.map_append, List.map_cons] at sorted
      exact (List.pairwise_append.mp sorted).2.2 _ (List.mem_map_of_mem ho) _ List.mem_cons_self
    refine Nat.not_le_of_lt hlt (first o (mem_waiting.mpr ⟨?_, by simpa using waits⟩))
    exact split ▸ List.mem_append_left _ ho
  have distinct : (r.executions.map Execution.index).Nodup := sorted.imp Nat.ne_of_lt
  rw [Running.replaced_eq distinct split, split, waiting_append, waiting_append, hbefore,
    waiting_cons_of_fresh fresh, waiting_cons_of_begun begun]
  rfl

-- ============================================================================
-- In line
-- ============================================================================

/-- An execution that waits for its turn was opened by the latest step of the timer, at the
    present instant, or it is the first one of the request and none has begun yet. -/
def Recent (ts : List Transition) (r : Running) (f : Execution) : Prop :=
  (f.index = 0 ∧ ∀ e ∈ r.executions, e.phase = .fresh) ∨
    ∃ t ∈ ts, t.moved? = some f.index ∧
      ∀ last, ts.getLast? = some last → t.moment.now = last.moment.now

/-- The hosts that were given are those that were tried, followed by those of the executions
    that wait for their turn. -/
structure InLine (ts : List Transition) (r : Running) : Prop where
  given : given ts = firstTried (Deed.starts (log ts)) ++
    (waiting r.executions).map (·.node.host)
  recent : ∀ f ∈ waiting r.executions, Recent ts r f

section Steps

variable {r' : Running} {f : Execution} {m : Moment} {event : ExecutionEvent} {sh : Shared}
  {tried : List HostInfo} {deeds : List Deed} {t : Transition}

/-- No time passes while an execution waits. -/
theorem Recent.concat (h : Recent ts r f) (spaced : Spaced ts t)
    (source : t.source = .running r) (waits : f ∈ waiting r.executions)
    (kept : f.index = 0 → (∀ e ∈ r.executions, e.phase = .fresh) →
      ∀ e ∈ r'.executions, e.phase = .fresh) : Recent (ts ++ [t]) r' f := by
  rcases h with ⟨hindex, hfresh⟩ | ⟨opener, hopener, hmoved, hnow⟩
  · exact .inl ⟨hindex, kept hindex hfresh⟩
  · refine .inr ⟨opener, List.mem_append_left _ hopener, hmoved, ?_⟩
    intro last hlast
    rw [List.getLast?_concat, Option.some.injEq] at hlast
    subst hlast
    obtain ⟨last, hlast⟩ := Option.isSome_iff_exists.mp
      (List.getLast?_isSome.mpr (List.ne_nil_of_mem hopener))
    rw [hnow last hlast, spaced.prompt last hlast]
    rw [source]
    exact List.ne_nil_of_mem waits

/-- Nobody waits while an execution goes on after a failure. -/
theorem InLine.nobody_waits {a : Attempt} {error : AttemptError} {d : Decision} (h : InLine ts r)
    (distinct : (r.executions.map Execution.index).Nodup) (mem : e ∈ r.executions)
    (phase : e.phase = .reportingFailure a error d) (spaced : Spaced ts t)
    (source : t.source = .running r) (told : t.event = .execution e.index .told) :
    waiting r.executions = [] := by
  by_contra waits
  obtain ⟨f, hf⟩ := List.exists_mem_of_ne_nil _ waits
  obtain ⟨hmem, hfresh⟩ := mem_waiting.mp hf
  rcases h.recent f hf with ⟨-, hall⟩ | ⟨opener, hopener, hmoved, hnow⟩
  · rw [hall e mem] at phase
    cases phase
  · obtain ⟨last, hlast⟩ := Option.isSome_iff_exists.mp
      (List.getLast?_isSome.mpr (List.ne_nil_of_mem hopener))
    have hinstant : opener.moment.now = t.moment.now :=
      (hnow last hlast).trans (spaced.prompt last hlast (by rwa [source])).symm
    have hgoes : t.moved? = some e.index := by
      simp [Transition.moved?, source, told, find?_of_mem distinct mem, phase]
    have hindex := spaced.apart _ hopener hinstant _ _ hmoved hgoes
    rw [eq_of_index_eq distinct mem hmem hindex, phase] at hfresh
    cases hfresh

/-- Those that waited still do when an execution that has begun goes on. -/
theorem InLine.still (h : InLine ts r) (mem : e ∈ r.executions) (begun : e.phase ≠ .fresh)
    (spaced : Spaced ts t) (source : t.source = .running r)
    (waits : waiting (r.replaced e.index e') = waiting r.executions) :
    ∀ f ∈ waiting (r.replaced e.index e'), Recent (ts ++ [t])
      { r with shared := sh, executions := r.replaced e.index e' } f := by
  intro f hf
  rw [waits] at hf
  exact (h.recent f hf).concat spaced source hf fun _ hall => absurd (hall e mem) begun

theorem starts_concat (ts : List Transition) (t : Transition) :
    Deed.starts (log (ts ++ [t])) = Deed.starts (log ts) ++ Deed.starts t.deeds := by
  rw [log_concat, Deed.starts_append]

/-- The execution that begins is the next one in line. -/
theorem InLine.begin {number : Nat} (h : InLine ts r) (run : Run s ts (.running r))
    (mem : e ∈ r.executions) (fresh : e.phase = .fresh) (begun : e'.phase ≠ .fresh)
    (spaced : Spaced ts t) (source : t.source = .running r)
    (met : t.event = .execution e.index .begin)
    (starts : Deed.starts t.deeds = [⟨e.node, e.index, number⟩])
    (gives : Request.given (ts ++ [t]) = Request.given ts) :
    InLine (ts ++ [t]) { r with shared := sh, executions := r.replaced e.index e' } := by
  have hfirst : ∀ o ∈ waiting r.executions, e.index ≤ o.index := by
    have hcome := spaced.firstCome _ met
    rwa [source] at hcome
  have hwaits := waiting_begin run.sorted mem fresh begun hfirst
  obtain ⟨grants, -, -, htour⟩ := run.tour
  refine ⟨?_, fun f hf => ?_⟩
  · rw [gives, starts_concat, starts, h.given, hwaits,
      firstTried_concat_of_new (htour.arrived e mem fresh).1, List.map_cons, List.append_assoc]
    rfl
  · have hmem : f ∈ waiting r.executions := hwaits ▸ List.mem_cons_of_mem e hf
    refine (h.recent f hmem).concat spaced source hmem fun hzero => ?_
    -- the one that has just begun was opened before
    have hsorted := waiting_sorted run.sorted
    rw [State.executions, hwaits] at hsorted
    have hlt := (List.pairwise_cons.mp hsorted).1 _ (List.mem_map_of_mem hf)
    rw [hzero] at hlt
    exact absurd hlt (Nat.not_lt_zero _)

/-- An execution stays on its node, which is tried once more. -/
theorem InLine.stay {number : Nat} (h : InLine ts r) (run : Run s ts (.running r))
    (mem : e ∈ r.executions) (begun : e.phase ≠ .fresh) (still : e'.phase ≠ .fresh)
    (spaced : Spaced ts t) (source : t.source = .running r)
    (starts : Deed.starts t.deeds = [⟨e.node, e.index, number⟩])
    (gives : Request.given (ts ++ [t]) = Request.given ts) :
    InLine (ts ++ [t]) { r with shared := sh, executions := r.replaced e.index e' } := by
  have hwaits := waiting_replaced (r := r) run.distinct mem begun still
  obtain ⟨grants, -, -, htour⟩ := run.tour
  have htried : tries e.node.host (Deed.starts (log ts)) ≠ 0 := by
    rw [(htour.staying e mem begun).1]
    exact Nat.succ_ne_zero _
  refine ⟨?_, h.still mem begun spaced source hwaits⟩
  rw [gives, starts_concat, starts, firstTried_concat_of_tried htried, hwaits]
  exact h.given

/-- An execution moves on to the next node of the plan, while nobody waits. -/
theorem InLine.moveOn {x : HostInfo} {p' : Plan} {notes : List PlanNote}
    (h : InLine ts r) (run : Run s ts (.running r)) (mem : e ∈ r.executions)
    (begun : e.phase ≠ .fresh) (still : e'.phase ≠ .fresh)
    (nobody : waiting r.executions = [])
    (starts : Deed.starts t.deeds = [x])
    (take : r.shared.plan.next t.moment.liveness = (some x.node, p', notes))
    (gives : Request.given (ts ++ [t]) = p'.yielded.reverse) :
    InLine (ts ++ [t]) { r with shared := sh, executions := r.replaced e.index e' } := by
  have hbefore : r.shared.plan.yielded.reverse = Request.given ts := run.yielded rfl
  have hwaits := (waiting_replaced (r := r) run.distinct mem begun still).trans nobody
  have hyields := Plan.next_yields take
  have hyielded : p'.yielded = x.node.host :: r.shared.plan.yielded :=
    (hyields.some_found x.node rfl).2.2.2
  obtain ⟨grants, hgrants, -, htour⟩ := run.tour
  have hnew := (Tour.new_of_yields (hgrants.trans hbefore.symm) hyields rfl e.index).1
  refine ⟨?_, ?_⟩
  · rw [gives, starts_concat, starts, firstTried_concat_of_new (htour.untried hnew), hwaits,
      hyielded, List.reverse_cons, hbefore, h.given, nobody, List.map_nil, List.append_nil,
      List.append_nil]
  · rw [hwaits]
    simp

/-- An execution goes on. -/
theorem InLine.advance (h : InLine ts r) (run : Run s ts (.running r)) (mem : e ∈ r.executions)
    (visit : e.Visit s t.moment r.shared event sh (.goesOn e') (Deed.starts t.deeds))
    (spaced : Spaced ts t) (source : t.source = .running r)
    (met : t.event = .execution e.index event)
    (target : t.target = .running { r with
      shared := sh, executions := r.replaced e.index e' }) :
    InLine (ts ++ [t]) { r with shared := sh, executions := r.replaced e.index e' } := by
  have hbefore : r.shared.plan.yielded.reverse = Request.given ts := run.yielded rfl
  have hafter : Request.given (ts ++ [t]) = sh.plan.yielded.reverse := by
    rw [Request.given_concat, target]
    rfl
  generalize hstarts : Deed.starts t.deeds = tried at visit
  cases visit with
  | leaves last => exact absurd rfl (last e')
  | remains node retries plan claim begun =>
    have hwaits := waiting_replaced run.distinct mem begun.1 begun.2
    refine ⟨?_, h.still mem begun.1 spaced source hwaits⟩
    rw [hafter, starts_concat, hstarts, plan, hbefore, h.given, List.append_nil, hwaits]
  | @tries e₁ lead onward free =>
    have hannounced : (e₁.announce t.moment.now).phase ≠ .fresh := by
      simp [Execution.announce]
    cases onward with
    | fresh phase =>
      exact h.begin run mem phase hannounced spaced source met hstarts (hafter.trans hbefore)
    | same phase below up =>
      exact h.stay run mem (by simp [phase]) hannounced spaced source hstarts
        (hafter.trans hbefore)
    | next phase moves take =>
      have hnobody := h.nobody_waits run.distinct mem phase spaced source met
      have hnext := Shared.nextNode_next take
      exact h.moveOn run mem (by simp [phase]) hannounced hnobody hstarts hnext hafter

/-- Another execution is opened, on the node that was taken for it. -/
theorem InLine.ofLaunch {executions : List Execution} {node : Node} {index : Nat} {level : Level}
    (before : Request.given ts = firstTried (Deed.starts (log ts)) ++
      (waiting executions).map (·.node.host))
    (launched : r.executions = executions ++ [Execution.new index node level])
    (gives : Request.given (ts ++ [t]) = Request.given ts ++ [node.host])
    (starts : Deed.starts t.deeds = [])
    (recent : ∀ f ∈ waiting executions, Recent (ts ++ [t]) r f)
    (new : Recent (ts ++ [t]) r (Execution.new index node level)) : InLine (ts ++ [t]) r := by
  have hwaits : waiting r.executions =
      waiting executions ++ [Execution.new index node level] := by
    rw [launched, waiting_append, waiting_cons_of_fresh rfl]
    rfl
  constructor
  · rw [gives, before, log_concat, Deed.starts_append, starts, List.append_nil, hwaits,
      List.map_append, List.append_assoc]
    rfl
  · rw [hwaits]
    exact List.forall_mem_append.mpr ⟨recent, List.forall_mem_singleton.mpr new⟩

/-- The first execution of a request is the only one that waits. -/
theorem InLine.first {node : Node} {notes : List PlanNote} {level : Level}
    (run : Run s ts .starting)
    (take : (freshShared s).plan.next t.moment.liveness = (some node, r.shared.plan, notes))
    (launched : r.executions = [Execution.new 0 node level]) (target : t.target = .running r)
    (starts : Deed.starts t.deeds = []) : InLine (ts ++ [t]) r := by
  have hbefore : (freshShared s).plan.yielded.reverse = Request.given ts := run.yielded rfl
  have hlog : log ts = [⟨none, .notify .requestStarted⟩] := run.standing
  have halone : r.executions = [] ++ [Execution.new 0 node level] := launched
  refine .ofLaunch ?_ halone ?_ starts (by simp [waiting]) (.inl ⟨rfl, ?_⟩)
  · rw [← hbefore, hlog]
    rfl
  · rw [Request.given_concat, target, ← hbefore, ← List.reverse_cons,
      ← ((Plan.next_yields take).some_found node rfl).2.2.2]
    rfl
  · rw [launched]
    exact List.forall_mem_singleton.mpr rfl

/-- A speculative execution waits behind all others. -/
theorem InLine.speculate {node : Node} {notes : List PlanNote} {level : Level} (h : InLine ts r)
    (run : Run s ts (.running r)) (spaced : Spaced ts t) (source : t.source = .running r)
    (fires : t.event = .speculate)
    (take : r.shared.plan.next t.moment.liveness = (some node, r'.shared.plan, notes))
    (launched : r'.executions = r.executions ++ [Execution.new r.started node level])
    (target : t.target = .running r') (starts : Deed.starts t.deeds = []) :
    InLine (ts ++ [t]) r' := by
  have hbefore : r.shared.plan.yielded.reverse = Request.given ts := run.yielded rfl
  refine .ofLaunch h.given launched ?_ starts (fun f hf => ?_) (.inr ⟨t, ?_, ?_, ?_⟩)
  · rw [Request.given_concat, target, ← hbefore, ← List.reverse_cons,
      ← ((Plan.next_yields take).some_found node rfl).2.2.2]
    rfl
  · refine (h.recent f hf).concat spaced source hf fun _ hall => ?_
    rw [launched]
    exact List.forall_mem_append.mpr ⟨hall, List.forall_mem_singleton.mpr rfl⟩
  · exact List.mem_append_right _ (List.mem_singleton_self _)
  · rw [Transition.moved?, source, fires]
    rfl
  · intro last hlast
    rw [List.getLast?_concat, Option.some.injEq] at hlast
    rw [← hlast]

/-- Nothing happens to those that wait. -/
theorem InLine.quiet (h : InLine ts r) (spaced : Spaced ts t) (source : t.source = .running r)
    (waits : waiting r'.executions = waiting r.executions)
    (fewer : r'.executions.Sublist r.executions) (starts : Deed.starts t.deeds = [])
    (gives : Request.given (ts ++ [t]) = Request.given ts) : InLine (ts ++ [t]) r' := by
  constructor
  · rw [gives, h.given, log_concat, Deed.starts_append, starts, List.append_nil, waits]
  · intro f hf
    rw [waits] at hf
    exact (h.recent f hf).concat spaced source hf fun _ hall o ho => hall o (fewer.subset ho)

end Steps

/-- If steps are spaced, the hosts that were tried are a first part of those that were given, and
    all is in line as long as the request is open. -/
theorem Run.inLine (h : Run s ts σ) : EachAfter Spaced ts →
    firstTried (Deed.starts (log ts)) <+: given ts ∧
      ∀ r, σ = .running r → r.shared.claim = none → InLine ts r := by
  refine h.invariant (fun ts σ => EachAfter Spaced ts →
    firstTried (Deed.starts (log ts)) <+: given ts ∧
      ∀ r, σ = .running r → r.shared.claim = none → InLine ts r) ?_ ?_
  · exact fun _ => ⟨List.nil_prefix, by simp⟩
  intro ts m σ event σ' deeds run ih move hspaced
  obtain ⟨hbefore, spaced⟩ := EachAfter.concat_iff.mp hspaced
  obtain ⟨hold, hline⟩ := ih hbefore
  have hroute := move.route run.distinct
  generalize hstarts : Deed.starts deeds = tried, Deed.opened deeds = opened at hroute
  have unchanged (none : tried = []) : firstTried (Deed.starts (log
      (ts ++ [⟨m, σ, event, σ', deeds⟩]))) <+: given (ts ++ [⟨m, σ, event, σ', deeds⟩]) := by
    rw [log_concat, Deed.starts_append, hstarts, none, List.append_nil]
    exact hold.trans (run.given_prefix move)
  cases hroute with
  | @advances r e e' _ sh _ mem index visit =>
    have hadvance (free : r.shared.claim = none) :=
      (hline r rfl free).advance (t := ⟨m, _, _, _, deeds⟩) run mem (hstarts ▸ visit) spaced
        rfl rfl rfl
    refine ⟨?_, ?_⟩
    · by_cases hnone : tried = []
      · exact unchanged hnone
      · rw [(hadvance (visit.free hnone)).given]
        exact List.prefix_append ..
    · rintro _ ⟨⟩ hfree
      exact hadvance (visit.claim hfree)
  | @launches _ _ r p node notes index source take executions opener =>
    refine ⟨unchanged rfl, ?_⟩
    rintro _ ⟨⟩ -
    rcases opener with ⟨rfl, rfl⟩ | ⟨r₀, rfl, free, rfl, rfl⟩ <;> cases source
    · exact .first run take executions rfl hstarts
    · exact (hline r₀ rfl free).speculate run spaced rfl rfl take executions rfl hstarts
  | quiet fewer kept =>
    refine ⟨unchanged rfl, ?_⟩
    rintro r' rfl hfree
    obtain ⟨r, rfl, free, hyielded, hwaits⟩ := kept r' rfl hfree
    refine (hline r rfl free).quiet spaced rfl hwaits fewer hstarts ?_
    have hgiven : r.shared.plan.yielded.reverse = given ts := run.yielded rfl
    rw [given_concat, ← hgiven, ← hyielded]
    rfl

/-- If steps are spaced, hosts are tried for the first time in the order in which the plan gave
    them. -/
theorem Run.tried_prefix (h : Run s ts σ) (spaced : EachAfter Spaced ts) :
    firstTried (Deed.starts (log ts)) <+: given ts :=
  (h.inLine spaced).1

end Request

end RequestEngine
