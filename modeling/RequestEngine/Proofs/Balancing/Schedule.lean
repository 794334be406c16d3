/-
  RequestEngine.Proofs.Balancing.Schedule

  A plan that is asked again and again while nodes go up and down between the
  calls.  A schedule is the list of the tables of liveness that the calls find.  A
  fallback that is computed while it is used comes, under one schedule, to the list of
  the nodes that it gives.

    * `Plan.calls`       — what each call of a plan answers, and its notes;
    * `Plan.served`      — the nodes of a fallback that are up when they are reached;
    * `Plan.picked`, `Plan.order` — the node that is picked if it is up, and after it
      the nodes of the fallback that are served;
    * `Plan.Obeys`       — what the calls of a plan come to, and `Plan.calls_obey`.
-/
import RequestEngine.Proofs.Balancing.Plan

namespace RequestEngine

namespace Plan

/-- The answers and the notes of calls that find the tables of a schedule. -/
def calls : Plan → List Liveness → List (Option Node × List PlanNote)
  | _, [] => []
  | p, l :: later => ((p.next l).1, (p.next l).2.2) :: calls (p.next l).2.1 later

@[simp] theorem length_calls (p : Plan) (schedule : List Liveness) :
    (p.calls schedule).length = schedule.length := by
  induction schedule generalizing p with
  | nil => rfl
  | cons l later ih => rw [calls, List.length_cons, ih, List.length_cons]

-- ============================================================================
-- What is served of a fallback
-- ============================================================================

/-- The nodes of a fallback that are yielded by calls that find the tables of a schedule, if the
    hosts of `taken` were yielded before. A node is reached by the call after the one that yielded
    the node before it; it is left out for good if it is down then, or its host is taken. -/
def served (taken : List HostId) : List Node → List Liveness → List Node
  | n :: rest, l :: later =>
    if n.host ∉ taken ∧ l.isUp n = true then n :: served (n.host :: taken) rest later
    else served taken rest (l :: later)
  | _, _ => []

section Served

variable {taken : List HostId} {nodes rest : List Node} {n : Node} {l : Liveness}
  {schedule later : List Liveness}

@[simp] theorem served_nil (taken : List HostId) (schedule : List Liveness) :
    served taken [] schedule = [] := rfl

@[simp] theorem served_nobody_asks (taken : List HostId) (nodes : List Node) :
    served taken nodes [] = [] := by
  cases nodes <;> rfl

theorem served_cons_of_pos (h : n.host ∉ taken ∧ l.isUp n = true) :
    served taken (n :: rest) (l :: later) = n :: served (n.host :: taken) rest later :=
  if_pos h

theorem served_cons_of_neg (h : ¬(n.host ∉ taken ∧ l.isUp n = true)) :
    served taken (n :: rest) (l :: later) = served taken rest (l :: later) :=
  if_neg h

theorem served_sublist (taken : List HostId) (nodes : List Node) (schedule : List Liveness) :
    (served taken nodes schedule).Sublist nodes := by
  induction nodes generalizing taken schedule with
  | nil => exact .slnil
  | cons n rest ih =>
    cases schedule with
    | nil => exact List.nil_sublist _
    | cons l later =>
      by_cases h : n.host ∉ taken ∧ l.isUp n = true
      · rw [served_cons_of_pos h]
        exact .cons_cons n (ih ..)
      · rw [served_cons_of_neg h]
        exact .cons n (ih ..)

/-- Hosts that are served are distinct, and none of them was taken. -/
theorem served_nodup (taken : List HostId) (nodes : List Node) (schedule : List Liveness) :
    ((served taken nodes schedule).map Node.host).Nodup ∧
      ∀ n ∈ served taken nodes schedule, n.host ∉ taken := by
  induction nodes generalizing taken schedule with
  | nil => simp
  | cons n rest ih =>
    cases schedule with
    | nil => simp
    | cons l later =>
      by_cases h : n.host ∉ taken ∧ l.isUp n = true
      · rw [served_cons_of_pos h]
        obtain ⟨hnodup, hnew⟩ := ih (n.host :: taken) later
        constructor
        · refine List.nodup_cons.mpr ⟨fun hmem => ?_, hnodup⟩
          obtain ⟨m, hm, hhost⟩ := List.mem_map.mp hmem
          exact hnew m hm (hhost ▸ List.mem_cons_self)
        · refine List.forall_mem_cons.mpr ⟨h.1, fun m hm htaken => ?_⟩
          exact hnew m hm (List.mem_cons_of_mem _ htaken)
      · rw [served_cons_of_neg h]
        exact ih taken (l :: later)

/-- Each node that is served is up in the table of its call. -/
theorem isUp_of_served {i : Nat} (h : (served taken nodes schedule)[i]? = some n) :
    ∃ l, schedule[i]? = some l ∧ l.isUp n = true := by
  induction nodes generalizing taken schedule i with
  | nil => simp at h
  | cons first rest ih =>
    cases schedule with
    | nil => simp at h
    | cons l later =>
      by_cases hfirst : first.host ∉ taken ∧ l.isUp first = true
      · rw [served_cons_of_pos hfirst] at h
        cases i with
        | zero =>
          obtain rfl : first = n := Option.some.inj h
          exact ⟨l, rfl, hfirst.2⟩
        | succ i =>
          have hlater : (served (first.host :: taken) rest later)[i]? = some n := h
          obtain ⟨l', hl', up⟩ := ih hlater
          exact ⟨l', hl', up⟩
      · rw [served_cons_of_neg hfirst] at h
        exact ih h

/-- What is reached after a part of the fallback is found by the calls that are left. -/
theorem served_append (taken : List HostId) (nodes more : List Node) (schedule : List Liveness) :
    served taken (nodes ++ more) schedule = served taken nodes schedule ++
      served (((served taken nodes schedule).map Node.host).reverse ++ taken) more
        (schedule.drop (served taken nodes schedule).length) := by
  induction nodes generalizing taken schedule with
  | nil => rfl
  | cons n rest ih =>
    cases schedule with
    | nil => simp
    | cons l later =>
      by_cases h : n.host ∉ taken ∧ l.isUp n = true
      · rw [List.cons_append, served_cons_of_pos h, served_cons_of_pos h, ih]
        simp
      · rw [List.cons_append, served_cons_of_neg h, served_cons_of_neg h, ih]

/-- A node that is new and up when it is reached is served by the call that reaches it. -/
theorem served_reached {earlier : List Node}
    (table : schedule[(served taken earlier schedule).length]? = some l)
    (untaken : n.host ∉ taken)
    (new : n.host ∉ (served taken earlier schedule).map Node.host) (up : l.isUp n = true) :
    (served taken (earlier ++ n :: rest) schedule)[(served taken earlier schedule).length]? =
      some n := by
  obtain ⟨hlt, hl⟩ := List.getElem?_eq_some_iff.mp table
  have hreached : n.host ∉ ((served taken earlier schedule).map Node.host).reverse ++ taken := by
    simpa [untaken] using new
  rw [served_append, List.drop_eq_getElem_cons hlt, hl, served_cons_of_pos ⟨hreached, up⟩,
    List.getElem?_append_right (Nat.le_refl _), Nat.sub_self]
  rfl

/-- If there are calls left in the end, a node that is up all the time has been served, unless its
    host was taken. -/
theorem served_of_up (mem : n ∈ nodes) (up : ∀ l ∈ schedule, l.isUp n = true)
    (spare : (served taken nodes schedule).length < schedule.length) :
    n.host ∈ taken ∨ n.host ∈ (served taken nodes schedule).map Node.host := by
  obtain ⟨earlier, rest, rfl⟩ := List.append_of_mem mem
  refine or_iff_not_imp_left.mpr fun untaken => ?_
  rw [served_append, List.map_append, List.mem_append]
  refine or_iff_not_imp_left.mpr fun new => ?_
  -- the calls are not used up when the node is reached
  have hleft : (served taken earlier schedule).length < schedule.length := by
    refine Nat.lt_of_le_of_lt ?_ spare
    rw [served_append, List.length_append]
    exact Nat.le_add_right ..
  have hreached : n.host ∉ ((served taken earlier schedule).map Node.host).reverse ++ taken := by
    simpa [untaken] using new
  rw [List.drop_eq_getElem_cons hleft,
    served_cons_of_pos ⟨hreached, up _ (List.getElem_mem hleft)⟩]
  exact List.mem_map_of_mem List.mem_cons_self

end Served

-- ============================================================================
-- Calls that take nodes from the fallback
-- ============================================================================

/-- A plan that has asked for its fallback, or is over. -/
def Settled (p : Plan) : Prop :=
  (∃ rest onlyUp, p.stage = .fallingBack rest onlyUp) ∨ p.stage = .empty

/-- How often the fallback was asked for. -/
def fallbacks (notes : List PlanNote) : Nat :=
  notes.count .fallbackAsked

/-- A call that takes the next node of a fallback: what it finds comes first of all that is served
    from then on, and if it finds nothing, nothing is left. -/
structure Resumes (taken : List HostId) (nodes : List Node) (l : Liveness) (found : Option Node)
    (p' : Plan) : Prop where
  settled : p'.Settled
  serves : ∀ later,
    served taken nodes (l :: later) = found.toList ++ served p'.yielded p'.left later
  nothing_left : found = none → p'.left = []

section Calls

variable {p p' : Plan} {l : Liveness} {found : Option Node} {notes : List PlanNote}
  {nodes rest : List Node} {onlyUp : Bool}

theorem firstAccepted_serves (h : p.firstAccepted l onlyUp nodes = (found, rest, notes)) :
    (∀ later, served p.yielded nodes (l :: later) =
      found.toList ++ served (found.toList.map Node.host ++ p.yielded) rest later) ∧
      (found = none → rest = []) ∧ fallbacks notes = 0 := by
  induction nodes generalizing found rest notes with
  | nil =>
    cases h
    exact ⟨fun _ => rfl, fun _ => rfl, rfl⟩
  | cons n others ih =>
    simp only [firstAccepted] at h
    split at h
    · rename_i hdown
      have hskip : ¬(n.host ∉ p.yielded ∧ l.isUp n = true) := by
        simp only [Bool.and_eq_true, Bool.not_eq_true'] at hdown
        simp [hdown.2]
      obtain ⟨hserved, hrest⟩ := ih h
      exact ⟨fun later => (served_cons_of_neg hskip).trans (hserved later), hrest⟩
    · by_cases htaken : n.host ∈ p.yielded
      · have hskip : ¬(n.host ∉ p.yielded ∧ l.isUp n = true) := fun hn => hn.1 htaken
        simp only [accepts, if_pos htaken, Prod.mk.injEq] at h
        obtain ⟨rfl, rfl, rfl⟩ := h
        obtain ⟨hserved, hrest, hnotes⟩ := ih rfl
        exact ⟨fun later => (served_cons_of_neg hskip).trans (hserved later), hrest, hnotes⟩
      · cases hup : l.isUp n with
        | true =>
          simp only [accepts, if_neg htaken, hup, if_true, Prod.mk.injEq] at h
          obtain ⟨rfl, rfl, rfl⟩ := h
          exact ⟨fun later => served_cons_of_pos ⟨htaken, hup⟩, by simp, rfl⟩
        | false =>
          have hskip : ¬(n.host ∉ p.yielded ∧ l.isUp n = true) := by simp [hup]
          simp only [accepts, if_neg htaken, hup, Bool.false_eq_true, if_false,
            Prod.mk.injEq] at h
          obtain ⟨rfl, rfl, rfl⟩ := h
          obtain ⟨hserved, hrest, hnotes⟩ := ih rfl
          exact ⟨fun later => (served_cons_of_neg hskip).trans (hserved later), hrest, hnotes⟩

theorem takeFrom_resumes (h : p.takeFrom l nodes onlyUp = (found, p', notes)) :
    Resumes p.yielded nodes l found p' ∧ fallbacks notes = 0 := by
  rcases haccepted : p.firstAccepted l onlyUp nodes with ⟨found', rest, passed⟩
  obtain ⟨hserved, hrest, hnotes⟩ := firstAccepted_serves haccepted
  simp only [takeFrom, haccepted, Prod.mk.injEq] at h
  obtain ⟨rfl, rfl, rfl⟩ := h
  refine ⟨⟨.inl ⟨_, _, rfl⟩, fun later => (hserved later).trans ?_, hrest⟩, hnotes⟩
  cases found' <;> rfl

/-- A plan that asks for its fallback does so once. -/
theorem startFallback_resumes (h : p.startFallback l = (found, p', notes)) :
    Resumes p.yielded (p.policy.fallback p.routing p.snapshot l).nodes l found p' ∧
      fallbacks notes = 1 := by
  rcases htake : p.takeFrom l (p.policy.fallback p.routing p.snapshot l).nodes
    (p.policy.fallback p.routing p.snapshot l).onlyUp with ⟨found', p'', passed⟩
  obtain ⟨hresumes, hnotes⟩ := takeFrom_resumes htake
  simp only [startFallback, htake, Prod.mk.injEq] at h
  obtain ⟨rfl, rfl, rfl⟩ := h
  exact ⟨hresumes, List.count_cons_self.trans (congrArg (· + 1) hnotes)⟩

theorem startWithFallback_resumes (h : p.startWithFallback l = (found, p', notes)) :
    Resumes p.yielded (p.policy.fallback p.routing p.snapshot l).nodes l found p' ∧
      fallbacks notes = 1 := by
  rcases hfallback : p.startFallback l with ⟨found', p'', asked⟩
  obtain ⟨hresumes, hnotes⟩ := startFallback_resumes hfallback
  simp only [startWithFallback, hfallback] at h
  cases found' with
  | some n =>
    cases h
    exact ⟨hresumes, hnotes⟩
  | none =>
    cases h
    refine ⟨⟨.inr rfl, fun later => (hresumes.serves later).trans ?_, fun _ => rfl⟩, ?_⟩
    · rw [hresumes.nothing_left rfl]
      rfl
    · rw [fallbacks, List.count_append]
      exact hnotes

theorem Settled.next (settled : p.Settled) (h : p.next l = (found, p', notes)) :
    Resumes p.yielded p.left l found p' ∧ fallbacks notes = 0 := by
  rcases settled with ⟨rest, onlyUp, hstage⟩ | hstage
  · have hleft : p.left = rest := by rw [left, hstage]
    rw [Plan.next, hstage] at h
    rw [hleft]
    exact takeFrom_resumes h
  · have hleft : p.left = [] := by rw [left, hstage]
    rw [Plan.next, hstage] at h
    cases h
    rw [hleft]
    exact ⟨⟨.inr hstage, fun later => by rw [hleft]; rfl, fun _ => hleft⟩, rfl⟩

end Calls

-- ============================================================================
-- A whole schedule
-- ============================================================================

/-- The answers of some calls that yield the given nodes in order, and nothing once these are
    all. -/
def answered (nodes : List Node) (calls : Nat) : List (Option Node) :=
  nodes.map some ++ List.replicate (calls - nodes.length) none

theorem answered_cons (n : Node) (nodes : List Node) (calls : Nat) :
    answered (n :: nodes) (calls + 1) = some n :: answered nodes calls := by
  simp [answered]

theorem answered_nil (calls : Nat) : answered [] (calls + 1) = none :: answered [] calls := rfl

theorem getElem?_answered_eq_some {nodes : List Node} {calls i : Nat} {n : Node} :
    (answered nodes calls)[i]? = some (some n) ↔ nodes[i]? = some n := by
  simp only [answered, List.getElem?_append, List.length_map, List.getElem?_map,
    List.getElem?_replicate]
  split
  · exact Option.map_eq_some_iff.trans (by simp)
  · rename_i hlen
    rw [List.getElem?_eq_none (Nat.le_of_not_lt hlen)]
    split <;> simp

theorem getElem?_answered_eq_none {nodes : List Node} {calls i : Nat}
    (h : (answered nodes calls)[i]? = some none) : nodes.length ≤ i := by
  by_contra hlt
  rw [answered, List.getElem?_append_left (by simpa using hlt), List.getElem?_map] at h
  obtain ⟨n, -, hn⟩ := Option.map_eq_some_iff.mp h
  cases hn

/-- The node that the policy picks in the first of some calls, if it is up. -/
def picked (p : Plan) : List Liveness → List Node
  | [] => []
  | l :: _ => ((p.policy.pick p.routing p.snapshot l).filter l.isUp).toList

/-- The fallback that the policy offers in the first of some calls. -/
def fallbackAt (p : Plan) : List Liveness → List Node
  | [] => []
  | l :: _ => (p.policy.fallback p.routing p.snapshot l).nodes

/-- The calls that are left for the fallback. -/
def calledBack (p : Plan) (schedule : List Liveness) : List Liveness :=
  schedule.drop (p.picked schedule).length

/-- The nodes that the calls of a plan yield: first the one that is picked, and then those that are
    served of the fallback. -/
def order (p : Plan) (schedule : List Liveness) : List Node :=
  p.picked schedule ++
    served ((p.picked schedule).map Node.host) (p.fallbackAt (p.calledBack schedule))
      (p.calledBack schedule)

section Schedules

variable {p p' : Plan} {l : Liveness} {later : List Liveness} {found : Option Node}
  {notes : List PlanNote} {taken : List HostId} {nodes : List Node}

/-- What is left of a fallback is served to the calls that follow, and nobody asks for it again. -/
theorem Settled.calls (settled : p.Settled) (schedule : List Liveness) :
    (p.calls schedule).map Prod.fst =
        answered (served p.yielded p.left schedule) schedule.length ∧
      ∀ e ∈ p.calls schedule, fallbacks e.2 = 0 := by
  induction schedule generalizing p with
  | nil => simp [Plan.calls, answered]
  | cons l later ih =>
    rcases hnext : p.next l with ⟨found, p', notes⟩
    obtain ⟨resumes, hnotes⟩ := settled.next hnext
    obtain ⟨hanswers, hlater⟩ := ih resumes.settled
    rw [Plan.calls, hnext, List.map_cons, hanswers, resumes.serves]
    refine ⟨?_, List.forall_mem_cons.mpr ⟨hnotes, hlater⟩⟩
    cases found with
    | some n => exact (answered_cons ..).symm
    | none =>
      rw [resumes.nothing_left rfl]
      exact (answered_nil _).symm

/-- Calls that yield given nodes in order, of which the one at some position asks for the
    fallback. -/
structure Answers (answers : List (Option Node × List PlanNote)) (nodes : List Node) (asked : Nat) :
    Prop where
  yields : answers.map Prod.fst = answered nodes answers.length
  fallback : ∀ (i : Nat) e, answers[i]? = some e → fallbacks e.2 = if i = asked then 1 else 0

/-- The first call asks for the fallback and takes the first node of it. -/
theorem Resumes.answers (h : Resumes taken nodes l found p') (next : p.next l = (found, p', notes))
    (asked : fallbacks notes = 1) (later : List Liveness) :
    Answers (p.calls (l :: later)) (served taken nodes (l :: later)) 0 := by
  obtain ⟨hanswers, hlater⟩ := h.settled.calls later
  rw [Plan.calls, next]
  constructor
  · rw [List.map_cons, hanswers, h.serves, List.length_cons, length_calls]
    cases found with
    | some n => exact (answered_cons ..).symm
    | none =>
      rw [h.nothing_left rfl]
      exact (answered_nil _).symm
  · intro i e he
    cases i with
    | zero =>
      cases he
      exact asked
    | succ i => exact hlater e (List.mem_of_getElem? he)

/-- A call that yields the picked node comes before those that fall back. -/
theorem Answers.cons {answers : List (Option Node × List PlanNote)} {asked : Nat}
    (h : Answers answers nodes asked) (n : Node) (quiet : fallbacks notes = 0) :
    Answers ((some n, notes) :: answers) (n :: nodes) (asked + 1) := by
  constructor
  · rw [List.map_cons, h.yields, List.length_cons, answered_cons]
  · intro i e he
    cases i with
    | zero =>
      cases he
      exact quiet
    | succ i => simpa using h.fallback i e he

/-- A plan whose picked node has been yielded falls back when it is asked again. -/
theorem answers_of_picked (picked : p.stage = .picked) (schedule : List Liveness) :
    Answers (p.calls schedule) (served p.yielded (p.fallbackAt schedule) schedule) 0 := by
  cases schedule with
  | nil => exact ⟨rfl, fun i e he => by simp [Plan.calls] at he⟩
  | cons l later =>
    rcases hfallback : p.startFallback l with ⟨found, p', notes⟩
    obtain ⟨resumes, asked⟩ := startFallback_resumes hfallback
    have hnext : p.next l = (found, p', notes) := by rw [Plan.next, picked, ← hfallback]
    exact resumes.answers hnext asked later

/-- The first call yields the node that is picked if it is up, and else falls back. -/
theorem next_created (created : p.stage = .created) (unused : p.yielded = [])
    (h : p.next l = (found, p', notes)) :
    (∃ n, (p.policy.pick p.routing p.snapshot l).filter l.isUp = some n ∧ found = some n ∧
        p' = { p with stage := .picked, yielded := [n.host] } ∧ fallbacks notes = 0) ∨
      (p.policy.pick p.routing p.snapshot l).filter l.isUp = none ∧
        Resumes [] (p.policy.fallback p.routing p.snapshot l).nodes l found p' ∧
        fallbacks notes = 1 := by
  have hasked : fallbacks (PlanNote.pickAsked p.routing ::
      ((p.policy.pickWarning p.routing p.snapshot l).map PlanNote.pickWarned).toList) = 0 := by
    cases p.policy.pickWarning p.routing p.snapshot l <;> rfl
  rcases hfallback : p.startWithFallback l with ⟨found', p'', more⟩
  have hresumes := startWithFallback_resumes hfallback
  rw [unused] at hresumes
  rw [Plan.next, created] at h
  cases hpick : p.policy.pick p.routing p.snapshot l with
  | none =>
    simp only [hpick, hfallback, Prod.mk.injEq] at h
    obtain ⟨rfl, rfl, rfl⟩ := h
    refine .inr ⟨rfl, hresumes.1, ?_⟩
    rw [fallbacks, List.count_append, ← fallbacks, hasked, ← fallbacks, hresumes.2]
  | some n =>
    cases hup : l.isUp n with
    | true =>
      simp only [hpick, accepts, unused, List.not_mem_nil, if_false, hup, if_true,
        Prod.mk.injEq] at h
      obtain ⟨rfl, rfl, rfl⟩ := h
      exact .inl ⟨n, by simp [Option.filter, hup], rfl, rfl, hasked⟩
    | false =>
      simp only [hpick, accepts, unused, List.not_mem_nil, if_false, hup, Bool.false_eq_true,
        hfallback, Prod.mk.injEq] at h
      obtain ⟨rfl, rfl, rfl⟩ := h
      refine .inr ⟨by simp [Option.filter, hup], hresumes.1, ?_⟩
      have hskipped : fallbacks [PlanNote.skippedDown n] = 0 := rfl
      rw [fallbacks, List.count_append, List.count_append, ← fallbacks, ← fallbacks, hasked,
        hskipped, ← fallbacks, hresumes.2]

theorem picked_cons {n : Node}
    (h : (p.policy.pick p.routing p.snapshot l).filter l.isUp = some n) :
    p.picked (l :: later) = [n] := by
  rw [picked, h]
  rfl

theorem picked_cons_of_none (h : (p.policy.pick p.routing p.snapshot l).filter l.isUp = none) :
    p.picked (l :: later) = [] := by
  rw [picked, h]
  rfl

/-- The calls of a new plan yield its nodes in order, and the one after the node that was picked
    asks for the fallback. -/
theorem answers_of_created (created : p.stage = .created) (unused : p.yielded = [])
    (schedule : List Liveness) :
    Answers (p.calls schedule) (p.order schedule) (p.picked schedule).length := by
  cases schedule with
  | nil => exact ⟨rfl, fun i e he => by simp [Plan.calls] at he⟩
  | cons l later =>
    rcases hnext : p.next l with ⟨found, p', notes⟩
    rcases next_created created unused hnext with
      ⟨n, hpick, rfl, rfl, quiet⟩ | ⟨hpick, resumes, asked⟩
    · rw [order, calledBack, picked_cons hpick, Plan.calls, hnext]
      exact (answers_of_picked rfl later).cons n quiet
    · rw [order, calledBack, picked_cons_of_none hpick]
      exact resumes.answers hnext asked later

end Schedules

-- ============================================================================
-- The law
-- ============================================================================

/-- What the calls of a plan come to. -/
structure Obeys (p : Plan) (schedule : List Liveness)
    (answers : List (Option Node × List PlanNote)) : Prop where
  /-- Every call is answered. -/
  total : answers.length = schedule.length
  /-- The answers are the nodes in order, and nothing any more once these are all. -/
  yields : answers.map Prod.fst = answered (p.order schedule) schedule.length
  distinct : ((p.order schedule).map Node.host).Nodup
  up : ∀ (i : Nat) n, (answers.map Prod.fst)[i]? = some (some n) →
    ∃ l, schedule[i]? = some l ∧ l.isUp n = true
  /-- A node that was picked while it was down gets its turn in the fallback. -/
  again : ∀ l later n, schedule = l :: later → p.policy.pick p.routing p.snapshot l = some n →
    l.isUp n = false → ∀ earlier rest, p.fallbackAt schedule = earlier ++ n :: rest →
    n.host ∉ (served [] earlier schedule).map Node.host →
    ∀ l', schedule[(served [] earlier schedule).length]? = some l' → l'.isUp n = true →
    (answers.map Prod.fst)[(served [] earlier schedule).length]? = some (some n)
  /-- The fallback is asked for once: by the second call, or by the first one if no node that was
      up was picked. -/
  fallback : ∀ (i : Nat) e, answers[i]? = some e →
    fallbacks e.2 = if i = (p.picked schedule).length then 1 else 0
  /-- No more nodes are yielded than were offered. -/
  finite : (p.order schedule).length ≤
    (p.picked schedule).length + (p.fallbackAt (p.calledBack schedule)).length
  /-- A plan that has nothing to yield is over for good. -/
  exhausted : ∀ i j : Nat, i ≤ j → (answers.map Prod.fst)[i]? = some none →
    ∀ a, (answers.map Prod.fst)[j]? = some a → a = none

section Law

variable {p : Plan} {schedule : List Liveness}

theorem mem_picked {n : Node} (h : n ∈ p.picked schedule) :
    ∃ l later, schedule = l :: later ∧ p.policy.pick p.routing p.snapshot l = some n ∧
      l.isUp n = true := by
  cases schedule with
  | nil => cases h
  | cons l later =>
    have hpick := Option.mem_toList.mp h
    obtain ⟨hn, up⟩ := Option.filter_eq_some_iff.mp hpick
    exact ⟨l, later, rfl, hn, up⟩

theorem length_picked_le (p : Plan) (schedule : List Liveness) :
    (p.picked schedule).length ≤ 1 := by
  cases schedule with
  | nil => exact Nat.zero_le _
  | cons l later => exact Option.length_toList_le

/-- The hosts of a plan are distinct. -/
theorem order_nodup (p : Plan) (schedule : List Liveness) :
    ((p.order schedule).map Node.host).Nodup := by
  obtain ⟨hnodup, hnew⟩ := served_nodup ((p.picked schedule).map Node.host)
    (p.fallbackAt (p.calledBack schedule)) (p.calledBack schedule)
  have hfirst : ((p.picked schedule).map Node.host).Nodup := by
    have hlen := length_picked_le p schedule
    match h : p.picked schedule with
    | [] => exact List.nodup_nil
    | [n] => exact List.nodup_singleton _
    | _ :: _ :: _ => simp [h] at hlen
  rw [order, List.map_append]
  refine List.nodup_append.mpr ⟨hfirst, hnodup, fun host hhost other hother heq => ?_⟩
  obtain ⟨n, hn, rfl⟩ := List.mem_map.mp hother
  exact hnew n hn (heq ▸ hhost)

/-- Each node of a plan is up in the table of its call. -/
theorem isUp_of_order {i : Nat} {n : Node} (h : (p.order schedule)[i]? = some n) :
    ∃ l, schedule[i]? = some l ∧ l.isUp n = true := by
  rw [order, List.getElem?_append] at h
  split at h
  · rename_i hlt
    obtain ⟨l, later, hschedule, -, up⟩ := mem_picked (List.mem_of_getElem? h)
    have hzero : i = 0 := Nat.lt_one_iff.mp (Nat.lt_of_lt_of_le hlt (length_picked_le p schedule))
    exact ⟨l, by rw [hzero, hschedule]; rfl, up⟩
  · rename_i hge
    obtain ⟨l, hl, up⟩ := isUp_of_served h
    rw [calledBack, List.getElem?_drop, Nat.add_sub_cancel' (Nat.le_of_not_lt hge)] at hl
    exact ⟨l, hl, up⟩

/-- No more nodes are yielded than were offered. -/
theorem length_order_le (p : Plan) (schedule : List Liveness) : (p.order schedule).length ≤
    (p.picked schedule).length + (p.fallbackAt (p.calledBack schedule)).length := by
  rw [order, List.length_append]
  exact Nat.add_le_add_left (served_sublist ..).length_le _

/-- The calls of a new plan are answered by its nodes in order. -/
theorem calls_new (policy : BalancingPolicy) (routing : Routing) (snapshot : Snapshot)
    (schedule : List Liveness) : ((new policy routing snapshot).calls schedule).map Prod.fst =
      answered ((new policy routing snapshot).order schedule) schedule.length := by
  have h := answers_of_created (p := new policy routing snapshot) rfl rfl schedule
  rw [h.yields, length_calls]

/-- A plan yields the picked node and what its fallback serves, whatever policy made it and however
    nodes go up and down between the calls. -/
theorem calls_obey (policy : BalancingPolicy) (routing : Routing) (snapshot : Snapshot)
    (schedule : List Liveness) :
    (new policy routing snapshot).Obeys schedule
      ((new policy routing snapshot).calls schedule) := by
  have hanswers := calls_new policy routing snapshot schedule
  refine ⟨length_calls .., hanswers, order_nodup .., ?_, ?_,
    (answers_of_created rfl rfl schedule).fallback, length_order_le .., ?_⟩
  · intro i n h
    rw [hanswers] at h
    exact isUp_of_order (getElem?_answered_eq_some.mp h)
  · rintro l later n rfl hpick hdown earlier rest hoffer hnew l' hl' up
    have hnobody : (new policy routing snapshot).picked (l :: later) = [] :=
      picked_cons_of_none (by simp [hpick, Option.filter, hdown])
    rw [hanswers]
    refine getElem?_answered_eq_some.mpr ?_
    rw [order, calledBack, hnobody, List.nil_append, List.length_nil, List.drop_zero, hoffer]
    exact served_reached hl' List.not_mem_nil hnew up
  · intro i j hij hnone a ha
    rw [hanswers] at hnone ha
    cases a with
    | none => rfl
    | some n =>
      have hlt := (List.getElem?_eq_some_iff.mp (getElem?_answered_eq_some.mp ha)).1
      exact absurd (Nat.le_trans (getElem?_answered_eq_none hnone) hij) (Nat.not_le.mpr hlt)

end Law

end Plan

end RequestEngine
