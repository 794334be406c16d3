/-
  RequestEngine.Proofs.Balancing.LocalFirst

  Plans of the default policy.  Whatever is chosen at random and however nodes go
  up and down between the calls, local nodes come before remote ones, remote ones
  only if the request may go there, and no permitted node is left out that is up
  all the time.

    * `LocalFirst.Local`, `LocalFirst.Permits` — which nodes are local, and permitted;
    * `LocalFirst.Covers` — what a plan of the policy yields, and `plan_covers`;
    * `Plan.drain_eq`     — a plan that is drained yields its nodes in order.
-/
import Mathlib.Data.List.Perm.Subperm
import RequestEngine.Proofs.Balancing.Schedule
import RequestEngine.Proofs.Cluster.Update

namespace RequestEngine

-- ============================================================================
-- Permitted nodes
-- ============================================================================

namespace LocalFirst

variable {p : LocalFirst} {a : Arrangement} {r : Routing} {s : Snapshot} {n : Node}

/-- A node of the preferred datacenter. All nodes are local if none is preferred. -/
def Local (p : LocalFirst) (n : Node) : Prop :=
  ∀ dc, p.datacenter = some dc → n.datacenter = some dc

/-- A node that a request may go to: a local one, or any if a datacenter is preferred, failover is
    permitted and the level is not a local one. -/
def Permits (p : LocalFirst) (r : Routing) (n : Node) : Prop :=
  p.Local n ∨ p.datacenter ≠ none ∧ p.permitFailover = true ∧
    r.level ∉ [Level.localOne, Level.localQuorum, Level.localSerial]

theorem isLocal_iff : p.isLocal n = true ↔ p.Local n := by
  unfold isLocal Local
  cases p.datacenter with
  | none => simp
  | some dc => simp

theorem mayFailOver_iff : p.mayFailOver r = true ↔ p.datacenter ≠ none ∧
    p.permitFailover = true ∧ r.level ∉ [Level.localOne, Level.localQuorum, Level.localSerial] := by
  have hlevel : r.level.isLocal = false ↔
      r.level ∉ [Level.localOne, Level.localQuorum, Level.localSerial] := by
    cases r.level <;> decide
  rw [mayFailOver, Bool.and_eq_true, Bool.and_eq_true, Bool.not_eq_true', hlevel, and_assoc,
    Option.isSome_iff_ne_none]

theorem permits_iff : p.Permits r n ↔ (p.isLocal n || p.mayFailOver r) = true := by
  rw [Bool.or_eq_true, isLocal_iff, mayFailOver_iff, Permits]

instance decidablePermits (p : LocalFirst) (r : Routing) : DecidablePred (p.Permits r) :=
  fun _ => decidable_of_iff _ permits_iff.symm

/-- The fallback holds just the permitted nodes. -/
theorem mem_fallback_iff : n ∈ p.fallback a r s ↔ n ∈ s.nodes ∧ p.Permits r n := by
  rw [permits_iff, fallback]
  have hnear : n ∈ a.shuffle (s.nodes.filter p.isLocal) ↔ n ∈ s.nodes ∧ p.isLocal n = true :=
    (a.shuffle_perm _).mem_iff.trans List.mem_filter
  cases hover : p.mayFailOver r with
  | false => simpa using hnear
  | true =>
    have hfar : n ∈ a.shuffle (s.nodes.filter fun n => !p.isLocal n) ↔
        n ∈ s.nodes ∧ (!p.isLocal n) = true :=
      (a.shuffle_perm _).mem_iff.trans List.mem_filter
    rw [if_pos rfl, List.mem_append, hnear, hfar]
    cases p.isLocal n <;> simp

theorem local_of_pick {l : Liveness} (h : p.pick a s l = some n) : n ∈ s.nodes ∧ p.Local n := by
  have hmem := (List.mem_filter.mp (a.choose_mem h)).1
  obtain ⟨hn, hlocal⟩ := List.mem_filter.mp hmem
  exact ⟨hn, isLocal_iff.mp hlocal⟩

theorem localFirst_of_local {nodes : List Node} (h : ∀ n ∈ nodes, p.Local n) :
    nodes.Pairwise fun m n => p.Local n → p.Local m :=
  List.pairwise_of_forall_mem_list fun m hm _ _ _ => h m hm

/-- The fallback has its local nodes first. -/
theorem fallback_localFirst : (p.fallback a r s).Pairwise fun m n => p.Local n → p.Local m := by
  have hnear : ∀ n ∈ a.shuffle (s.nodes.filter p.isLocal), p.Local n := fun n hn =>
    isLocal_iff.mp (List.mem_filter.mp ((a.shuffle_perm _).mem_iff.mp hn)).2
  have hfar : ∀ n ∈ a.shuffle (s.nodes.filter fun n => !p.isLocal n), ¬p.Local n := by
    intro n hn hlocal
    have hremote := (List.mem_filter.mp ((a.shuffle_perm _).mem_iff.mp hn)).2
    simp [isLocal_iff.mpr hlocal] at hremote
  unfold fallback
  split
  · refine List.pairwise_append.mpr ⟨localFirst_of_local hnear, ?_, fun m hm _ _ _ => hnear m hm⟩
    exact List.pairwise_of_forall_mem_list fun _ _ n hn hlocal => absurd hlocal (hfar n hn)
  · exact localFirst_of_local hnear

end LocalFirst

-- ============================================================================
-- Draining a plan
-- ============================================================================

namespace Plan

/-- A plan that is drained gives what calls under the same liveness yield. -/
theorem drain_go_eq {l : Liveness} {p : Plan} {nodes : List Node} {fuel : Nat}
    (h : (p.calls (List.replicate fuel l)).map Prod.fst = answered nodes fuel) :
    (drain.go l fuel p).1 = nodes := by
  induction fuel generalizing p nodes with
  | zero =>
    cases nodes with
    | nil => rfl
    | cons n rest => simp [answered, calls] at h
  | succ fuel ih =>
    rcases hnext : p.next l with ⟨found, p', notes⟩
    rw [List.replicate_succ, calls, hnext, List.map_cons] at h
    cases nodes with
    | nil =>
      obtain ⟨rfl, -⟩ := List.cons.inj h
      rw [drain.go, hnext]
    | cons n rest =>
      rw [answered_cons] at h
      obtain ⟨rfl, hrest⟩ := List.cons.inj h
      rw [drain.go, hnext]
      exact congrArg (n :: ·) (ih hrest)

/-- A new plan that is drained yields its nodes in order. -/
theorem drain_eq (policy : BalancingPolicy) (routing : Routing) (snapshot : Snapshot)
    (l : Liveness) : ∃ calls, ((new policy routing snapshot).drain l).1 =
        (new policy routing snapshot).order (List.replicate calls l) ∧
      ((new policy routing snapshot).order (List.replicate calls l)).length < calls := by
  obtain ⟨calls, hcalls⟩ : ∃ calls, calls = (policy.fallback routing snapshot l).nodes.length + 2 :=
    ⟨_, rfl⟩
  have hdrain : (new policy routing snapshot).drain l =
      drain.go l calls (new policy routing snapshot) := by
    rw [hcalls]
    rfl
  have hcalled := calls_new policy routing snapshot (List.replicate calls l)
  rw [List.length_replicate] at hcalled
  refine ⟨calls, ?_, ?_⟩
  · rw [hdrain]
    exact drain_go_eq hcalled
  · have hoffer : ∀ k, ((new policy routing snapshot).fallbackAt (List.replicate k l)).length ≤
        (policy.fallback routing snapshot l).nodes.length := by
      intro k
      cases k with
      | zero => exact Nat.zero_le _
      | succ k => exact Nat.le_refl _
    have hpicked := length_picked_le (new policy routing snapshot) (List.replicate calls l)
    have hfinite := length_order_le (new policy routing snapshot) (List.replicate calls l)
    rw [calledBack, List.drop_replicate] at hfinite
    have hleft := Nat.le_trans hfinite (Nat.add_le_add hpicked (hoffer _))
    omega

end Plan

-- ============================================================================
-- Plans of the policy
-- ============================================================================

namespace LocalFirst

/-- A new plan of the policy. -/
abbrev plan (p : LocalFirst) (a : Arrangement) (r : Routing) (s : Snapshot) : Plan :=
  Plan.new (.localFirst p a) r s

/-- What a plan of the policy yields. -/
structure Covers (p : LocalFirst) (r : Routing) (s : Snapshot) (schedule : List Liveness)
    (nodes : List Node) : Prop where
  permitted : ∀ n ∈ nodes, n ∈ s.nodes ∧ p.Permits r n
  /-- No local node comes after a remote one. -/
  localFirst : nodes.Pairwise fun m n => p.Local n → p.Local m
  /-- A permitted node that is up all the time is yielded once before the plan is over. -/
  complete : nodes.length < schedule.length → ∀ n ∈ s.nodes, p.Permits r n →
    (∀ l ∈ schedule, l.isUp n = true) → nodes.count n = 1
  /-- The plan is over when there have been more calls than there are nodes. -/
  finite : nodes.length ≤ s.nodes.length

variable {p : LocalFirst} {a : Arrangement} {r : Routing} {s : Snapshot}
  {schedule : List Liveness}

theorem mem_order {n : Node} (h : n ∈ (p.plan a r s).order schedule) :
    n ∈ s.nodes ∧ p.Permits r n := by
  rcases List.mem_append.mp h with hpicked | hserved
  · obtain ⟨l, later, -, hpick, -⟩ := Plan.mem_picked hpicked
    obtain ⟨hn, hlocal⟩ := local_of_pick hpick
    exact ⟨hn, .inl hlocal⟩
  · have hoffered := (Plan.served_sublist ..).subset hserved
    generalize Plan.calledBack _ schedule = called at hoffered
    cases called with
    | nil => cases hoffered
    | cons l later => exact mem_fallback_iff.mp hoffered

theorem order_localFirst :
    ((p.plan a r s).order schedule).Pairwise fun m n => p.Local n → p.Local m := by
  have hpicked : ∀ n ∈ (p.plan a r s).picked schedule, p.Local n := by
    intro n hn
    obtain ⟨l, later, -, hpick, -⟩ := Plan.mem_picked hn
    exact (local_of_pick hpick).2
  refine List.pairwise_append.mpr ⟨localFirst_of_local hpicked, ?_, fun m hm _ _ _ => hpicked m hm⟩
  generalize Plan.calledBack _ schedule = called
  cases called with
  | nil =>
    rw [Plan.served_nobody_asks]
    exact .nil
  | cons l later => exact fallback_localFirst.sublist (Plan.served_sublist ..)

/-- A permitted node that is up all the time is yielded if a call found nothing any more. -/
theorem mem_order_of_up (distinct : (s.nodes.map Node.host).Nodup)
    (spare : ((p.plan a r s).order schedule).length < schedule.length) {n : Node}
    (mem : n ∈ s.nodes) (permitted : p.Permits r n) (up : ∀ l ∈ schedule, l.isUp n = true) :
    n ∈ (p.plan a r s).order schedule := by
  have hhost : n.host ∈ ((p.plan a r s).order schedule).map Node.host := by
    rw [Plan.order, List.length_append] at spare
    have hlater : ((p.plan a r s).calledBack schedule).length =
        schedule.length - ((p.plan a r s).picked schedule).length :=
      List.length_drop
    have hup : ∀ l ∈ (p.plan a r s).calledBack schedule, l.isUp n = true :=
      fun l hl => up l (List.mem_of_mem_drop hl)
    rw [Plan.order, List.map_append, List.mem_append]
    generalize (p.plan a r s).calledBack schedule = called at spare hlater hup
    cases called with
    | nil =>
      rw [List.length_nil] at hlater
      omega
    | cons l later =>
      have hoffered : n ∈ (p.plan a r s).fallbackAt (l :: later) :=
        mem_fallback_iff.mpr ⟨mem, permitted⟩
      refine Plan.served_of_up hoffered hup ?_
      omega
  obtain ⟨m, hm, hsame⟩ := List.mem_map.mp hhost
  rwa [← List.inj_on_of_nodup_map distinct (mem_order hm).1 mem hsame]

theorem order_covers (distinct : (s.nodes.map Node.host).Nodup) (schedule : List Liveness) :
    p.Covers r s schedule ((p.plan a r s).order schedule) := by
  have hnodup : ((p.plan a r s).order schedule).Nodup := (Plan.order_nodup ..).of_map
  refine ⟨fun n hn => mem_order hn, order_localFirst, fun spare n mem permitted up => ?_, ?_⟩
  · have hmem := mem_order_of_up distinct spare mem permitted up
    exact List.count_eq_one_of_mem hnodup hmem
  · have hsub := List.Nodup.subperm hnodup fun n hn => (mem_order hn).1
    exact hsub.length_le

/-- If no node goes up or down, a plan is a permutation of the permitted nodes that are up. -/
theorem drain_perm (distinct : (s.nodes.map Node.host).Nodup) (l : Liveness) :
    ((p.plan a r s).drain l).1.Perm
      (s.nodes.filter fun n => p.Permits r n ∧ l.isUp n = true) := by
  obtain ⟨calls, hdrain, spare⟩ := Plan.drain_eq (.localFirst p a) r s l
  have hnodup : ((p.plan a r s).order (List.replicate calls l)).Nodup :=
    (Plan.order_nodup ..).of_map
  rw [hdrain]
  refine (List.perm_ext_iff_of_nodup hnodup (distinct.of_map.filter _)).mpr fun n => ?_
  rw [List.mem_filter, decide_eq_true_eq]
  constructor
  · intro hn
    obtain ⟨i, hi⟩ := List.getElem?_of_mem hn
    obtain ⟨l', hl', up⟩ := Plan.isUp_of_order hi
    obtain rfl : l' = l := List.eq_of_mem_replicate (List.mem_of_getElem? hl')
    exact ⟨(mem_order hn).1, (mem_order hn).2, up⟩
  · rintro ⟨mem, permitted, up⟩
    refine mem_order_of_up distinct (by simpa using spare) mem permitted fun l' hl' => ?_
    rw [List.eq_of_mem_replicate hl']
    exact up

/-- Plans of the policy cover the permitted nodes, whatever is chosen at random and however nodes
    go up and down between the calls. If none does, a plan is a permutation of the permitted nodes
    that are up. -/
theorem plan_covers (p : LocalFirst) (a : Arrangement) (r : Routing) (members : List Node) :
    (∀ schedule, ∃ nodes,
      ((p.plan a r (Snapshot.ofNodes members).1).calls schedule).map Prod.fst =
        Plan.answered nodes schedule.length ∧
      p.Covers r (Snapshot.ofNodes members).1 schedule nodes) ∧
    ∀ l, ((p.plan a r (Snapshot.ofNodes members).1).drain l).1.Perm
      ((Snapshot.ofNodes members).1.nodes.filter fun n => p.Permits r n ∧ l.isUp n = true) := by
  have hdistinct := Snapshot.ofNodes_nodup members
  refine ⟨fun schedule => ?_, drain_perm hdistinct⟩
  exact ⟨_, Plan.calls_new .., order_covers hdistinct schedule⟩

end LocalFirst

end RequestEngine
