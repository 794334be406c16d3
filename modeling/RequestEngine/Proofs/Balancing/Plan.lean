/-
  RequestEngine.Proofs.Balancing.Plan

  What asking a plan for a node comes to, said once.  A plan is lazy: it asks
  the policy to pick when its first node is wanted and for the fallback when that
  is not enough, and what the policy offers then is used up one node at a time.

    * `Plan.left`   — what is left of the fallback;
    * `Plan.Yields` — the outcome of one call: at most one node, which is up and
      new, and comes from what was left or has just been offered;
    * `Plan.Draws`  — what a plan can come to if at most one node is taken.
-/
import Mathlib.Data.List.Nodup
import RequestEngine.Balancing.Plan

namespace RequestEngine

/-- The routing information that a note shows. -/
def PlanNote.routing? : PlanNote → Option Routing
  | .pickAsked routing | .nothingToTry routing => some routing
  | _ => none

namespace BalancingPolicy

/-- The nodes that a policy offers when it is asked: the one it picks, or those of its
    fallback. -/
def offered (policy : BalancingPolicy) (routing : Routing) (snapshot : Snapshot)
    (live : Liveness) : PlanNote → List Node
  | .pickAsked _ => (policy.pick routing snapshot live).toList
  | .fallbackAsked => (policy.fallback routing snapshot live).nodes
  | _ => []

end BalancingPolicy

namespace Plan

/-- The nodes that are left of the fallback. -/
def left (p : Plan) : List Node :=
  match p.stage with
  | .fallingBack rest _ => rest
  | _ => []

/-- The nodes that the policy of a plan offers while it is asked. -/
def offered (p : Plan) (live : Liveness) (notes : List PlanNote) : List Node :=
  notes.flatMap (p.policy.offered p.routing p.snapshot live)

/-- What it comes to if a plan is asked for a node: `pool` are the nodes that it may come from. -/
structure Yields (p : Plan) (live : Liveness) (pool : List Node) (found : Option Node)
    (p' : Plan) (notes : List PlanNote) : Prop where
  policy : p'.policy = p.policy
  routing : p'.routing = p.routing
  snapshot : p'.snapshot = p.snapshot
  /-- A node that is found is up and new, and is not new any more. -/
  some_found : ∀ n, found = some n →
    n ∈ pool ∧ live.isUp n = true ∧ n.host ∉ p.yielded ∧ p'.yielded = n.host :: p.yielded
  none_found : found = none → p'.yielded = p.yielded
  left : ∀ n ∈ p'.left, n ∈ pool
  noted : ∀ note ∈ notes, ∀ r, note.routing? = some r → r = p.routing

variable {p p' : Plan} {live : Liveness} {found : Option Node} {notes : List PlanNote}

@[simp] theorem offered_append (p : Plan) (live : Liveness) (notes more : List PlanNote) :
    p.offered live (notes ++ more) = p.offered live notes ++ p.offered live more :=
  List.flatMap_append

theorem mem_offered_after {lead : List PlanNote} :
    ∀ n ∈ p.offered live notes, n ∈ p.left ++ p.offered live (lead ++ notes) := by
  intro n hn
  rw [offered_append]
  exact List.mem_append_right _ (List.mem_append_right _ hn)

theorem accepts_eq_true {n : Node} (h : p.accepts live n = (true, notes)) :
    live.isUp n = true ∧ n.host ∉ p.yielded := by
  unfold accepts at h
  split at h
  · cases h
  · rename_i new
    split at h
    · rename_i up
      exact ⟨up, new⟩
    · cases h

/-- Notes about nodes that are passed over show neither routing information nor an offer. -/
theorem accepts_notes {n : Node} {accepted : Bool} (h : p.accepts live n = (accepted, notes)) :
    ∀ note ∈ notes, note = .skippedDown n := by
  unfold accepts at h
  split at h
  · cases h
    simp
  · split at h <;> cases h <;> simp

/-- The first node that can be yielded is up and new; what is passed over is not looked at
    again. -/
theorem firstAccepted_spec {onlyUp : Bool} {nodes rest : List Node}
    (h : p.firstAccepted live onlyUp nodes = (found, rest, notes)) :
    (∀ n ∈ rest, n ∈ nodes) ∧ (∀ note ∈ notes, ∃ n, note = .skippedDown n) ∧
      ∀ n, found = some n → n ∈ nodes ∧ live.isUp n = true ∧ n.host ∉ p.yielded := by
  induction nodes generalizing found rest notes with
  | nil =>
    cases h
    simp
  | cons first others ih =>
    simp only [firstAccepted] at h
    split at h
    · obtain ⟨hrest, hnotes, hfound⟩ := ih h
      exact ⟨fun n hn => List.mem_cons_of_mem _ (hrest n hn), hnotes,
        fun n hn => ⟨List.mem_cons_of_mem _ (hfound n hn).1, (hfound n hn).2⟩⟩
    · rcases haccepts : p.accepts live first with ⟨accepted, passed⟩
      rw [haccepts] at h
      have hpassed := accepts_notes haccepts
      cases accepted with
      | true =>
        cases h
        refine ⟨fun n hn => List.mem_cons_of_mem _ hn, fun note hn => ⟨_, hpassed note hn⟩, ?_⟩
        rintro n ⟨⟩
        exact ⟨List.mem_cons_self, accepts_eq_true haccepts⟩
      | false =>
        rcases hothers : p.firstAccepted live onlyUp others with ⟨found', rest', more⟩
        rw [hothers] at h
        cases h
        obtain ⟨hrest, hnotes, hfound⟩ := ih hothers
        refine ⟨fun n hn => List.mem_cons_of_mem _ (hrest n hn), ?_,
          fun n hn => ⟨List.mem_cons_of_mem _ (hfound n hn).1, (hfound n hn).2⟩⟩
        exact List.forall_mem_append.mpr ⟨fun note hn => ⟨_, hpassed note hn⟩, hnotes⟩

theorem takeFrom_yields {onlyUp : Bool} {nodes : List Node}
    (h : p.takeFrom live nodes onlyUp = (found, p', notes)) :
    p.Yields live nodes found p' notes := by
  rcases haccepted : p.firstAccepted live onlyUp nodes with ⟨found', rest, passed⟩
  obtain ⟨hrest, hnotes, hfound⟩ := firstAccepted_spec haccepted
  simp only [takeFrom, haccepted, Prod.mk.injEq] at h
  obtain ⟨rfl, rfl, rfl⟩ := h
  have hnoted : ∀ note ∈ passed, ∀ r, note.routing? = some r → r = p.routing := by
    intro note hn r hr
    obtain ⟨n, rfl⟩ := hnotes note hn
    cases hr
  cases found' with
  | none => exact ⟨rfl, rfl, rfl, by simp, by simp, hrest, hnoted⟩
  | some n =>
    refine ⟨rfl, rfl, rfl, ?_, by simp, hrest, hnoted⟩
    rintro _ ⟨⟩
    obtain ⟨mem, up, new⟩ := hfound n rfl
    exact ⟨mem, up, new, rfl⟩

/-- Notes about more than what was asked for leave everything else as it is. -/
theorem Yields.noting {pool more : List Node} (h : p.Yields live pool found p' notes)
    (lead : List PlanNote)
    (leads : ∀ note ∈ lead, ∀ r, note.routing? = some r → r = p.routing)
    (wider : ∀ n ∈ pool, n ∈ more) : p.Yields live more found p' (lead ++ notes) :=
  { h with
    some_found := fun n hn =>
      have ⟨mem, rest⟩ := h.some_found n hn
      ⟨wider n mem, rest⟩
    left := fun n hn => wider n (h.left n hn)
    noted := List.forall_mem_append.mpr ⟨leads, h.noted⟩ }

theorem startFallback_yields (h : p.startFallback live = (found, p', notes)) :
    p.Yields live (p.offered live notes) found p' notes := by
  rcases htake : p.takeFrom live (p.policy.fallback p.routing p.snapshot live).nodes
    (p.policy.fallback p.routing p.snapshot live).onlyUp with ⟨found', p'', passed⟩
  simp only [startFallback, htake, Prod.mk.injEq] at h
  obtain ⟨rfl, rfl, rfl⟩ := h
  refine (takeFrom_yields htake).noting [.fallbackAsked] ?_ ?_
  · simp [PlanNote.routing?]
  · intro n hn
    exact List.mem_append_left _ hn

theorem startWithFallback_yields (h : p.startWithFallback live = (found, p', notes)) :
    p.Yields live (p.offered live notes) found p' notes := by
  rcases hfallback : p.startFallback live with ⟨found', p'', asked⟩
  have hyields := startFallback_yields hfallback
  simp only [startWithFallback, hfallback] at h
  cases found' with
  | some n =>
    cases h
    exact hyields
  | none =>
    cases h
    refine ⟨hyields.policy, hyields.routing, hyields.snapshot, by simp, hyields.none_found,
      by simp [left], List.forall_mem_append.mpr ⟨hyields.noted, ?_⟩⟩
    intro note hn r hr
    rw [List.mem_singleton.mp hn, hyields.routing] at hr
    exact (Option.some.inj hr).symm

/-- Whatever a plan yields is up, new, and was offered. -/
theorem next_yields (h : p.next live = (found, p', notes)) :
    p.Yields live (p.left ++ p.offered live notes) found p' notes := by
  unfold next at h
  split at h
  · have hasked : ∀ note ∈ PlanNote.pickAsked p.routing ::
        ((p.policy.pickWarning p.routing p.snapshot live).map PlanNote.pickWarned).toList,
        ∀ r, note.routing? = some r → r = p.routing := by
      cases p.policy.pickWarning p.routing p.snapshot live <;> simp [PlanNote.routing?]
    split at h
    · rename_i n pick
      rcases haccepts : p.accepts live n with ⟨accepted, passed⟩
      rw [haccepts] at h
      cases accepted with
      | true =>
        cases h
        obtain ⟨up, new⟩ := accepts_eq_true haccepts
        refine ⟨rfl, rfl, rfl, ?_, by simp, by simp [left], hasked⟩
        rintro _ ⟨⟩
        exact ⟨by simp [offered, BalancingPolicy.offered, pick], up, new, rfl⟩
      | false =>
        rcases hfallback : p.startWithFallback live with ⟨found', p'', more⟩
        simp only [hfallback, Prod.mk.injEq] at h
        obtain ⟨rfl, rfl, rfl⟩ := h
        refine (startWithFallback_yields hfallback).noting _ ?_ mem_offered_after
        refine List.forall_mem_append.mpr ⟨hasked, fun note hn => ?_⟩
        rw [accepts_notes haccepts note hn]
        simp [PlanNote.routing?]
    · rcases hfallback : p.startWithFallback live with ⟨found', p'', more⟩
      simp only [hfallback, Prod.mk.injEq] at h
      obtain ⟨rfl, rfl, rfl⟩ := h
      exact (startWithFallback_yields hfallback).noting _ hasked mem_offered_after
  · exact (startFallback_yields h).noting [] (by simp) (by simp +contextual)
  · rename_i rest onlyUp stage
    refine (takeFrom_yields h).noting [] (by simp) fun n hn => ?_
    rw [left, stage]
    exact List.mem_append_left _ hn
  · rename_i stage
    cases h
    exact ⟨rfl, rfl, rfl, by simp, by simp, by simp [left, stage], by simp⟩

/-- Nothing is yielded twice. -/
theorem Yields.nodup {pool : List Node} (h : p.Yields live pool found p' notes)
    (new : p.yielded.reverse.Nodup) : p'.yielded.reverse.Nodup := by
  cases found with
  | none => exact h.none_found rfl ▸ new
  | some n =>
    obtain ⟨-, -, fresh, grown⟩ := h.some_found n rfl
    rw [grown, List.nodup_reverse, List.nodup_cons]
    exact ⟨fresh, List.nodup_reverse.mp new⟩

/-- Whatever is yielded is among the nodes that it may come from. -/
theorem Yields.among {pool nodes : List Node} (h : p.Yields live pool found p' notes)
    (source : ∀ n ∈ pool, n ∈ nodes)
    (before : ∀ host ∈ p.yielded.reverse, ∃ n ∈ nodes, n.host = host) :
    ∀ host ∈ p'.yielded.reverse, ∃ n ∈ nodes, n.host = host := by
  cases found with
  | none => exact h.none_found rfl ▸ before
  | some n =>
    obtain ⟨mem, -, -, grown⟩ := h.some_found n rfl
    rw [grown, List.reverse_cons]
    exact List.forall_mem_append.mpr
      ⟨before, List.forall_mem_singleton.mpr ⟨n, source n mem, rfl⟩⟩

/-- A plan from which at most one node is taken, what is left of it, and the notes about that. -/
def Draws (p : Plan) (live : Liveness) (p' : Plan) (notes : List PlanNote) : Prop :=
  ∃ found, p.Yields live (p.left ++ p.offered live notes) found p' notes

/-- Nothing is taken. -/
theorem Draws.refl (p : Plan) (live : Liveness) : p.Draws live p [] :=
  ⟨none, rfl, rfl, rfl, by simp, by simp, fun _ => List.mem_append_left _, by simp⟩

theorem draws_of_next (h : p.next live = (found, p', notes)) : p.Draws live p' notes :=
  ⟨found, next_yields h⟩

/-- What a plan yields comes after what it yielded before. -/
theorem Draws.yielded_prefix (h : p.Draws live p' notes) :
    p.yielded.reverse <+: p'.yielded.reverse := by
  obtain ⟨found, hyields⟩ := h
  cases found with
  | none => exact hyields.none_found rfl ▸ List.prefix_rfl
  | some n =>
    rw [(hyields.some_found n rfl).2.2.2, List.reverse_cons]
    exact List.prefix_append ..

end Plan

end RequestEngine
