/-
  RequestEngine.Proofs.Balancing.SingleTarget

  The policy that insists on one target, which is looked up in the snapshot or is a
  node of its own.  Whoever asks it for a plan gets this node if it is up at that
  moment, and nothing after it.

    * `Snapshot.First`, `Target.Names` — the node that is meant, said without a search;
    * `Plan.next_new_asks`             — the first call asks the policy to pick;
    * `Plan.next_new_of_bare`          — what it yields if there is nothing to fall
      back to.
-/
import RequestEngine.Proofs.Balancing.Confined

namespace RequestEngine

-- ============================================================================
-- Targets
-- ============================================================================

/-- The first node of a snapshot, in discovery order, that meets a condition. -/
def Snapshot.First (s : Snapshot) (p : Node → Prop) (n : Node) : Prop :=
  p n ∧ ∃ before after, s.nodes = before ++ n :: after ∧ ∀ o ∈ before, ¬ p o

theorem Snapshot.first_iff {s : Snapshot} {p : Node → Prop} [DecidablePred p] {n : Node} :
    s.First p n ↔ s.nodes.find? (fun o => decide (p o)) = some n := by
  rw [List.find?_eq_some_iff_append]
  simp only [First, decide_eq_true_eq, Bool.not_eq_true', decide_eq_false_iff_not]

namespace Target

/-- The node that is meant by a target: a node means itself, whether the snapshot holds it or not,
    a host id or an address the first node that has it. -/
def Names (t : Target) (s : Snapshot) (n : Node) : Prop :=
  match t with
  | node own => n = own
  | host id => s.First (fun o => o.host = id) n
  | address a => s.First (fun o => o.address = a) n

theorem names_iff {t : Target} {s : Snapshot} {n : Node} :
    t.Names s n ↔ t.find s = some n := by
  cases t with
  | node own =>
    show n = own ↔ some own = some n
    rw [Option.some.injEq, eq_comm]
  | host id => exact Snapshot.first_iff (p := fun o => o.host = id)
  | address a => exact Snapshot.first_iff (p := fun o => o.address = a)

end Target

-- ============================================================================
-- Policies
-- ============================================================================

namespace BalancingPolicy

/-- Whether a policy writes to the journal makes no difference to what it looks at. -/
theorem Confined.watching {policy : BalancingPolicy} {snapshot : Snapshot} {nodes : List Node}
    (h : policy.Confined snapshot nodes) (watched : Bool) :
    { policy with watched }.Confined snapshot nodes :=
  ⟨h.pick, h.fallback, h.warning, h.picked, h.offered⟩

end BalancingPolicy

-- ============================================================================
-- Plans
-- ============================================================================

/-- The policy is asked to pick a node. -/
def PlanNote.isPick : PlanNote → Bool
  | .pickAsked _ => true
  | _ => false

namespace Plan

variable {policy : BalancingPolicy} {routing : Routing} {snapshot : Snapshot} {live : Liveness}
  {found : Option Node} {p : Plan} {notes : List PlanNote}

/-- The first call to a plan asks the policy to pick. -/
theorem next_new_asks (h : (new policy routing snapshot).next live = (found, p, notes)) :
    notes.any PlanNote.isPick = true := by
  have asked (warned : List PlanNote) :
      (PlanNote.pickAsked routing :: warned).any PlanNote.isPick = true := rfl
  unfold next at h
  simp only [new] at h
  split at h
  · split at h
    · cases h
      exact asked _
    · simp only [Prod.mk.injEq] at h
      rw [← h.2.2, List.append_assoc]
      exact asked _
  · simp only [Prod.mk.injEq] at h
    rw [← h.2.2]
    exact asked _

/-- A fallback without any node yields none. -/
theorem startWithFallback_of_bare
    (bare : (p.policy.fallback p.routing p.snapshot live).nodes = []) :
    (p.startWithFallback live).1 = none := by
  have hnone : (p.startFallback live).1 = none := by
    simp only [startFallback, takeFrom, bare, firstAccepted]
  rcases hfallback : p.startFallback live with ⟨found, p', notes⟩
  rw [hfallback] at hnone
  cases hnone
  rw [startWithFallback, hfallback]

/-- If the policy has nothing to fall back to, the first call yields the node that it picks, if
    this is up. -/
theorem next_new_of_bare (bare : (policy.fallback routing snapshot live).nodes = [])
    (h : (new policy routing snapshot).next live = (found, p, notes)) :
    found = (policy.pick routing snapshot live).filter live.isUp := by
  have hnone : ((new policy routing snapshot).startWithFallback live).1 = none :=
    startWithFallback_of_bare bare
  have hfound : found = ((new policy routing snapshot).next live).1 := by rw [h]
  rw [hfound, next]
  simp only [new] at hnone ⊢
  cases hpick : policy.pick routing snapshot live with
  | none => exact hnone
  | some n => cases hup : live.isUp n <;> simp [accepts, hup, hnone, Option.filter_some]

end Plan

end RequestEngine
