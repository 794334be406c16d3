/-
  RequestEngine.Proofs.Balancing.Confined

  What plans look at.  A policy that is confined to some nodes offers no others
  and heeds the liveness of these alone; the provided policies are confined to the
  nodes of the snapshot that they are given, and to the one that they insist on, if
  they do.  So plans in the same state yield the same, under tables that agree on
  these nodes.

    * `Liveness.AgreeOn`         — tables that agree on some nodes;
    * `BalancingPolicy.Confined` — policies that look at these nodes only;
    * `Plan.next_agree`          — plans of such policies.
-/
import RequestEngine.Proofs.Balancing.Plan

namespace RequestEngine

-- ============================================================================
-- Liveness
-- ============================================================================

/-- Two tables agree on some nodes. -/
def Liveness.AgreeOn (nodes : List Node) (l l' : Liveness) : Prop :=
  ∀ n ∈ nodes, l.isUp n = l'.isUp n

namespace Liveness.AgreeOn

variable {nodes others : List Node} {l l' : Liveness}

instance decidable (nodes : List Node) (l l' : Liveness) : Decidable (AgreeOn nodes l l') :=
  inferInstanceAs (Decidable (∀ n ∈ nodes, l.isUp n = l'.isUp n))

theorem mono (h : AgreeOn nodes l l') (fewer : ∀ n ∈ others, n ∈ nodes) : AgreeOn others l l' :=
  fun n hn => h n (fewer n hn)

end Liveness.AgreeOn

-- ============================================================================
-- Policies
-- ============================================================================

/-- A policy that, for a given snapshot, offers none but the given nodes and heeds the liveness of
    these alone. -/
structure BalancingPolicy.Confined (policy : BalancingPolicy) (snapshot : Snapshot)
    (nodes : List Node) : Prop where
  pick : ∀ r l l', l.AgreeOn nodes l' → policy.pick r snapshot l = policy.pick r snapshot l'
  fallback : ∀ r l l', l.AgreeOn nodes l' →
    policy.fallback r snapshot l = policy.fallback r snapshot l'
  warning : ∀ r l l', l.AgreeOn nodes l' →
    policy.pickWarning r snapshot l = policy.pickWarning r snapshot l'
  picked : ∀ r l n, policy.pick r snapshot l = some n → n ∈ nodes
  offered : ∀ r l, ∀ n ∈ (policy.fallback r snapshot l).nodes, n ∈ nodes

namespace BalancingPolicy

variable {policy : BalancingPolicy} {snapshot : Snapshot} {nodes more : List Node}

theorem Confined.mono (h : policy.Confined snapshot nodes) (wider : ∀ n ∈ nodes, n ∈ more) :
    policy.Confined snapshot more where
  pick r l l' agree := h.pick r l l' (agree.mono wider)
  fallback r l l' agree := h.fallback r l l' (agree.mono wider)
  warning r l l' agree := h.warning r l l' (agree.mono wider)
  picked r l n found := wider n (h.picked r l n found)
  offered r l n hn := wider n (h.offered r l n hn)

theorem Confined.offers (h : policy.Confined snapshot nodes) (r : Routing) (l : Liveness)
    (note : PlanNote) : ∀ n ∈ policy.offered r snapshot l note, n ∈ nodes := by
  intro n hn
  cases note with
  | pickAsked => exact h.picked r l n (Option.mem_toList.mp hn)
  | fallbackAsked => exact h.offered r l n hn
  | pickWarned | skippedDown | nothingToTry => exact absurd hn List.not_mem_nil

theorem localFirst_confined (p : LocalFirst) (a : Arrangement) (snapshot : Snapshot) :
    (localFirst p a).Confined snapshot snapshot.nodes where
  pick r l l' agree := by
    refine congrArg a.choose (List.filter_congr fun n hn => ?_)
    exact agree n (List.mem_filter.mp hn).1
  fallback _ _ _ _ := rfl
  warning _ _ _ _ := rfl
  picked r l n found :=
    (List.mem_filter.mp (List.mem_filter.mp (a.choose_mem found)).1).1
  offered r l n hn := by
    have hnear (local? : Node → Bool) (h : n ∈ a.shuffle (snapshot.nodes.filter local?)) :
        n ∈ snapshot.nodes := (List.mem_filter.mp ((a.shuffle_perm _).mem_iff.mp h)).1
    simp only [localFirst, LocalFirst.fallback] at hn
    split at hn
    · exact (List.mem_append.mp hn).elim (hnear _) (hnear _)
    · exact hnear _ hn

theorem ordered_confined (rule : PickRule) (positions : Option (List Nat)) (snapshot : Snapshot) :
    (ordered rule positions).Confined snapshot snapshot.nodes where
  pick r l l' agree := by
    cases rule with
    | firstUp =>
      simp only [ordered]
      rw [← List.head?_filter, ← List.head?_filter, List.filter_congr agree]
    | nothing | position => rfl
  fallback _ _ _ _ := rfl
  warning _ _ _ _ := rfl
  picked r l n found := by
    cases rule with
    | firstUp => exact List.mem_of_find?_eq_some found
    | nothing => cases found
    | position i => exact List.mem_of_getElem? found
  offered r l n hn := by
    cases positions with
    | none => exact hn
    | some positions =>
      obtain ⟨i, -, hi⟩ := List.mem_filterMap.mp hn
      exact List.mem_of_getElem? hi

end BalancingPolicy

theorem BalancingPolicy.single_confined_target (t : Target) (snapshot : Snapshot) :
    (single t).Confined snapshot (t.find snapshot).toList where
  pick _ _ _ _ := rfl
  fallback _ _ _ _ := rfl
  warning r l l' agree := by
    -- the liveness of the target is shown with a node only, which is always found
    cases hfound : (t.find snapshot).isSome with
    | true => simp only [single, hfound, if_true]
    | false =>
      have htext : t.text l = t.text l' := by
        cases t with
        | node => cases hfound
        | host | address => rfl
      simp only [single, hfound, htext]
  picked _ _ _ found := Option.mem_toList.mpr found
  offered _ _ _ hn := absurd hn List.not_mem_nil

-- ============================================================================
-- Plans
-- ============================================================================

namespace Plan

variable {p : Plan} {live live' : Liveness} {nodes : List Node}

theorem firstAccepted_agree (onlyUp : Bool) (agree : live.AgreeOn nodes live') :
    p.firstAccepted live onlyUp nodes = p.firstAccepted live' onlyUp nodes := by
  induction nodes with
  | nil => rfl
  | cons n rest ih =>
    obtain ⟨hfirst, hrest⟩ := List.forall_mem_cons.mp agree
    rw [firstAccepted, firstAccepted, accepts, accepts, hfirst, ih hrest]

theorem takeFrom_agree (onlyUp : Bool) (agree : live.AgreeOn nodes live') :
    p.takeFrom live nodes onlyUp = p.takeFrom live' nodes onlyUp := by
  rw [takeFrom, takeFrom, firstAccepted_agree onlyUp agree]

section Confinement

variable (confined : p.policy.Confined p.snapshot nodes) (agree : live.AgreeOn nodes live')

include confined agree

theorem startFallback_agree : p.startFallback live = p.startFallback live' := by
  rw [startFallback, startFallback, confined.fallback p.routing live live' agree]
  dsimp only
  rw [takeFrom_agree _ (agree.mono (confined.offered p.routing live'))]

theorem startWithFallback_agree : p.startWithFallback live = p.startWithFallback live' := by
  rw [startWithFallback, startWithFallback, startFallback_agree confined agree]

/-- A plan whose policy is confined to some nodes, as is what is left of its fallback, yields the
    same under tables that agree on these nodes. -/
theorem next_agree (left : ∀ n ∈ p.left, n ∈ nodes) : p.next live = p.next live' := by
  unfold next
  cases hstage : p.stage with
  | created =>
    dsimp only
    rw [confined.pick p.routing live live' agree, confined.warning p.routing live live' agree,
      startWithFallback_agree confined agree]
    cases hpick : p.policy.pick p.routing p.snapshot live' with
    | none => rfl
    | some n =>
      dsimp only
      rw [accepts, accepts, agree n (confined.picked p.routing live' n hpick)]
  | picked => exact startFallback_agree confined agree
  | fallingBack rest onlyUp =>
    refine takeFrom_agree onlyUp (agree.mono fun n hn => left n ?_)
    rw [Plan.left, hstage]
    exact hn
  | empty => rfl

end Confinement

/-- Such a plan yields one of these nodes, and none but these is left of it. -/
theorem Yields.confined {p' : Plan} {found : Option Node} {notes : List PlanNote}
    (h : p.Yields live (p.left ++ p.offered live notes) found p' notes)
    (confined : p.policy.Confined p.snapshot nodes) (left : ∀ n ∈ p.left, n ∈ nodes) :
    (∀ n ∈ p'.left, n ∈ nodes) ∧ ∀ n, found = some n → n ∈ nodes := by
  have hpool : ∀ n ∈ p.left ++ p.offered live notes, n ∈ nodes := by
    refine List.forall_mem_append.mpr ⟨left, fun n hn => ?_⟩
    obtain ⟨note, -, hnote⟩ := List.mem_flatMap.mp hn
    exact confined.offers _ live note n hnote
  exact ⟨fun n hn => hpool n (h.left n hn), fun n hn => hpool n (h.some_found n hn).1⟩

end Plan

end RequestEngine
