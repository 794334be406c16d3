/-
  RequestEngine.Proofs.Request.Work

  How much work a request can make.  Whatever the policies ask for, every host
  is tried by one execution, at most once more than the cap on retries allows,
  and only hosts that the load balancing policy offered are tried at all.
-/
import Mathlib.Algebra.Order.BigOperators.Group.Finset
import RequestEngine.Proofs.Request.Order

namespace RequestEngine

/-- A list has at most so many elements as values may occur in it, times how often one may. -/
theorem length_le_of_count_le {α : Type} [DecidableEq α] {l : List α} {values : Finset α} {k : Nat}
    (among : ∀ a ∈ l, a ∈ values) (each : ∀ a, l.count a ≤ k) : l.length ≤ values.card * k := by
  calc l.length = ∑ a ∈ l.toFinset, l.count a := (List.sum_toFinset_count_eq_length l).symm
    _ ≤ l.toFinset.card * k := Finset.sum_le_card_nsmul _ _ _ fun a _ => each a
    _ ≤ values.card * k := by
      refine Nat.mul_le_mul_right k (Finset.card_le_card fun a ha => ?_)
      exact among a (List.mem_toFinset.mp ha)

theorem tries_eq_count (host : HostId) (starts : List HostInfo) :
    tries host starts = (starts.map (·.node.host)).count host := by
  rw [tries, List.count, List.countP_map]
  rfl

namespace Request

/-- The hosts that the load balancing policy offered, each once. -/
def offeredHosts (s : Settings) (ts : List Transition) : Finset HostId :=
  ((offers s ts).map Node.host).toFinset

/-- What a request may do to the hosts of the cluster. -/
structure BoundedWork (s : Settings) (ts : List Transition) (σ : State) : Prop where
  /-- A host is tried by one execution only. -/
  exclusive : ∀ h ∈ Deed.starts (log ts), ∀ h' ∈ Deed.starts (log ts),
    h.node.host = h'.node.host → h.execution = h'.execution
  /-- This execution tries no other host in between. -/
  consecutive : EachAfter (fun before h => tries h.node.host before ≠ 0 →
    lastTried h.execution before = some h.node) (Deed.starts (log ts))
  capped : ∀ host, tries host (Deed.starts (log ts)) ≤ s.sameTargetCap + 1
  /-- A node is tried again exactly when it may be. -/
  repeats : EachAfter (fun before t => ∀ node, Repeats before t node ↔ MayRepeat s before t node) ts
  /-- Hosts are first tried in the order of the plan. -/
  inOrder : EachAfter Spaced ts → firstTried (Deed.starts (log ts)) <+: given ts
  attempts : (Deed.starts (log ts)).length ≤ (offeredHosts s ts).card * (s.sameTargetCap + 1)
  executions : (Deed.opened (log ts)).length ≤ (offeredHosts s ts).card
  /-- No two executions in flight are at the same host, so no two attempts are. -/
  apart : (σ.executions.map (·.node.host)).Nodup

/-- Every request keeps to these bounds. -/
theorem Run.boundedWork {s : Settings} {ts : List Transition} {σ : State} (h : Run s ts σ) :
    BoundedWork s ts σ := by
  obtain ⟨grants, hgrants, hopened, htour⟩ := h.tour
  have hoffered : ∀ host ∈ grants.map (fun g => g.1.host), host ∈ offeredHosts s ts := by
    rw [hgrants]
    intro host hhost
    obtain ⟨n, hn, rfl⟩ := h.drawn.offered host hhost
    exact List.mem_toFinset.mpr (List.mem_map_of_mem hn)
  refine ⟨?_, htour.consecutive, htour.capped, h.repeats, h.tried_prefix, ?_, ?_, ?_⟩
  · intro x hx y hy same
    exact congrArg Prod.snd (htour.grant_eq (htour.granted x hx) (htour.granted y hy) same)
  · rw [← List.length_map (·.node.host)]
    refine length_le_of_count_le ?_ fun host => ?_
    · intro host hhost
      obtain ⟨x, hx, rfl⟩ := List.mem_map.mp hhost
      exact hoffered _ (List.mem_map.mpr ⟨_, htour.granted x hx, rfl⟩)
    · rw [← tries_eq_count]
      exact htour.capped host
  · calc (Deed.opened (log ts)).length ≤ grants.length := hopened
      _ = (grants.map fun g => g.1.host).toFinset.card := by
        rw [List.toFinset_card_of_nodup htour.distinct, List.length_map]
      _ ≤ (offeredHosts s ts).card :=
        Finset.card_le_card fun host hhost => hoffered host (List.mem_toFinset.mp hhost)
  · refine h.distinct.of_map.map_on fun e he o ho same => ?_
    have hindex := congrArg Prod.snd (htour.grant_eq (htour.placed e he) (htour.placed o ho) same)
    exact eq_of_index_eq h.distinct ho he hindex

/-- Two executions whose attempts get no connection, until no more are made. -/
def stubbornEvents : List (Moment × Event) :=
  eventsAt 0 [.told, .execution 0 .begin, .execution 0 .told] ++
    eventsAt 1 [.speculate, .execution 1 .begin, .execution 1 .told] ++
    eventsAt 2 (refusedAttempt 0) ++ eventsAt 3 (refusedAttempt 1) ++
    eventsAt 4 (refusedAttempt 0) ++ eventsAt 5 (refusedAttempt 1) ++
    eventsAt 6 (refusedAttempt 0) ++ eventsAt 7 (refusedAttempt 1) ++
    eventsAt 8 ((refusedAttempt 0).take 2) ++ eventsAt 9 ((refusedAttempt 1).take 2 ++ [.told])

/-- The steps of this run. -/
def stubbornSteps : List Transition :=
  ((replay stubbornSettings [] .starting stubbornEvents).map Prod.fst).getD []

/-- What it ends with. -/
def stubbornOutcome : Outcome :=
  .error (.noHostAvailable (List.replicate 4
    [⟨default, default, .pool .nodeDisabled⟩,
      ⟨otherNode.host, default, .pool .nodeDisabled⟩]).flatten)

theorem stubbornRun : Run stubbornSettings stubbornSteps (.finished stubbornOutcome) :=
  Run.start.replay stubbornEvents rfl

/-- Both nodes of the cluster are tried as often as the cap allows, and first in their order. -/
theorem Run.boundedWork_of_stubborn :
    BoundedWork stubbornSettings stubbornSteps (.finished stubbornOutcome) ∧
      EachAfter Spaced stubbornSteps ∧
        firstTried (Deed.starts (log stubbornSteps)) = given stubbornSteps ∧
          (Deed.starts (log stubbornSteps)).length =
            (offeredHosts stubbornSettings stubbornSteps).card *
              (stubbornSettings.sameTargetCap + 1) ∧
            (Deed.opened (log stubbornSteps)).length =
              (offeredHosts stubbornSettings stubbornSteps).card := by
  refine ⟨Run.boundedWork stubbornRun, ?_, ?_, ?_, ?_⟩
  · decide +kernel
  · decide +kernel
  · decide +kernel
  · decide +kernel

end Request

end RequestEngine
