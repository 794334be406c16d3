/-
  RequestEngine.Proofs.Observation.Counting

  What metrics count.  Each counter counts the notifications of some kinds, and the
  histogram the successes whose latency it can store; the latency is the time since
  the start that is found under the host of the attempt.

    * `Counter`, `Metrics.record_tally`     — the counters;
    * `Histogram.weigh`, `weigh_bump`      — sums over the values of a histogram;
    * `Metrics.latency?`, `Metrics.record_size` — its number of values;
    * `newestStart`, `start?_hearAll`     — the start that is found is the latest that
      was told about the host;
    * `Coherent.winningTime?_eq`          — of a request that tells coherently it is
      the start of the attempt that succeeded.
-/
import Mathlib.Algebra.Order.BigOperators.Group.List
import Mathlib.Algebra.Order.Ring.Nat
import RequestEngine.Proofs.Observation.Attribution

namespace RequestEngine

open Tracking

-- ============================================================================
-- Histograms
-- ============================================================================

namespace Histogram

/-- The sum over all values of what depends on their buckets. -/
def weigh (f : Bucket → Nat) (counts : List (Bucket × Nat)) : Nat :=
  (counts.map fun (b, n) => f b * n).sum

@[simp] theorem weigh_nil (f : Bucket → Nat) : weigh f [] = 0 := rfl

@[simp] theorem weigh_cons (f : Bucket → Nat) (b : Bucket) (n : Nat)
    (rest : List (Bucket × Nat)) : weigh f ((b, n) :: rest) = f b * n + weigh f rest := rfl

/-- One more value adds its share, wherever its bucket is. -/
theorem weigh_bump (f : Bucket → Nat) (b : Bucket) (counts : List (Bucket × Nat)) :
    weigh f (bump b counts) = weigh f counts + f b := by
  induction counts with
  | nil => simp [bump]
  | cons head rest ih =>
    obtain ⟨c, n⟩ := head
    rw [bump]
    split
    case isTrue same =>
      simp only [weigh_cons, same, Nat.mul_succ]
      omega
    case isFalse =>
      split
      · simp only [weigh_cons]
        omega
      · simp only [weigh_cons, ih]
        omega

theorem size_eq_weigh (h : Histogram) : h.size = weigh (fun _ => 1) h.counts := by
  simp only [size, weigh, ← List.sum_eq_foldl_nat, Nat.one_mul]

/-- One more value is one more. -/
theorem size_bump (b : Bucket) (counts : List (Bucket × Nat)) :
    size ⟨bump b counts⟩ = size ⟨counts⟩ + 1 := by
  simp only [size_eq_weigh, weigh_bump]

end Histogram

-- ============================================================================
-- Counters
-- ============================================================================

/-- The counters of metrics. -/
inductive Counter where
  | requests | errors | requestTimeouts | cancelled | attemptErrors | retries | speculative

/-- Whether a notification is counted. -/
def Counter.counts : Counter → Notification → Bool
  | requests, .requestStarted => true
  | errors, .requestFailed _ => true
  | requestTimeouts, .requestFailed (.requestTimeout _) => true
  | cancelled, .requestCancelled => true
  | attemptErrors, .nodeFailed .. => true
  | retries, .nodeFailed _ _ decision _ => decision.isRetry
  | speculative, .speculated .. => true
  | _, _ => false

namespace Metrics

variable {m : Metrics} {t t' : Tracking} {now time : Instant} {n : Notification} {host : HostInfo}

/-- The value of a counter. -/
def tally (m : Metrics) : Counter → Nat
  | .requests => m.requests
  | .errors => m.errors
  | .requestTimeouts => m.requestTimeouts
  | .cancelled => m.cancelled
  | .attemptErrors => m.attemptErrors
  | .retries => m.retries
  | .speculative => m.speculative

theorem tally_logLatency (m : Metrics) (latency : Duration) (k : Counter) :
    (m.logLatency latency).1.tally k = m.tally k := by
  rw [logLatency]
  split <;> cases k <;> rfl

/-- Each counter counts the notifications of its own kinds. -/
theorem record_tally (m : Metrics) (t : Tracking) (now : Instant) (n : Notification) (k : Counter) :
    (m.record t now n).1.tally k = m.tally k + if k.counts n then 1 else 0 := by
  cases n with
  | nodeSucceeded host =>
    have hnone : k.counts (.nodeSucceeded host) = false := by cases k <;> rfl
    rw [hnone, record_nodeSucceeded]
    split
    · exact tally_logLatency ..
    · rfl
  | nodeFailed host errorType decision error =>
    cases k <;> cases hdecision : decision.isRetry <;>
      simp [record, tally, Counter.counts, hdecision]
  | requestFailed error => cases k <;> cases error <;> rfl
  | _ => cases k <;> rfl

-- ============================================================================
-- Latencies
-- ============================================================================

/-- The start of an attempt, if it is known. -/
def start? (t : Tracking) (host : HostInfo) : Option Instant :=
  match t.get (host.itemKey startKey) .instant with
  | some (.instant start) => some start
  | _ => none

/-- The latency that a notification shows. -/
def latency? (t : Tracking) (now : Instant) : Notification → Option Duration
  | .nodeSucceeded host => (start? t host).map now.since
  | _ => none

/-- Whether a latency can be stored. -/
def storable (latency : Duration) : Bool :=
  latency.millis ≤ Histogram.largest

theorem size_logLatency (m : Metrics) (latency : Duration) :
    (m.logLatency latency).1.latencies.size =
      m.latencies.size + if storable latency then 1 else 0 := by
  by_cases h : latency.millis ≤ Histogram.largest
  · simp only [logLatency, Histogram.contract.stored _ _ h, storable, h, decide_true, if_true]
    exact Histogram.size_bump ..
  · simp [logLatency, Histogram.contract.refused _ _ (Nat.lt_of_not_le h), storable, h]

/-- One more latency is stored with each success whose latency is known and can be stored. -/
theorem record_size (m : Metrics) (t : Tracking) (now : Instant) (n : Notification) :
    (m.record t now n).1.latencies.size =
      m.latencies.size + if (latency? t now n).any storable then 1 else 0 := by
  cases n with
  | nodeSucceeded host =>
    rw [record_nodeSucceeded, latency?, start?]
    generalize t.get (host.itemKey startKey) .instant = found
    cases found with
    | none => rfl
    | some item =>
      cases item with
      | instant start => exact size_logLatency ..
      | _ => rfl
  | _ => rfl

theorem start?_keyed (same : SameUnder IsKey t t') (host : HostInfo) :
    start? t host = start? t' host := by
  rw [start?, start?, same.get ⟨host, rfl⟩]

theorem latency?_keyed (same : SameUnder IsKey t t') :
    latency? t now n = latency? t' now n := by
  cases n with
  | nodeSucceeded host => rw [latency?, latency?, start?_keyed same]
  | _ => rfl

theorem start?_eq (same : t.item? (host.itemKey startKey) = t'.item? (host.itemKey startKey)) :
    start? t host = start? t' host := by
  rw [start?, start?, get_congr same]

end Metrics

/-- The start that a notification tells, with its time. -/
def Notification.startAt? (n : Notification) (time : Instant) : Option Instant :=
  match n with
  | .nodeStarted _ => some time
  | _ => none

/-- What is told about a host replaces the start that is kept for it. -/
theorem Metrics.start?_leaves (t : Tracking) (now : Instant) (n : Notification)
    (host : HostInfo) : start? (leaves t now n) host =
      if n.attemptHost? = some host.node.host then n.startAt? now else start? t host := by
  have other {h' : HostInfo} (about : n.attempt? = some h')
      (differs : n.attemptHost? ≠ some host.node.host) :
      host.itemKey startKey ≠ h'.itemKey startKey := by
    intro same
    rw [Notification.attemptHost?, about, HostInfo.itemKey_inj same] at differs
    exact differs rfl
  have own {h' : HostInfo} (about : n.attempt? = some h')
      (same : n.attemptHost? = some host.node.host) :
      host.itemKey startKey = h'.itemKey startKey := by
    rw [Notification.attemptHost?, about] at same
    rw [HostInfo.itemKey, HostInfo.itemKey, ← Option.some.inj same]
  split
  · rename_i hhost
    cases n with
    | nodeStarted h' =>
      rw [start?, Tracking.get, leaves, item?_insert, if_pos (own rfl hhost)]
      rfl
    | nodeFailed h' | nodeSucceeded h' =>
      rw [start?, own rfl hhost, leaves, get_take]
      rfl
    | requestStarted | speculated | requestSucceeded | requestFailed | requestCancelled =>
      cases hhost
  · rename_i hhost
    cases n with
    | nodeStarted h' => exact start?_eq (by rw [leaves, item?_insert, if_neg (other rfl hhost)])
    | nodeFailed h' | nodeSucceeded h' =>
      exact start?_eq (by rw [leaves, item?_take, if_neg fun h => other rfl hhost h.1])
    | requestStarted | speculated | requestSucceeded | requestFailed | requestCancelled => rfl

-- ============================================================================
-- The start that is found
-- ============================================================================

/-- The notifications of a request with their times. -/
def timesOf (request : Nat) (tellings : List Telling) : List (Notification × Instant) :=
  (tellings.filter (·.request = request)).map fun c => (c.notification, c.time)

/-- The start that the latest notification about a host has told, if it has told one. -/
def newestStart (host : HostId) (ns : List (Notification × Instant)) : Option Instant :=
  (ns.filter fun x => x.1.attemptHost? = some host).getLast?.bind fun x => x.1.startAt? x.2

theorem newestStart_concat (host : HostId) (ns : List (Notification × Instant)) (n : Notification)
    (time : Instant) : newestStart host (ns ++ [(n, time)]) =
      if n.attemptHost? = some host then n.startAt? time else newestStart host ns := by
  by_cases h : n.attemptHost? = some host <;> simp [newestStart, h]

/-- Metrics find the start that was told latest about a host, unless more was told about it. -/
theorem Metrics.start?_hearAll {b : Collector.Book Metrics} (empty : ∀ i host,
    start? (b.tracking i) host = none) (tellings : List Telling) (i : Nat) (host : HostInfo) :
    start? ((Collector.metrics.hearAll b tellings).tracking i) host =
      newestStart host.node.host (timesOf i tellings) := by
  induction tellings using List.reverseRecOn with
  | nil => exact empty i host
  | append_singleton tellings c ih =>
    rw [Collector.hearAll, List.foldl_concat, ← Collector.hearAll, timesOf, List.filter_append,
      List.map_append, ← timesOf]
    by_cases hi : c.request = i
    · subst hi
      have hleaves : (Collector.metrics.hear (Collector.metrics.hearAll b tellings) c).tracking
          c.request = leaves ((Collector.metrics.hearAll b tellings).tracking c.request) c.time
            c.notification := Function.update_self ..
      rw [hleaves, start?_leaves, ih]
      simp [newestStart_concat]
    · have hother : (Collector.metrics.hear (Collector.metrics.hearAll b tellings) c).tracking i =
          (Collector.metrics.hearAll b tellings).tracking i :=
        Function.update_of_ne (Ne.symm hi) ..
      rw [hother, ih]
      simp [hi]

/-- Each counter of a book counts what is told. -/
theorem Metrics.tally_hearAll (b : Collector.Book Metrics) (tellings : List Telling) (k : Counter) :
    (Collector.metrics.hearAll b tellings).record.tally k =
      b.record.tally k + tellings.countP fun c => k.counts c.notification := by
  induction tellings using List.reverseRecOn with
  | nil => rfl
  | append_singleton tellings c ih =>
    have hstep : (Collector.metrics.hear (Collector.metrics.hearAll b tellings) c).record.tally k =
        (Collector.metrics.hearAll b tellings).record.tally k +
          if k.counts c.notification then 1 else 0 := record_tally ..
    rw [Collector.hearAll, List.foldl_concat, ← Collector.hearAll, hstep, ih, List.countP_append,
      List.countP_singleton, Nat.add_assoc]

-- ============================================================================
-- The attempt that succeeds
-- ============================================================================

/-- How long the attempt took that was told to have succeeded. -/
def winningTime? (ns : List (Notification × Instant)) : Option Duration := do
  let (host, ended) ← ns.findSome? fun
    | (.nodeSucceeded host, time) => some (host, time)
    | _ => none
  let began ← ns.findSome? fun x => if x.1 = .nodeStarted host then some x.2 else none
  return ended.since began

theorem findSome?_eq_of_unique {α β : Type} {f : α → Option β} {l : List α} {a : α} {y : β}
    (mem : a ∈ l) (found : f a = some y) (unique : ∀ a' ∈ l, ∀ y', f a' = some y' → y' = y) :
    l.findSome? f = some y := by
  have hsome : (l.findSome? f).isSome = true :=
    List.findSome?_isSome_iff.mpr ⟨a, mem, Option.isSome_of_eq_some found⟩
  obtain ⟨y', hy'⟩ := Option.isSome_iff_exists.mp hsome
  obtain ⟨a', ha', hfound⟩ := List.exists_of_findSome?_eq_some hy'
  rw [hy', unique a' ha' y' hfound]

section Coherence

variable {ns before after : List (Notification × Instant)} {n : Notification} {host : HostInfo}
  {time : Instant}

/-- What is told of the end of an attempt follows the start of the same attempt. -/
theorem Coherent.newestStart_eq (h : Coherent (ns.map Prod.fst))
    (split : ns = before ++ (n, time) :: after) (report : n.report? = some host) :
    ∃ start, newestStart host.node.host before = some start ∧
      (.nodeStarted host, start) ∈ before := by
  have hlatest := h.own (before.map Prod.fst) n (after.map Prod.fst)
    (by rw [split, List.map_append, List.map_cons]) host report
  rw [latestOn, List.filter_map, List.getLast?_map] at hlatest
  obtain ⟨⟨_, start⟩, hlast, rfl⟩ := Option.map_eq_some_iff.mp hlatest
  refine ⟨start, ?_, (List.mem_filter.mp (List.mem_of_getLast? hlast)).1⟩
  rw [newestStart]
  exact Option.bind_eq_some_iff.mpr ⟨_, hlast, rfl⟩

/-- The start of an attempt is told at one time. -/
theorem Coherent.startTime_unique (h : Coherent (ns.map Prod.fst)) {start start' : Instant}
    (told : (.nodeStarted host, start) ∈ ns) (told' : (.nodeStarted host, start') ∈ ns) :
    start = start' := by
  have honce := h.once_pairwise
  rw [List.pairwise_map] at honce
  have hsame := eq_of_pairwise honce told told' (fun hother => hother host rfl rfl)
    (fun hother => hother host rfl rfl)
  exact congrArg Prod.snd hsame

/-- The time since the latest start on its host is the time that the attempt took that
    succeeded. -/
theorem Coherent.winningTime?_eq (h : Coherent (ns.map Prod.fst))
    (split : ns = before ++ (.nodeSucceeded host, time) :: after)
    (sole : ∀ x ∈ ns, ∀ host', x.1 = .nodeSucceeded host' → x = (.nodeSucceeded host, time)) :
    winningTime? ns = (newestStart host.node.host before).map time.since := by
  obtain ⟨start, hstart, hmem⟩ := h.newestStart_eq split rfl
  have hended : (.nodeSucceeded host, time) ∈ ns :=
    split ▸ List.mem_append_right _ List.mem_cons_self
  have hbegan : (.nodeStarted host, start) ∈ ns := split ▸ List.mem_append_left _ hmem
  have hwinner : ns.findSome? (fun
      | (.nodeSucceeded host, time) => some (host, time)
      | _ => none) = some (host, time) := by
    refine findSome?_eq_of_unique hended rfl ?_
    rintro ⟨n, time'⟩ hx y hy
    cases n with
    | nodeSucceeded host' =>
      cases sole _ hx host' rfl
      exact (Option.some.inj hy).symm
    | _ => cases hy
  have hfirst : ns.findSome? (fun x => if x.1 = .nodeStarted host then some x.2 else none) =
      some start := by
    refine findSome?_eq_of_unique hbegan (if_pos rfl) ?_
    rintro ⟨n, start'⟩ hx y hy
    split at hy
    · rename_i hn
      dsimp only at hn
      subst hn
      rw [← Option.some.inj hy]
      exact h.startTime_unique hx hbegan
    · cases hy
  rw [winningTime?, hwinner, Option.bind_eq_bind, Option.bind_some]
  dsimp only
  rw [hfirst, hstart]
  rfl

end Coherence

end RequestEngine
