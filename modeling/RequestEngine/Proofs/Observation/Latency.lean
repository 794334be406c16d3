/-
  RequestEngine.Proofs.Observation.Latency

  How far the mean latency can be trusted.  Metrics keep a count for each bucket, so
  the mean is taken of the middles of buckets, each as often as a value fell into it.
  A middle lies at most 3 above a value of its bucket and at most 4 below, and the
  roundings of both means keep that distance.

    * `Bucket.of_eq_of_iff`         — buckets do not overlap;
    * `Histogram.Contract.middle_le`, `le_middle` — the middle of a value's bucket is
      near it, by what is relied on alone;
    * `Metrics.accepted`            — the latencies that are stored, and
      `mean_ofLatencies` their mean;
    * `Metrics.latency_statistics`  — what is refused, and what the mean tells.
-/
import RequestEngine.Proofs.Observation.Counting

namespace RequestEngine

-- ============================================================================
-- Buckets
-- ============================================================================

namespace Bucket

/-- The bucket of a value is that of every value in it: no two buckets overlap. -/
theorem of_eq_of_iff {value other : Nat} :
    of other = of value ↔ (of value).first ≤ other ∧ other ≤ (of value).last := by
  constructor
  · intro same
    exact ⟨same ▸ (aligned other).first_le, same ▸ (aligned other).le_last⟩
  · rintro ⟨hfirst, hlast⟩
    simp only [of, width] at hfirst hlast ⊢
    rw [Bucket.mk.injEq]
    split_ifs at hfirst hlast ⊢ <;> omega

namespace Aligned

variable {b : Bucket} {width value : Nat}

/-- The middle of a bucket is above its values by less than half of its width, -/
theorem middle_le (h : b.Aligned width value) : b.middle ≤ value + (width - 1) / 2 := by
  have hends := h.ends
  have hfirst := h.first_le
  rw [middle]
  omega

/-- and below them by at most half of it. -/
theorem le_middle (h : b.Aligned width value) : value ≤ b.middle + width / 2 := by
  have hends := h.ends
  have hlast := h.le_last
  rw [middle]
  omega

end Aligned

end Bucket

namespace Histogram.Contract

variable {add : Histogram → Nat → Except LatencyError Histogram} {of : Nat → Bucket}
  {value : Nat}

/-- No bucket is wider than 8. -/
theorem aligned (h : Contract add of) (storable : value ≤ 65535) :
    ∃ width ≤ 8, (of value).Aligned width value := by
  rcases Nat.lt_or_ge value 8192 with hsingle | hmin
  · refine ⟨1, by decide, ?_⟩
    rw [h.single value hsingle]
    exact ⟨Nat.one_dvd _, rfl, Nat.le_refl _, Nat.le_refl _⟩
  rcases Nat.lt_or_ge value 16384 with hbelow | hmin'
  · exact ⟨2, by decide, h.byTwo value hmin hbelow⟩
  rcases Nat.lt_or_ge value 32768 with hbelow | hmin''
  · exact ⟨4, by decide, h.byFour value hmin' hbelow⟩
  · exact ⟨8, by decide, h.byEight value hmin'' storable⟩

/-- The middle of the bucket of a small value is the value. -/
theorem middle_of_lt (h : Contract add of) (small : value < 8192) : (of value).middle = value := by
  simp only [h.single value small, Bucket.middle]
  omega

theorem middle_le (h : Contract add of) (storable : value ≤ 65535) :
    (of value).middle ≤ value + 3 := by
  obtain ⟨width, hwidth, haligned⟩ := h.aligned storable
  have hle := haligned.middle_le
  omega

theorem le_middle (h : Contract add of) (storable : value ≤ 65535) :
    value ≤ (of value).middle + 4 := by
  obtain ⟨width, hwidth, haligned⟩ := h.aligned storable
  have hle := haligned.le_middle
  omega

end Histogram.Contract

-- ============================================================================
-- Sums and means
-- ============================================================================

/-- A distance that no term exceeds is not exceeded by the means, rounded down. -/
theorem sum_div_length_le {values : List Nat} {f g : Nat → Nat} {k : Nat}
    (near : ∀ value ∈ values, f value ≤ g value + k) (some : values ≠ []) :
    (values.map f).sum / values.length ≤ (values.map g).sum / values.length + k := by
  have hpos : 0 < values.length := List.length_pos_iff.mpr some
  have hsum : (values.map f).sum ≤ (values.map g).sum + k * values.length := by
    calc (values.map f).sum ≤ (values.map fun value => g value + k).sum :=
          List.sum_le_sum near
      _ = (values.map g).sum + k * values.length := by
          rw [List.sum_map_add, List.map_const', List.sum_replicate, nsmul_eq_mul,
            Nat.cast_id, Nat.mul_comm]
  calc (values.map f).sum / values.length
      ≤ ((values.map g).sum + k * values.length) / values.length := Nat.div_le_div_right hsum
    _ = (values.map g).sum / values.length + k := Nat.add_mul_div_right _ _ hpos

namespace Histogram

theorem mean_eq (h : Histogram) :
    h.mean = if h.size = 0 then .error .empty else .ok (weigh Bucket.middle h.counts / h.size) := by
  rw [mean, ← List.sum_eq_foldl_nat]
  rfl

end Histogram

-- ============================================================================
-- Stored latencies
-- ============================================================================

namespace Metrics

open Histogram (weigh bump weigh_bump largest)

/-- The latencies that can be stored, in whole milliseconds. -/
def accepted (latencies : List Duration) : List Nat :=
  (latencies.map Duration.millis).filter (· ≤ largest)

theorem le_of_accepted {latencies : List Duration} {value : Nat}
    (mem : value ∈ accepted latencies) : value ≤ largest :=
  of_decide_eq_true (List.mem_filter.mp mem).2

/-- A latency that is too long is refused. -/
theorem logLatency_of_long (m : Metrics) {latency : Duration} (long : largest < latency.millis) :
    m.logLatency latency = (m, some (.latency .outsideRange)) := by
  rw [logLatency, Histogram.contract.refused _ _ long]

/-- Any other is stored in its bucket. -/
theorem logLatency_of_le (m : Metrics) {latency : Duration} (storable : latency.millis ≤ largest) :
    m.logLatency latency =
      ({ m with latencies := ⟨bump (Bucket.of latency.millis) m.latencies.counts⟩ }, none) := by
  rw [logLatency, Histogram.contract.stored _ _ storable]

theorem accepted_concat (latencies : List Duration) (latency : Duration) :
    accepted (latencies ++ [latency]) =
      accepted latencies ++ if latency.millis ≤ largest then [latency.millis] else [] := by
  rw [accepted, List.map_append, List.filter_append, ← accepted, List.map_singleton,
    List.filter_cons, List.filter_nil]
  simp only [decide_eq_true_eq]

theorem ofLatencies_concat (latencies : List Duration) (latency : Duration) :
    ofLatencies (latencies ++ [latency]) = ((ofLatencies latencies).logLatency latency).1 := by
  rw [ofLatencies, List.foldl_concat, ← ofLatencies]

/-- Whatever depends on buckets adds up over the latencies that were stored. -/
theorem weigh_ofLatencies (f : Bucket → Nat) (latencies : List Duration) :
    weigh f (ofLatencies latencies).latencies.counts =
      ((accepted latencies).map fun value => f (Bucket.of value)).sum := by
  induction latencies using List.reverseRecOn with
  | nil => rfl
  | append_singleton latencies latency ih =>
    rw [ofLatencies_concat, accepted_concat]
    by_cases hstorable : latency.millis ≤ largest
    · rw [logLatency_of_le _ hstorable, if_pos hstorable]
      simp [weigh_bump, ih]
    · rw [logLatency_of_long _ (Nat.lt_of_not_le hstorable), if_neg hstorable]
      simp [ih]

theorem size_ofLatencies (latencies : List Duration) :
    (ofLatencies latencies).latencies.size = (accepted latencies).length := by
  rw [Histogram.size_eq_weigh, weigh_ofLatencies, List.map_const', List.sum_replicate]
  simp

/-- The mean is that of the middles of the buckets of all values stored. -/
theorem mean_ofLatencies (latencies : List Duration) :
    (ofLatencies latencies).latencies.mean =
      if accepted latencies = [] then .error .empty
      else .ok (((accepted latencies).map fun value => (Bucket.of value).middle).sum /
        (accepted latencies).length) := by
  simp only [Histogram.mean_eq, size_ofLatencies, weigh_ofLatencies, List.length_eq_zero_iff]

-- ============================================================================
-- What the mean tells
-- ============================================================================

/-- What the mean of stored latencies tells about them. -/
structure Averages (latencies : List Duration) : Prop where
  /-- It is missing exactly if nothing was stored. -/
  empty : (ofLatencies latencies).latencies.mean = .error .empty ↔ accepted latencies = []
  /-- Otherwise it differs from the mean of the values, rounded down, by at most 4. -/
  near : accepted latencies ≠ [] → ∃ mean,
    (ofLatencies latencies).latencies.mean = .ok mean ∧
      mean ≤ (accepted latencies).sum / (accepted latencies).length + 4 ∧
      (accepted latencies).sum / (accepted latencies).length ≤ mean + 4
  /-- It is that mean if all values are small. -/
  exact : accepted latencies ≠ [] → (∀ value ∈ accepted latencies, value < 8192) →
    (ofLatencies latencies).latencies.mean =
      .ok ((accepted latencies).sum / (accepted latencies).length)
  /-- Their order does not matter. -/
  reordered (others : List Duration) : (accepted others).Perm (accepted latencies) →
    (ofLatencies others).latencies.mean = (ofLatencies latencies).latencies.mean

theorem averages (latencies : List Duration) : Averages latencies where
  empty := by
    rw [mean_ofLatencies]
    split_ifs with hnone <;> simp [hnone]
  near some := by
    rw [mean_ofLatencies, if_neg some]
    refine ⟨_, rfl, ?_, ?_⟩
    · have habove := sum_div_length_le
        (fun value hmem => Histogram.contract.middle_le (le_of_accepted hmem)) some
      rw [List.map_id'] at habove
      omega
    · have hbelow := sum_div_length_le
        (fun value hmem => Histogram.contract.le_middle (le_of_accepted hmem)) some
      rwa [List.map_id'] at hbelow
  exact some small := by
    rw [mean_ofLatencies, if_neg some,
      List.map_congr_left fun value hmem => Histogram.contract.middle_of_lt (small value hmem),
      List.map_id']
  reordered others same := by
    rw [mean_ofLatencies, mean_ofLatencies, same.length_eq, (same.map _).sum_eq]
    simp only [← List.length_eq_zero_iff, same.length_eq]

/-- Latencies above the largest value are refused and change nothing, all others are stored; and
    the mean tells what it should after any latencies. -/
theorem latency_statistics :
    (∀ (m : Metrics) (latency : Duration), if largest < latency.millis
      then m.logLatency latency = (m, some (.latency .outsideRange))
      else (m.logLatency latency).2 = none) ∧
    ∀ latencies, Averages latencies := by
  refine ⟨fun m latency => ?_, averages⟩
  split_ifs with hlong
  · exact logLatency_of_long m hlong
  · rw [logLatency_of_le m (Nat.le_of_not_lt hlong)]

end Metrics

end RequestEngine
