/-
  RequestEngine.Observation.Histogram

  A histogram of latencies in milliseconds. Values below 8192 have buckets of
  their own; from there on the width of the buckets doubles with every power of
  two, up to 65535, the largest value that can be stored. The mean counts every
  bucket as its middle, rounded down, and a percentile is the upper end of the
  bucket it falls into. What the statistics rely on is `Histogram.Contract`.
-/

namespace RequestEngine

/-- A bucket, by the values at its ends. -/
structure Bucket where
  first : Nat
  last : Nat
  deriving DecidableEq, Repr

namespace Bucket

/-- The width of the bucket of a value: 1 below `2 ^ 13`, then 2, 4 and 8 as the power of two
    below the value grows. -/
def width (value : Nat) : Nat :=
  if value < 8192 then 1
  else if value < 16384 then 2
  else if value < 32768 then 4
  else 8

/-- The bucket of a value; buckets start at multiples of their width. -/
def of (value : Nat) : Bucket :=
  let w := width value
  ⟨value / w * w, value / w * w + w - 1⟩

/-- The middle of a bucket, rounded down. -/
def middle (b : Bucket) : Nat :=
  (b.first + b.last) / 2

end Bucket

/-- Why a histogram gave no answer. -/
inductive LatencyError where
  | outsideRange
  | invalidPercentile
  | empty
  deriving DecidableEq, Repr

namespace LatencyError

/-- The name of the kind of error. -/
def kindName : LatencyError → String
  | outsideRange | invalidPercentile => "HistogramError"
  | empty => "Empty"

/-- The text of the error. -/
def message : LatencyError → String
  | outsideRange => "Histogram error: the value is outside of the storable range"
  | invalidPercentile => "Histogram error: invalid percentile, must be in range 0.0..=100.0"
  | empty => "Histogram is empty"

end LatencyError

/-- Occupied buckets in ascending order, each with the number of values in it. -/
structure Histogram where
  counts : List (Bucket × Nat) := []
  deriving DecidableEq, Repr, Inhabited

namespace Histogram

/-- The largest value that can be stored. -/
def largest : Nat := 65535

/-- Adds one value to the count of its bucket. -/
def bump (b : Bucket) : List (Bucket × Nat) → List (Bucket × Nat)
  | [] => [(b, 1)]
  | (c, n) :: rest =>
    if b = c then (c, n + 1) :: rest
    else if b.first < c.first then (b, 1) :: (c, n) :: rest
    else (c, n) :: bump b rest

/-- Stores a value. -/
def add (h : Histogram) (value : Nat) : Except LatencyError Histogram :=
  if value ≤ largest then .ok ⟨bump (Bucket.of value) h.counts⟩ else .error .outsideRange

/-- The number of values stored. -/
def size (h : Histogram) : Nat :=
  (h.counts.map (·.2)).foldl (· + ·) 0

/-- The mean of the middles, weighted by the counts and rounded down. -/
def mean (h : Histogram) : Except LatencyError Nat :=
  if h.size = 0 then .error .empty
  else .ok ((h.counts.map fun (b, n) => b.middle * n).foldl (· + ·) 0 / h.size)

/-- The first bucket at which the cumulated count reaches a target. -/
def reach (target : Nat) : List (Bucket × Nat) → Option Bucket
  | [] => none
  | [(b, _)] => some b
  | (b, n) :: rest => if target ≤ n then some b else reach (target - n) rest

/-- How many values lie at or below a percentile. -/
def target (percentile : Float) (size : Nat) : Nat :=
  max 1 (percentile / 100.0 * size.toFloat).ceil.toUInt64.toNat

/-- The upper end of the bucket of a percentile. -/
def percentile (h : Histogram) (p : Float) : Except LatencyError Nat :=
  if 0.0 ≤ p && p ≤ 100.0 then
    match reach (target p h.size) h.counts with
    | some b => .ok b.last
    | none => .error .empty
  else .error .invalidPercentile

end Histogram

/-! ## What is relied on -/

/-- A bucket of a width that starts at a multiple of it and holds a value. -/
structure Bucket.Aligned (b : Bucket) (width value : Nat) : Prop where
  start : width ∣ b.first
  ends : b.last + 1 = b.first + width
  first_le : b.first ≤ value
  le_last : value ≤ b.last

theorem Bucket.width_pos (value : Nat) : 0 < width value := by
  unfold width
  repeat' split
  all_goals decide

theorem Bucket.aligned (value : Nat) : (of value).Aligned (width value) value where
  start := Nat.dvd_mul_left ..
  ends := Nat.sub_add_cancel (Nat.le_add_left_of_le (width_pos value))
  first_le := Nat.div_mul_le_self ..
  le_last := Nat.le_sub_one_of_lt (Nat.lt_div_mul_add (width_pos value))

/-- A histogram that stores values of up to 16 bits and tells them apart by their 12 leading bits
    behind the first: what becomes of a value, and the bucket in which it is counted. -/
structure Histogram.Contract (add : Histogram → Nat → Except LatencyError Histogram)
    (of : Nat → Bucket) : Prop where
  /-- A value above 65535 is an error. -/
  refused : ∀ h value, 65535 < value → add h value = .error .outsideRange
  /-- Any other is counted in its bucket. -/
  stored : ∀ h value, value ≤ 65535 → add h value = .ok ⟨bump (of value) h.counts⟩
  /-- A value below 8192 has a bucket of its own. -/
  single : ∀ value, value < 8192 → of value = ⟨value, value⟩
  /-- Larger ones fall into aligned buckets of width 2, -/
  byTwo : ∀ value, 8192 ≤ value → value < 16384 → (of value).Aligned 2 value
  /-- then 4, -/
  byFour : ∀ value, 16384 ≤ value → value < 32768 → (of value).Aligned 4 value
  /-- then 8. -/
  byEight : ∀ value, 32768 ≤ value → value ≤ 65535 → (of value).Aligned 8 value

theorem Histogram.contract : Contract add Bucket.of where
  refused _ _ large := if_neg (Nat.not_le.mpr large)
  stored _ _ storable := if_pos storable
  single value small := by simp [Bucket.of, Bucket.width, small]
  byTwo value least below := by
    have hwidth : Bucket.width value = 2 := by
      rw [Bucket.width, if_neg (Nat.not_lt.mpr least), if_pos below]
    exact hwidth ▸ Bucket.aligned value
  byFour value least below := by
    have hwidth : Bucket.width value = 4 := by
      rw [Bucket.width, if_neg (by omega), if_neg (by omega), if_pos below]
    exact hwidth ▸ Bucket.aligned value
  byEight value least _ := by
    have hwidth : Bucket.width value = 8 := by
      rw [Bucket.width, if_neg (by omega), if_neg (by omega), if_neg (by omega)]
    exact hwidth ▸ Bucket.aligned value

end RequestEngine
