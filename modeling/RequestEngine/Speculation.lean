/-
  RequestEngine.Speculation

  Speculative execution policies: when to start another execution of a request
  that takes too long. A policy keeps no state of a request; it is asked after
  each start of an execution how long to wait for the next one.
-/
import RequestEngine.Observation.Metrics
import RequestEngine.Text.Shortest

namespace RequestEngine

open Text

/-- What a policy is told: how many executions were started, the initial one included, and the
    metrics of the session. -/
structure SpeculationContext where
  started : Nat
  metrics : Metrics
  deriving Repr

/-- A speculative execution policy. A policy that is `watched` has its answers written to the
    journal. -/
structure SpeculationPolicy where
  /-- How messages show the policy and its settings. -/
  description : String
  /-- The time to wait for the next execution, if there is to be one. -/
  nextDelay : SpeculationContext → Option Duration
  /-- What the policy warns about when it is asked. -/
  warning : SpeculationContext → Option String := fun _ => none
  watched : Bool := false

namespace SpeculationPolicy

/-- At most `limit` speculative executions, a fixed time apart. -/
def simple (limit : Nat) (interval : Duration) : SpeculationPolicy where
  description :=
    record "SimpleSpeculativeExecutionPolicy"
      [("max_retry_count", toString limit), ("retry_interval", interval.text)]
  nextDelay c := if c.started - 1 < limit then some interval else none

/-- Percentiles are positional from `10 ^ -4` to below `10 ^ 16`. -/
def percentileFormat : FloatFormat :=
  ⟨-4, 16⟩

/-- At most `limit` speculative executions, each after the latency at a percentile, or after
    100 ms where there is no such latency. -/
def percentile (limit : Nat) (p : Float) : SpeculationPolicy where
  description :=
    record "PercentileSpeculativeExecutionPolicy"
      [("max_retry_count", toString limit), ("percentile", percentileFormat.text p)]
  nextDelay c :=
    if limit ≤ c.started - 1 then none
    else
      match c.metrics.latencies.percentile p with
      | .ok ms => some (.ofMillis ms)
      | .error _ => some (.ofMillis 100)
  warning c :=
    if limit ≤ c.started - 1 then none
    else
      match c.metrics.latencies.percentile p with
      | .ok _ => none
      | .error e =>
        some ("Failed to get latency percentile (" ++ e.message ++ "), defaulting to 100 ms")

/-- The answers after each of the first `count` starts. -/
def schedule (p : SpeculationPolicy) (metrics : Metrics) (count : Nat) :
    List (Nat × Option Duration) :=
  (List.range count).map fun i => (i + 1, p.nextDelay ⟨i + 1, metrics⟩)

/-- The n-th delay of a list after the n-th start; no further execution once it is used up. -/
def scripted (delays : List (Option Duration)) : SpeculationPolicy where
  description := "ScriptedSpeculativeExecutionPolicy"
  nextDelay c := (delays[c.started - 1]?).join

end SpeculationPolicy

end RequestEngine
