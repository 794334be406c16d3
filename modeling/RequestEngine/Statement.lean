/-
  RequestEngine.Statement

  Statements: a text that the engine never looks into, and settings that take
  precedence over those of the execution profile. A serial level can be set to
  "none", which is not the same as leaving it to the profile.
-/
import RequestEngine.Observation.Tracking
import RequestEngine.Profile

namespace RequestEngine

/-- A statement and its own settings. -/
structure Statement where
  contents : String
  keyspace : Option String := none
  level : Option Level := none
  serial : Option (Option SerialLevel) := none
  idempotent : Bool := false
  requestTimeout : Option Duration := none
  profile : Option ProfileHandle := none
  balancing : Option BalancingPolicy := none
  retry : Option RetryPolicy := none
  speculation : Option SpeculationPolicy := none

namespace Statement

/-- The serial level that was set, if one was. -/
def serial? (s : Statement) : Option SerialLevel :=
  s.serial.join

/-- What observers see of a statement. -/
def tracked (s : Statement) : TrackedStatement :=
  ⟨s.contents, s.keyspace⟩

end Statement

end RequestEngine
