/-
  RequestEngine.Request.Settings

  The settings a request runs with. They are resolved once, when the request
  starts: the statement's own ones first, then those of the profile that its
  handle, or else the handle of the session, points to at that moment. The
  nodes are those of the snapshot that is current then.
-/
import RequestEngine.Statement

namespace RequestEngine

/-- The resolved settings of one request. -/
structure Settings where
  contents : String
  routing : Routing
  requestTimeout : Option Duration
  attemptTimeout : Option Duration
  sameTargetCap : Nat
  balancing : BalancingPolicy
  retry : RetryPolicy
  speculation : Option SpeculationPolicy
  snapshot : Snapshot

namespace Settings

/-- Resolves the settings of a statement under a profile and a snapshot. -/
def ofProfile (s : Statement) (p : Profile) (snapshot : Snapshot) : Settings where
  contents := s.contents
  routing :=
    { level := s.level.getD p.level
      serial := s.serial.getD p.serial
      keyspace := s.keyspace
      idempotent := s.idempotent }
  requestTimeout := s.requestTimeout.or p.requestTimeout
  attemptTimeout := p.attemptTimeout
  sameTargetCap := p.sameTargetCap
  balancing := s.balancing.getD p.balancing
  retry := s.retry.getD p.retry
  speculation := s.speculation.or p.speculation
  snapshot

/-- Resolves the settings of a statement on a session with a given default handle. -/
def resolve (s : Statement) (sessionHandle : ProfileHandle) (cells : ProfileCells)
    (snapshot : Snapshot) : Settings :=
  ofProfile s (cells.profile (s.profile.getD sessionHandle)) snapshot

/-- The speculative execution policy in force: none for a statement that must not run twice. -/
def speculationPolicy (s : Settings) : Option SpeculationPolicy :=
  if s.routing.idempotent then s.speculation else none

/-- When an attempt that started at a given time runs out of time, and after how long: only if
    that is before the end of the whole request. -/
def attemptExpiry (s : Settings) (deadline : Option Instant) (started : Instant) :
    Option (Instant × Duration) :=
  match s.attemptTimeout with
  | none => none
  | some limit =>
    let own := started.after limit
    match deadline with
    | some d => if d ≤ own then none else some (own, limit)
    | none => some (own, limit)

end Settings

end RequestEngine
