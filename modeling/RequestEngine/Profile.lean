/-
  RequestEngine.Profile

  Execution profiles: immutable groups of settings of requests. A builder sets
  some of them and leaves the others to the profile it was derived from or to
  the defaults; a setting that may be absent can be set to "none", which is not
  the same as leaving it alone. Sessions and statements hold handles. Clones of
  a handle share a cell, so remapping one of them shows in all.
-/
import RequestEngine.Balancing.Policy
import RequestEngine.Retry.Policy
import RequestEngine.Speculation

namespace RequestEngine

/-- The settings of requests. -/
structure Profile where
  requestTimeout : Option Duration
  attemptTimeout : Option Duration
  sameTargetCap : Nat
  level : Level
  serial : Option SerialLevel
  balancing : BalancingPolicy
  retry : RetryPolicy
  speculation : Option SpeculationPolicy

namespace Profile

/-- The settings used where none are given. -/
def standard : Profile where
  requestTimeout := some (.ofMillis 30000)
  attemptTimeout := none
  sameTargetCap := 3
  level := .localQuorum
  serial := some .localSerial
  balancing := BalancingPolicy.standard
  retry := RetryPolicy.standard
  speculation := none

end Profile

/-! ## Builders -/

/-- Settings that were made so far; those that are `none` were not. -/
structure ProfileBuilder where
  requestTimeout : Option (Option Duration) := none
  attemptTimeout : Option (Option Duration) := none
  sameTargetCap : Option Nat := none
  level : Option Level := none
  serial : Option (Option SerialLevel) := none
  balancing : Option BalancingPolicy := none
  retry : Option RetryPolicy := none
  speculation : Option (Option SpeculationPolicy) := none

namespace ProfileBuilder

/-- The profile with the settings made, and the defaults for all others. -/
def build (b : ProfileBuilder) : Profile where
  requestTimeout := b.requestTimeout.getD Profile.standard.requestTimeout
  attemptTimeout := b.attemptTimeout.getD Profile.standard.attemptTimeout
  sameTargetCap := b.sameTargetCap.getD Profile.standard.sameTargetCap
  level := b.level.getD Profile.standard.level
  serial := b.serial.getD Profile.standard.serial
  balancing := b.balancing.getD Profile.standard.balancing
  retry := b.retry.getD Profile.standard.retry
  speculation := b.speculation.getD Profile.standard.speculation

/-- One setting, with the value it is given. -/
inductive Setting where
  | requestTimeout (limit : Option Duration)
  | attemptTimeout (limit : Option Duration)
  | sameTargetCap (n : Nat)
  | level (l : Level)
  | serial (l : Option SerialLevel)
  | balancing (p : BalancingPolicy)
  | retry (p : RetryPolicy)
  | speculation (p : Option SpeculationPolicy)

/-- Makes a setting, in place of an earlier one. -/
def set (b : ProfileBuilder) : Setting → ProfileBuilder
  | .requestTimeout limit => { b with requestTimeout := some limit }
  | .attemptTimeout limit => { b with attemptTimeout := some limit }
  | .sameTargetCap n => { b with sameTargetCap := some n }
  | .level l => { b with level := some l }
  | .serial l => { b with serial := some l }
  | .balancing p => { b with balancing := some p }
  | .retry p => { b with retry := some p }
  | .speculation p => { b with speculation := some p }

/-- Makes several settings in order. -/
def setAll (b : ProfileBuilder) (settings : List Setting) : ProfileBuilder :=
  settings.foldl set b

end ProfileBuilder

namespace Profile

/-- The builder that has every setting of a profile made. -/
def toBuilder (p : Profile) : ProfileBuilder where
  requestTimeout := some p.requestTimeout
  attemptTimeout := some p.attemptTimeout
  sameTargetCap := some p.sameTargetCap
  level := some p.level
  serial := some p.serial
  balancing := some p.balancing
  retry := some p.retry
  speculation := some p.speculation

end Profile

/-! ## Handles -/

/-- A handle: the cell it shares with its clones, and a label that has no other meaning. -/
structure ProfileHandle where
  cell : Nat
  label : Option String := none
  deriving DecidableEq, Repr, Inhabited

/-- The profiles that handles point to, cell by cell. -/
structure ProfileCells where
  profiles : List Profile := []

namespace ProfileCells

/-- A new handle that points to a profile, in a cell of its own. -/
def handle (c : ProfileCells) (p : Profile) (label : Option String := none) :
    ProfileCells × ProfileHandle :=
  (⟨c.profiles ++ [p]⟩, ⟨c.profiles.length, label⟩)

/-- The profile that a handle points to. -/
def profile (c : ProfileCells) (h : ProfileHandle) : Profile :=
  (c.profiles[h.cell]?).getD Profile.standard

/-- Makes a handle and all its clones point to another profile. -/
def remap (c : ProfileCells) (h : ProfileHandle) (p : Profile) : ProfileCells :=
  ⟨c.profiles.set h.cell p⟩

end ProfileCells

end RequestEngine
