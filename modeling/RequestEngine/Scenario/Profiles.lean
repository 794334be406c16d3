/-
  RequestEngine.Scenario.Profiles

  Scenarios about execution profiles: building them, deriving them from others
  or from what a handle points to, and remapping handles.
-/
import RequestEngine.Scenario.Steps
import RequestEngine.Simulation.Configuration

namespace RequestEngine

namespace Scenario

open Simulation

/-- What a builder starts from. -/
inductive ProfileOrigin where
  | blank
  | profile (name : String)
  | handle (name : String)
  deriving DecidableEq, Repr

/-- A step with named profiles and handles. -/
inductive ProfileStep where
  | build (name : String) (origin : ProfileOrigin) (settings : List SettingChoice)
  | standard (name : String)
  | makeHandle (profile name : String) (label : Option String)
  | cloneHandle (handle name : String)
  | remap (handle profile : String)
  | showProfile (name : String)
  | showHandle (name : String)

/-- The profiles and handles that were named so far. -/
structure ProfileTable where
  profiles : Named Profile := []
  handles : Named ProfileHandle := []
  cells : ProfileCells := {}

namespace ProfileTable

/-- The builder that an origin stands for. -/
def builder (t : ProfileTable) : ProfileOrigin → Option ProfileBuilder
  | .blank => some {}
  | .profile name => (t.profiles.lookup name).map Profile.toBuilder
  | .handle name => (t.handles.lookup name).map fun h => (t.cells.profile h).toBuilder

/-- Names a profile. -/
def bindProfile (t : ProfileTable) (name : String) (p : Profile) : ProfileTable :=
  { t with profiles := (name, p) :: t.profiles }

/-- Takes a step; the answer is the profile that it shows, if it shows one. -/
def step (t : ProfileTable) : ProfileStep → Option (ProfileTable × Option Profile)
  | .build name origin settings => do
    let b ← t.builder origin
    let p := (b.setAll (SettingChoice.resolveAll {} settings).2).build
    return (t.bindProfile name p, some p)
  | .standard name => some (t.bindProfile name Profile.standard, some Profile.standard)
  | .makeHandle profile name label => do
    let (cells, h) := t.cells.handle (← t.profiles.lookup profile) label
    return ({ t with cells, handles := (name, h) :: t.handles }, none)
  | .cloneHandle handle name => do
    let h ← t.handles.lookup handle
    return ({ t with handles := (name, h) :: t.handles }, none)
  | .remap handle profile => do
    let h ← t.handles.lookup handle
    let p ← t.profiles.lookup profile
    return ({ t with cells := t.cells.remap h p }, none)
  | .showProfile name => do return (t, some (← t.profiles.lookup name))
  | .showHandle name => do return (t, some (t.cells.profile (← t.handles.lookup name)))

/-- The answers to several steps, the first of which finds nothing named. -/
def run (steps : List ProfileStep) : Option (List (Option Profile)) :=
  (runSteps step {} steps).map (·.2)

end ProfileTable

end Scenario

end RequestEngine
