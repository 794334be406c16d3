/-
  RequestEngine.Scenario.Sessions

  Scenarios of whole requests: a session on scripted nodes, and steps that
  execute statements on it, change the cluster or look at what was observed.
  Every step shows what the journal got during it.
-/
import RequestEngine.Scenario.HistoryView
import RequestEngine.Scenario.Steps
import RequestEngine.Simulation.Clock
import RequestEngine.Simulation.Configuration
import RequestEngine.Simulation.Observers

namespace RequestEngine

namespace Scenario

open Simulation

/-! ## Building a session -/

/-- What a session is built from. A session is given a cluster, or else makes one of the peers
    that are known; it may be given a profile and observers. -/
structure SessionSetup where
  peers : List Peer
  givenCluster : Bool := true
  scripts : Named NodeScript := []
  profile : Option (List SettingChoice) := some []
  profiles : Named (List SettingChoice) := []
  observers : List ObserverChoice := [.recorder none []]
  verbosity : Option Severity := none

/-- Why no session was built. -/
inductive SetupError where
  | emptyKnownNodesList
  deriving DecidableEq, Repr

namespace SetupError

/-- The name of the kind of error. -/
def kindName : SetupError → String
  | emptyKnownNodesList => "EmptyKnownNodesList"

/-- The text of the error. -/
def message : SetupError → String
  | emptyKnownNodesList => "Empty known nodes list"

end SetupError

/-- A session that was not built: why, and what had been logged by then. -/
structure SetupFailure where
  error : SetupError
  diagnostics : Diagnostics

/-- A session and the profile handles that have names. -/
structure Session where
  world : World
  profiles : Named ProfileHandle := []

namespace Session

/-- The name of the session's own profile. -/
def ownProfile : String :=
  "default"

/-- Makes a watched profile and names a handle to it. -/
def addProfile (s : Session) (name : String) (settings : List SettingChoice) : Session :=
  let (directory, profile) := sessionProfile s.world.directory settings
  let (cells, handle) := s.world.cells.handle profile
  { world := { s.world with directory, cells }, profiles := s.profiles ++ [(name, handle)] }

/-- The session without any profile. -/
def bare (setup : SessionSetup) : Session :=
  let (directory, skipped) := Directory.ofPeers setup.peers
  let scene := skipped.foldl
    (fun s n => s.log .debug (Directory.skippedRemark n)) (emptyScene setup.verbosity)
  { world := { scene, directory, scripts := setup.scripts } }

/-- Gives the session its own profile, then the others. -/
def withProfiles (setup : SessionSetup) (s : Session) : Session :=
  let s := match setup.profile with
    | some settings => s.addProfile ownProfile settings
    | none =>
      let (cells, handle) := s.world.cells.handle Profile.standard
      { world := { s.world with cells }, profiles := [(ownProfile, handle)] }
  setup.profiles.foldl (fun s (name, settings) => s.addProfile name settings) s

/-- Registers the observers, and the session's own metrics after them. -/
def withObservers (setup : SessionSetup) (s : Session) : Session :=
  let (scene, trees) := ObserverChoice.buildAll setup.observers s.world.scene
  let (scene, sessionMetrics) := addMetrics scene
  let scene := scene.log .debug "Building session"
    [("nodes", toString s.world.directory.current.nodes.length),
      ("observers", toString (trees.length + 1))]
  let observers := ObserverTree.leavesOf trees ++ [Observer.metrics sessionMetrics]
  { s with world := { s.world with scene, sessionMetrics, observers } }

/-- Builds a session. One that has neither a cluster nor a known peer cannot be built. -/
def build (setup : SessionSetup) : Except SetupFailure Session :=
  let s := bare setup
  if !setup.givenCluster && setup.peers.isEmpty then
    .error ⟨.emptyKnownNodesList, s.world.scene.diagnostics⟩
  else .ok ((s.withProfiles setup).withObservers setup)

end Session

/-! ## Steps -/

/-- A step. -/
inductive SessionStep where
  | execute (r : RequestChoice)
  | executeAll (rs : List RequestChoice)
  | effects (e : Effects)
  | advance (d : Duration)
  | script (node : String) (s : NodeScript)
  | remap (profile : String) (settings : List SettingChoice)
  | showHistory (takeOut : Bool)
  | metrics (percentiles : List Float)
  | describe

/-- How a request ended, `none` if its caller dropped it, and how long it took. -/
structure RequestReport where
  outcome : Option Outcome
  elapsed : Duration
  deriving Repr

/-- The answer to a step. -/
inductive SessionAnswer where
  | done
  | request (r : RequestReport)
  | requests (rs : List RequestReport)
  | nodes (ns : List (Address × Bool))
  | history (text : String)
  | metrics (m : Metrics) (percentiles : List Float)
  | description (text : String) (level : Level)

namespace RequestReport

/-- The report about a request in flight that has ended. -/
def ofFlight (f : Flight) : RequestReport :=
  ⟨f.outcome?, (f.endedAt.getD f.startedAt).since f.startedAt⟩

end RequestReport

namespace Session

/-- The nodes of the current snapshot by address, each with its liveness. -/
def nodes (s : Session) : List (Address × Bool) :=
  let d := s.world.directory
  d.current.nodes.map fun n => (n.address, d.liveness.isUp n)

/-- The statements of several requests, each with the patience of its caller. -/
def statements (s : Session) :
    Directory → List RequestChoice → Directory × List (Statement × Duration)
  | d, [] => (d, [])
  | d, r :: rest =>
    let (d, statement) := r.resolve d s.profiles
    let (d, more) := s.statements d rest
    (d, (statement, r.patience) :: more)

/-- Executes requests beside each other. -/
def executeAll (s : Session) (rs : List RequestChoice) : Session × List RequestReport :=
  let (directory, requests) := s.statements s.world.directory rs
  let (world, flights) := { s.world with directory }.executeAll requests
  ({ s with world }, flights.map RequestReport.ofFlight)

/-- Does something while the journal shows statements. -/
def labelled (s : Session) (f : Session → Session × α) : Session × α :=
  let mark (s : Session) (b : Bool) : Session :=
    { s with world := { s.world with scene := { s.world.scene with labelled := b } } }
  let (s, a) := f (mark s true)
  (mark s false, a)

/-- Takes a step. -/
def step (s : Session) : SessionStep → Option (Session × SessionAnswer)
  | .execute r =>
    match s.executeAll [r] with
    | (s, [report]) => some (s, .request report)
    | _ => none
  | .executeAll rs =>
    let (s, reports) := s.labelled fun s => s.executeAll rs
    some (s, .requests reports)
  | .effects e =>
    let s := { s with world := s.world.applyEffects none e }
    some (s, .nodes s.nodes)
  | .advance d => some ({ s with world := { s.world with scene := s.world.scene.wait d } }, .done)
  | .script node script => some ({ s with world := s.world.setScript node script }, .done)
  | .remap name settings => do
    let handle ← s.profiles.lookup name
    let (directory, profile) := sessionProfile s.world.directory settings
    let cells := s.world.cells.remap handle profile
    return ({ s with world := { s.world with directory, cells } }, .done)
  | .showHistory takeOut =>
    let (scene, text) := Scenario.showHistory historyPlace takeOut s.world.scene
    some ({ s with world := { s.world with scene } }, .history text)
  | .metrics percentiles =>
    some (s, .metrics ((s.world.scene.metrics[s.world.sessionMetrics]?).getD {}) percentiles)
  | .describe =>
    let nodes := s.world.directory.current.nodes.length
    let level := (s.world.cells.profile s.world.sessionProfile).level
    some (s, .description ("Session \x7b known_nodes: " ++ toString nodes) level)

/-- Takes a step and collects what the journal shows of it. -/
def journaledStep (s : Session) (i : SessionStep) : Option (Session × SessionAnswer × Journal) := do
  let (s, answer) ← s.step i
  let journal := s.world.scene.journal
  let scene := { s.world.scene with journal := [] }
  return ({ s with world := { s.world with scene } }, answer, journal.settled)

/-- Takes several steps. -/
def run (s : Session) (steps : List SessionStep) :
    Option (Session × List (SessionAnswer × Journal)) :=
  runSteps journaledStep s steps

end Session

end Scenario

end RequestEngine
