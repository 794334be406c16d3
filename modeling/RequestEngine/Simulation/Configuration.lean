/-
  RequestEngine.Simulation.Configuration

  Settings as a configuration names them. A load balancing policy may refer to a
  member of the cluster by its position or to a node of its own outside of it,
  so it becomes a policy only beside a directory. All settings can be watched:
  then their policies write to the journal.
-/
import RequestEngine.Profile
import RequestEngine.Statement

namespace RequestEngine

namespace Simulation

/-! ## Load balancing -/

/-- The load balancing policy that a configuration asks for. -/
inductive BalancingChoice where
  | ordered (rule : BalancingPolicy.PickRule) (positions : Option (List Nat))
  | localFirst (settings : LocalFirst)
  | member (position : Nat)
  | outsider (peer : Peer)
  | target (t : Target)
  deriving DecidableEq, Repr

namespace BalancingChoice

/-- The policy beside a directory. A position without a member names no target, and a node
    outside of the cluster gets a record of its own. -/
def resolve (d : Directory) : BalancingChoice → Directory × BalancingPolicy
  | ordered rule positions => (d, .ordered rule positions)
  | localFirst settings => (d, .localFirst settings Arrangement.asGiven)
  | member position =>
    match d.current.nodes[position]? with
    | some n => (d, .single (.node n))
    | none => (d, .ordered .nothing (some []))
  | outsider peer =>
    ({ d with nextSerial := d.nextSerial + 1 }, .single (.node (Node.ofPeer d.nextSerial peer)))
  | target t => (d, .single t)

/-- Which nodes the choice treats as local, and whether it arranges them at random: all are local
    to a choice that prefers no datacenter. -/
def locality : BalancingChoice → LocalFirst
  | localFirst settings => settings
  | _ => {}

end BalancingChoice

/-! ## Profiles -/

/-- One setting of a profile, as a configuration names it. -/
inductive SettingChoice where
  | plain (s : ProfileBuilder.Setting)
  | balancing (c : BalancingChoice)

namespace SettingChoice

/-- The setting beside a directory. -/
def resolve (d : Directory) : SettingChoice → Directory × ProfileBuilder.Setting
  | plain s => (d, s)
  | balancing c =>
    let (d, policy) := c.resolve d
    (d, .balancing policy)

/-- Several settings beside a directory. -/
def resolveAll : Directory → List SettingChoice → Directory × List ProfileBuilder.Setting
  | d, [] => (d, [])
  | d, c :: rest =>
    let (d, s) := c.resolve d
    let (d, more) := resolveAll d rest
    (d, s :: more)

end SettingChoice

/-- The same setting with a policy that writes to the journal. -/
def watch : ProfileBuilder.Setting → ProfileBuilder.Setting
  | .balancing p => .balancing { p with watched := true }
  | .retry p => .retry { p with watched := true }
  | .speculation p => .speculation (p.map fun p => { p with watched := true })
  | s => s

/-- What profiles of a simulated session start from: nodes in order, and the standard retry
    policy. -/
def sessionDefaults : List SettingChoice :=
  [.balancing (.ordered .firstUp none), .plain (.retry RetryPolicy.standard)]

/-- A watched profile of a simulated session. -/
def sessionProfile (d : Directory) (settings : List SettingChoice) : Directory × Profile :=
  let (d, settings) := SettingChoice.resolveAll d (sessionDefaults ++ settings)
  (d, (ProfileBuilder.setAll {} (settings.map watch)).build)

/-! ## Requests -/

/-- A request of a simulated session: the statement, its load balancing policy and the name of
    its profile, and how long the caller waits for it. -/
structure RequestChoice where
  statement : Statement
  balancing : Option BalancingChoice := none
  profile : Option String := none
  patience : Duration

namespace RequestChoice

/-- The watched statement beside a directory and named profiles. -/
def resolve (c : RequestChoice) (d : Directory) (profiles : List (String × ProfileHandle)) :
    Directory × Statement :=
  let (d, balancing) :=
    match c.balancing with
    | none => (d, none)
    | some choice =>
      let (d, policy) := choice.resolve d
      (d, some { policy with watched := true })
  (d,
    { c.statement with
      balancing
      retry := c.statement.retry.map fun p => { p with watched := true }
      speculation := c.statement.speculation.map fun p => { p with watched := true }
      profile := c.profile.bind fun name => profiles.lookup name })

end RequestChoice

end Simulation

end RequestEngine
