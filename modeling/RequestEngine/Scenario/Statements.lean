/-
  RequestEngine.Scenario.Statements

  Scenarios about the settings of one statement.
-/
import RequestEngine.Scenario.Steps
import RequestEngine.Simulation.Configuration

namespace RequestEngine

namespace Scenario

open Simulation

/-- A change of a statement. Unsetting a level leaves it to the profile; a serial level may also
    be set to "none". -/
inductive StatementStep where
  | contents (s : String)
  | keyspace (s : Option String)
  | level (l : Option Level)
  | serial (l : Option (Option SerialLevel))
  | idempotent (b : Bool)
  | requestTimeout (limit : Option Duration)
  | retry (p : Option RetryPolicy)
  | balancing (c : Option BalancingChoice)
  | speculation (p : Option SpeculationPolicy)
  | profile (settings : Option (List SettingChoice))
  | clone

/-- A statement with the cells that its profile handle points into. -/
structure StatementDraft where
  statement : Statement
  cells : ProfileCells := {}

namespace StatementDraft

/-- The profile of the statement, if it has one of its own. -/
def profile (d : StatementDraft) : Option Profile :=
  d.statement.profile.map d.cells.profile

/-- Makes a change. A statement is a value, so its clone is the statement itself. -/
def change (d : StatementDraft) : StatementStep → StatementDraft
  | .contents s => { d with statement.contents := s }
  | .keyspace s => { d with statement.keyspace := s }
  | .level l => { d with statement.level := l }
  | .serial l => { d with statement.serial := l }
  | .idempotent b => { d with statement.idempotent := b }
  | .requestTimeout limit => { d with statement.requestTimeout := limit }
  | .retry p => { d with statement.retry := p }
  | .balancing c => { d with statement.balancing := c.map fun c => (c.resolve {}).2 }
  | .speculation p => { d with statement.speculation := p }
  | .profile none => { d with statement.profile := none }
  | .profile (some settings) =>
    let settings := (SettingChoice.resolveAll {} settings).2
    let (cells, h) := d.cells.handle (ProfileBuilder.setAll {} settings).build
    { d with statement.profile := some h, cells }
  | .clone => d

/-- The statement after each of several changes. -/
def changes : StatementDraft → List StatementStep → List StatementDraft
  | _, [] => []
  | d, s :: rest => d.change s :: changes (d.change s) rest

end StatementDraft

end Scenario

end RequestEngine
