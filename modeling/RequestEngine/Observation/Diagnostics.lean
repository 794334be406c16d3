/-
  RequestEngine.Observation.Diagnostics

  Log lines and spans. A verbosity tells which severities are kept; spans are of
  the least severity and exist only if that one is kept. A line belongs to the
  innermost span that is entered when it is written.
-/
import RequestEngine.Observation.Simultaneous

namespace RequestEngine

/-- How important a log line is, the most important first. -/
inductive Severity where
  | error | warn | info | debug | trace
  deriving DecidableEq, Repr

namespace Severity

/-- The position of a severity, the most important first. -/
def rank : Severity → Nat
  | error => 0
  | warn => 1
  | info => 2
  | debug => 3
  | trace => 4

/-- The name of a severity. -/
def name : Severity → String
  | error => "ERROR"
  | warn => "WARN"
  | info => "INFO"
  | debug => "DEBUG"
  | trace => "TRACE"

/-- The severity of a given name, in letters of either case. -/
def ofName? (s : String) : Option Severity :=
  [error, warn, info, debug, trace].find? fun v => v.name == s.toUpper

end Severity

/-- Named texts that belong to a log line or a span. -/
abbrev Fields := List (String × String)

/-- A log line. -/
structure LogLine where
  severity : Severity
  span : Option Nat
  message : String
  fields : Fields
  deriving DecidableEq, Repr

/-- A span; its fields are in their last recorded value. -/
structure Span where
  name : String
  parent : Option Nat
  fields : Fields
  deriving DecidableEq, Repr

namespace Span

/-- Records a field, in place of its earlier value if it has one. -/
def record (s : Span) (field value : String) : Span :=
  { s with fields := s.fields.filter (·.1 ≠ field) ++ [(field, value)] }

end Span

/-- What was logged so far. Spans are known by their position in order of creation. -/
structure Diagnostics where
  verbosity : Option Severity := none
  entered : Option Nat := none
  spans : List Span := []
  lines : List LogLine := []
  deriving DecidableEq, Repr, Inhabited

namespace Diagnostics

/-- Whether lines of a severity are kept. -/
def keeps (d : Diagnostics) (s : Severity) : Bool :=
  match d.verbosity with
  | some v => s.rank ≤ v.rank
  | none => false

/-- Writes a line in the innermost span. -/
def log (d : Diagnostics) (severity : Severity) (message : String) (fields : Fields := []) :
    Diagnostics :=
  if d.keeps severity then
    { d with lines := d.lines ++ [⟨severity, d.entered, message, fields⟩] }
  else d

/-- Opens a span, if spans are kept. -/
def openSpan (d : Diagnostics) (name : String) (parent : Option Nat) (fields : Fields) :
    Diagnostics × Option Nat :=
  if d.keeps .trace then
    ({ d with spans := d.spans ++ [⟨name, parent, fields⟩] }, some d.spans.length)
  else (d, none)

/-- Records a field of a span. -/
def recordField (d : Diagnostics) (span : Nat) (field value : String) : Diagnostics :=
  { d with spans := d.spans.modify span (·.record field value) }

/-- Writes a line in a given span. -/
def logIn (d : Diagnostics) (span : Option Nat) (severity : Severity) (message : String)
    (fields : Fields := []) : Diagnostics :=
  { ({ d with entered := span }).log severity message fields with entered := d.entered }

/-! ## Simultaneous lines -/

/-- The message about a cancelled attempt. -/
def cancelledMessage : String :=
  "Attempt cancelled"

/-- What lines about cancelled attempts are ordered by: the written form of the span, then the
    fields in order of their names. -/
def cancellationKey (l : LogLine) : List String :=
  let span := match l.span with
    | some i => toString i
    | none => "null"
  (span ++ ",") :: (l.fields.mergeSort fun a b => a.1 ≤ b.1).map (·.2)

/-- The lines with neighbours about cancelled attempts in order: such attempts were dropped
    together. -/
def settledLines (d : Diagnostics) : List LogLine :=
  sortRuns (fun a b => a.message == cancelledMessage && b.message == cancelledMessage)
    (fun a b => notAfter (cancellationKey a) (cancellationKey b)) d.lines

end Diagnostics

end RequestEngine
