/-
  RequestEngine.Observation.Journal

  The journal: what happened and when, in order. An entry names an event and
  lists the values that belong to it.
-/
import RequestEngine.Duration
import RequestEngine.Observation.Simultaneous

namespace RequestEngine

/-- A value in a journal entry. -/
inductive Cell where
  | blank
  | flag (b : Bool)
  | number (n : Nat)
  | text (s : String)
  deriving DecidableEq, Repr

namespace Cell

/-- A text that may be missing. -/
def ofText? : Option String → Cell
  | some s => text s
  | none => blank

/-- A span of time in whole milliseconds, if there is one. -/
def ofDuration? : Option Duration → Cell
  | some d => number d.millis
  | none => blank

end Cell

/-- One entry. -/
structure JournalEntry where
  time : Instant
  event : String
  cells : List Cell
  deriving DecidableEq, Repr

/-- Entries in order. -/
abbrev Journal := List JournalEntry

/-! ## Simultaneous entries -/

namespace Cell

/-- What a text cell holds. -/
def text? : Cell → Option String
  | text s => some s
  | _ => none

end Cell

namespace Journal

/-- The event of a connection that came back. -/
def releaseEvent : String :=
  "release"

/-- Whether two connections came back at the same moment. -/
def releasedTogether (a b : JournalEntry) : Bool :=
  a.event == releaseEvent && b.event == releaseEvent && a.time == b.time

/-- The journal with connections that came back at the same moment, one after the other, in
    order of their addresses. -/
def settled (j : Journal) : Journal :=
  sortRuns releasedTogether
    (fun a b => notAfter (a.cells.filterMap Cell.text?) (b.cells.filterMap Cell.text?)) j

end Journal

end RequestEngine
