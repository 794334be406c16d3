/-
  RequestEngine.Scenario.Trackings

  Scenarios about the items of one request and about hosts. A key belongs to a
  host if one is given.
-/
import RequestEngine.Scenario.Steps
import RequestEngine.Observation.Tracking

namespace RequestEngine

namespace Scenario

/-- A key as a step gives it. -/
structure ItemKey where
  base : String
  host : Option HostInfo := none
  deriving DecidableEq, Repr

namespace ItemKey

/-- The key under which the item is kept. -/
def full (k : ItemKey) : String :=
  match k.host with
  | some h => h.itemKey k.base
  | none => k.base

end ItemKey

/-- A step. -/
inductive TrackingStep where
  | insert (key : ItemKey) (item : Item)
  | get (key : ItemKey) (type : ItemType)
  | take (key : ItemKey) (type : ItemType)
  | contains (key : ItemKey)
  | key (key : ItemKey)
  | describe
  | statement
  | host (h : HostInfo)
  | sameHost (a b : HostInfo)
  | distinctHosts (hosts : List HostInfo)
  deriving DecidableEq, Repr

/-- The answer to a step. -/
inductive TrackingAnswer where
  | item (i : Option Item)
  | flag (b : Bool)
  | text (s : Option String)
  | host (h : HostInfo)
  | count (n : Nat)
  deriving DecidableEq, Repr

/-- The text that stands for the time a request started. -/
def maskedTime : String := "TIME"

/-- Takes a step. The answer to an insertion is the item that was there before, of whatever
    type. -/
def trackingStep (t : Tracking) : TrackingStep → Tracking × TrackingAnswer
  | .insert key item =>
    let (t, previous) := t.insert key.full item
    (t, .item previous)
  | .get key type => (t, .item (t.get key.full type))
  | .take key type =>
    let (t, i) := t.take key.full type
    (t, .item i)
  | .contains key => (t, .flag (t.contains key.full))
  | .key key => (t, .text (some key.full))
  | .describe => (t, .text (some (t.text maskedTime)))
  | .statement => (t, .text (t.statement.map TrackedStatement.contents))
  | .host h => (t, .host h)
  | .sameHost a b => (t, .flag (a.sameHost b))
  | .distinctHosts hosts => (t, .count (HostInfo.distinct hosts))

/-- The answers to several steps. -/
def trackingAnswers : Tracking → List TrackingStep → List TrackingAnswer
  | _, [] => []
  | t, s :: rest =>
    let (t, answer) := trackingStep t s
    answer :: trackingAnswers t rest

end Scenario

end RequestEngine
