/-
  RequestEngine.Scenario.Callbacks

  Scenarios that call the callbacks of one observer directly. A single observer
  gives its own verdict; a composite guards its members, so that its callbacks
  always end well. Time passes while a callback is suspended.
-/
import RequestEngine.Scenario.HistoryView
import RequestEngine.Scenario.Steps
import RequestEngine.Scenario.Trackings
import RequestEngine.Simulation.Observers

namespace RequestEngine

namespace Scenario

open Simulation

/-- A step; requests are known by their positions. -/
inductive CallbackStep where
  | call (request : Nat) (n : Notification)
  | advance (d : Duration)
  | showHistory (takeOut : Bool)
  | events (takeOut : Bool)
  | metrics (percentiles : List Float)
  | describeMetrics
  | hasItem (request : Nat) (key : ItemKey)
  | describeRequest (request : Nat)

/-- The answer to a step. -/
inductive CallbackAnswer where
  | verdict (v : Verdict)
  | time (t : Instant)
  | text (s : String)
  | texts (ss : List String)
  | events (es : List HistoryEvent)
  | metrics (ms : List Metrics) (percentiles : List Float)
  | flag (b : Bool)

/-- An observer, what it writes to, and the requests it is told about. -/
structure CallbackBench where
  target : ObserverTree
  scene : Scene
  requests : List Tracking

namespace CallbackBench

/-- The bench of an observer and the statements of some requests. -/
def ofChoice (target : ObserverChoice) (requests : List (Option TrackedStatement))
    (verbosity : Option Severity) : CallbackBench :=
  let (scene, target) := target.build (emptyScene verbosity)
  { target, scene, requests := requests.map fun statement => { statement } }

/-- Notifies observers one after the other, each once the callback of the one before has ended. -/
def notifyAll (n : Notification) : List Observer → Tracking → Scene → Tracking × Scene
  | [], t, s => (t, s)
  | o :: rest, t, s =>
    let (t, s, verdict) := o.react n t s
    notifyAll n rest t ((s.wait (o.pauseFor n)).guard n.callback verdict)

/-- Notifies an observer and waits for the end of its callback. -/
def notify (n : Notification) (t : Tracking) (s : Scene) :
    ObserverTree → Tracking × Scene × Verdict
  | .single o =>
    let (t, s, verdict) := o.react n t s
    (t, s.wait (o.pauseFor n), verdict)
  | .composite members =>
    let (t, s) := notifyAll n (ObserverTree.leavesOf members) t s
    (t, s, .done)

/-- Takes a step. -/
def step (b : CallbackBench) : CallbackStep → Option (CallbackBench × CallbackAnswer)
  | .call request n => do
    let t ← b.requests[request]?
    let (t, scene, verdict) := notify n t b.scene b.target
    return ({ b with scene, requests := b.requests.set request t }, .verdict verdict)
  | .advance d =>
    let scene := b.scene.wait d
    some ({ b with scene }, .time scene.now)
  | .showHistory takeOut =>
    let (scene, text) := Scenario.showHistory historyPlace takeOut b.scene
    some ({ b with scene }, .text text)
  | .events takeOut =>
    let h := (b.scene.histories[historyPlace]?).getD {}
    let (collected, h) := (if takeOut then History.take else History.copy).run h
    let histories := b.scene.histories.set historyPlace h
    some ({ b with scene := { b.scene with histories } },
      .events (collected.events.map (·.1)))
  | .metrics percentiles => some (b, .metrics b.scene.metrics percentiles)
  | .describeMetrics => some (b, .texts (b.scene.metrics.map Metrics.text))
  | .hasItem request key => do
    let t ← b.requests[request]?
    return (b, .flag (t.contains key.full))
  | .describeRequest request => do
    let t ← b.requests[request]?
    return (b, .text (t.text maskedTime))

/-- Takes a step and collects what the journal shows of it. -/
def journaledStep (b : CallbackBench) (s : CallbackStep) :
    Option (CallbackBench × CallbackAnswer × Journal) := do
  let (b, answer) ← b.step s
  let journal := b.scene.journal
  return ({ b with scene := { b.scene with journal := [] } }, answer, journal.settled)

/-- Takes several steps. -/
def run (b : CallbackBench) (steps : List CallbackStep) :
    Option (CallbackBench × List (CallbackAnswer × Journal)) :=
  runSteps journaledStep b steps

end CallbackBench

end Scenario

end RequestEngine
