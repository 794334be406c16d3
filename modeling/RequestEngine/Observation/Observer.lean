/-
  RequestEngine.Observation.Observer

  Observers and the delivery of notifications. An observer reacts to a
  notification at once and may then be suspended before its callback ends. A
  composite passes each notification on to its members in order, each on its
  own: the end of one callback never keeps the others from being called. So a
  delivery is a walk along the single observers, with a stop at each that is
  suspended.
-/
import RequestEngine.Observation.Scene

namespace RequestEngine

/-- A single observer. -/
structure Observer where
  /-- What a notification does to the tracking information of its request and to the scene, and
      how the callback ends. -/
  react : Notification → Tracking → Scene → Tracking × Scene × Verdict
  /-- How long the callback is suspended after the reaction. -/
  pause : Notification → Duration := fun _ => ⟨0⟩

/-- A single observer or a composite of observers. -/
inductive ObserverTree where
  | single (o : Observer)
  | composite (members : List ObserverTree)

namespace ObserverTree

mutual

/-- The single observers of a tree, in the order in which they are notified. -/
def leaves : ObserverTree → List Observer
  | single o => [o]
  | composite members => leavesOf members

/-- The single observers of several trees. -/
def leavesOf : List ObserverTree → List Observer
  | [] => []
  | t :: rest => leaves t ++ leavesOf rest

end

end ObserverTree

namespace Observer

/-- How long the callback for a notification is suspended: not at all where notifications are
    delivered at once. -/
def pauseFor (o : Observer) (n : Notification) : Duration :=
  if n.callback.suspends then o.pause n else ⟨0⟩

/-- Notifies one observer and guards the end of its callback. -/
def notify (o : Observer) (n : Notification) (t : Tracking) (s : Scene) : Tracking × Scene :=
  let (t, s, verdict) := o.react n t s
  (t, s.guard n.callback verdict)

end Observer

/-! ## Delivery -/

/-- A delivery that waits for a suspended callback. -/
structure Delivery where
  notification : Notification
  wake : Instant
  verdict : Verdict
  remaining : List Observer

namespace Delivery

/-- Notifies observers in order until one of them is suspended or all are done. -/
def walk (n : Notification) :
    List Observer → Tracking → Scene → Tracking × Scene × Option Delivery
  | [], t, s => (t, s, none)
  | o :: rest, t, s =>
    let (t, s, verdict) := o.react n t s
    let pause := o.pauseFor n
    if pause.nanos = 0 then walk n rest t (s.guard n.callback verdict)
    else (t, s, some ⟨n, s.now.after pause, verdict, rest⟩)

/-- Ends the suspended callback and goes on to the remaining observers. -/
def resume (d : Delivery) (t : Tracking) (s : Scene) : Tracking × Scene × Option Delivery :=
  walk d.notification d.remaining t (s.guard d.notification.callback d.verdict)

/-- Notifies all observers at once. -/
def atOnce (n : Notification) (observers : List Observer) (t : Tracking) (s : Scene) :
    Tracking × Scene :=
  observers.foldl (fun (t, s) o => o.notify n t s) (t, s)

end Delivery

end RequestEngine
