/-
  RequestEngine.Scenario.HistoryView

  The structured form of a collected history as text, in which every point in
  time is written the same, so that it does not depend on a clock.
-/
import RequestEngine.Observation.History.Structured
import RequestEngine.Observation.Scene

namespace RequestEngine

namespace Scenario

/-- The text that stands for every point in time. -/
def fixedTime : String :=
  "2022-02-22 20:22:22 UTC"

/-- The text of the history at a place of the scene, which is taken out if `takeOut`. What is odd
    about it is logged. -/
def showHistory (place : Nat) (takeOut : Bool) (s : Scene) : Scene × String :=
  let h := (s.histories[place]?).getD {}
  let (collected, h) := (if takeOut then History.take else History.copy).run h
  let (requests, remarks) := RequestHistory.ofEvents collected.events
  let s := { s with histories := s.histories.set place h }
  (remarks.foldl (fun s r => s.log .warn r) s, RequestHistory.text (fun _ => fixedTime) requests)

end Scenario

end RequestEngine
