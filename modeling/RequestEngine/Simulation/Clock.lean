/-
  RequestEngine.Simulation.Clock

  Virtual time. It passes only while every party waits, up to the earliest
  moment at which one of them can go on. Of parties that can go on at the same
  moment the one of the request started first comes first; within a request,
  what has arrived comes before the timers, and the caller's patience ends last.
  An activation is one wait that ends or one timer that fires; their number is
  bounded by what the plans of the requests have to offer.
-/
import RequestEngine.Simulation.World

namespace RequestEngine

namespace Simulation

/-! ## What can happen next -/

/-- Something that can happen to a request: a wait ends, or an event of its own time. -/
inductive Activation where
  | waitEnds (p : Party)
  | event (e : Request.Event)

/-- When a wait ends, if it ever does. -/
def Wait.wake (now : Instant) : Wait → Option Instant
  | .ready _ => some now
  | .delivery d => some d.wake
  | .loan wake _ | .exchange wake _ => some wake
  | .never => none

namespace Flight

/-- The timers of a request that runs. -/
def timers (f : Flight) : List (Instant × Activation) :=
  match f.state with
  | .running r =>
    let expiries := r.executions.filterMap fun e =>
      match e.phase with
      | .exchanging a _ =>
        (f.settings.attemptExpiry r.deadline a.started).map fun (t, _) =>
          (t, Activation.event (.execution e.index .expire))
      | _ => none
    let speculation := r.timer.map fun t => (t.due, Activation.event .speculate)
    let deadline :=
      if r.deadlinePassed then none else r.deadline.map fun t => (t, Activation.event .timeUp)
    expiries ++ speculation.toList ++ deadline.toList
  | _ => []

/-- Everything that can happen to a request, with the time of each. -/
def agenda (now : Instant) (f : Flight) : List (Instant × Activation) :=
  if f.ended then []
  else
    (f.waits.filterMap fun (p, w) => (w.wake now).map fun t => (t, .waitEnds p)) ++
      f.timers ++ [(f.cancelAt, .event .drop)]

end Flight

/-- The first of the earliest entries; what is overdue counts as due now. -/
def earliest (now : Instant) (entries : List (Instant × α)) : Option (Instant × α) :=
  entries.foldl
    (fun best (t, a) =>
      let t := Instant.later now t
      match best with
      | some (u, _) => if t < u then some (t, a) else best
      | none => some (t, a))
    none

namespace World

/-! ## Activations -/

/-- Ends the wait of a party. The changes that a scripted answer brings along happen while the
    span of the party is the innermost one. -/
def endWait (w : World) (f : Flight) (p : Party) : World × Flight :=
  match f.waits.lookup p with
  | none | some .never => (w, f)
  | some (.ready event) => w.apply (f.settle p) event
  | some (.delivery d) =>
    w.afterWalk f p (walkWithin (f.span p) w.scene fun s => d.resume f.tracking s)
  | some (.loan _ entry) =>
    let w := w.applyEffects (f.span p) entry.effects
    match p, entry.reply with
    | some x, .granted =>
      let node := (f.executions.find? fun e => e.index = x).map Execution.node
      let own := (node.map Node.address).getD default
      let address := ((node.map w.script).bind NodeScript.connect).getD own
      w.apply (f.settle p) (.execution x (.connection (.ok ⟨w.pool.granted, address⟩)))
    | some x, .refused e => w.apply (f.settle p) (.execution x (.connection (.error e)))
    | _, _ => (w, f.waitFor p .never)
  | some (.exchange _ entry) =>
    let w := w.applyEffects (f.span p) entry.effects
    match p, entry.reply with
    | some x, .response r => w.apply (f.settle p) (.execution x (.answer (.ok r)))
    | some x, .broken cause => w.apply (f.settle p) (.execution x (.answer (.error cause)))
    | _, _ => (w, f.waitFor p .never)

/-- Lets an activation happen. -/
def activate (w : World) (f : Flight) : Activation → World × Flight
  | .waitEnds p => w.endWait f p
  | .event e => w.apply f e

/-! ## Running -/

/-- Moves the clock on to a later time. -/
def advanceTo (w : World) (t : Instant) : World :=
  { w with scene := { w.scene with now := Instant.later w.now t } }

/-- The earliest activation of several requests, with the position of its request. -/
def next (w : World) (flights : List Flight) : Option (Instant × Nat × Activation) :=
  earliest w.now
    (flights.zipIdx.flatMap fun (f, i) => (f.agenda w.now).map fun (t, a) => (t, i, a))

/-- Lets activations happen up to a given time, or to the end, at most `fuel` of them. -/
def run (limit : Option Instant) :
    Nat → World → List Flight → World × List Flight
  | 0, w, flights => (w, flights)
  | fuel + 1, w, flights =>
    match w.next flights with
    | none => (w, flights)
    | some (t, i, a) =>
      if (limit.map fun l => decide (l < t)).getD false then (w, flights)
      else
        match flights[i]? with
        | none => (w, flights)
        | some f =>
          let (w, f) := (w.advanceTo t).activate f a
          run limit fuel w (flights.set i f)

/-- A bound on the number of activations of a request: for each attempt that its plan allows, one
    for each observer at its start and at its end and a few of its own. -/
def activationBound (w : World) (f : Flight) : Nat :=
  let s := f.settings
  let offer := s.balancing.fallback s.routing s.snapshot w.directory.liveness
  let nodes := s.snapshot.nodes.length + offer.nodes.length + 2
  let observers := w.observers.length + 1
  nodes * (s.sameTargetCap + 2) * (2 * observers + 8) + 4 * observers + 8

/-- Runs requests until each of them ended. -/
def runToEnd (w : World) (flights : List Flight) : World × List Flight :=
  w.run none ((flights.map w.activationBound).foldl (· + ·) 0) flights

/-- Starts requests in order, each running until it has to wait, then runs all to their end. -/
def executeAll (w : World) (requests : List (Statement × Duration)) : World × List Flight :=
  let (w, flights) := requests.foldl
    (fun (w, flights) (statement, patience) =>
      let (w, f) := w.launch statement patience
      let flights := flights ++ [f]
      w.run (some w.now) ((flights.map w.activationBound).foldl (· + ·) 0) flights)
    (w, [])
  w.runToEnd flights

end World

end Simulation

end RequestEngine
