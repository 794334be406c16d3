/-
  RequestEngine.Proofs.Simulation.Isolation

  Observers whose callbacks fail or panic.  A session and its surroundings go on
  step by step: callers execute statements, things happen to requests, time
  passes, the cluster changes.  What happens next may depend on all that the
  session shows but for its log.  Then the ends of callbacks have no effect on
  anything else: the requests take the same course, deed by deed.

    * `Happening`, `Episode` — what may happen to a session, and what comes of it;
    * `Episode.after`        — the episode after a number of happenings;
    * `Isolation`            — what two episodes have in common whose observers
      differ in the ends of callbacks alone.
-/
import RequestEngine.Proofs.Simulation.Lockstep

namespace RequestEngine

namespace Simulation

-- ============================================================================
-- Episodes
-- ============================================================================

/-- Something that happens to a session. -/
inductive Happening where
  /-- A caller executes a statement, and drops it after a given time. -/
  | begins (statement : Statement) (patience : Duration)
  /-- Something happens to the request that was started at a given position. -/
  | activates (request : Nat) (a : Activation)
  /-- Time passes up to a given moment. -/
  | passes (t : Instant)
  /-- The cluster or the profiles change. -/
  | changes (directory : Directory) (cells : ProfileCells)

/-- A deed of a request, with its time. -/
structure Taken where
  time : Instant
  request : Nat
  deed : Deed

/-- A callback of an observer, with its time and the request that it is about. -/
structure Told where
  time : Instant
  request : Nat
  call : Call

/-- A session, its requests in flight, the deeds that they have taken and the callbacks that were
    called, both in order. -/
structure Episode where
  world : World
  flights : List Flight := []
  taken : List Taken := []
  told : List Told := []

/-- What happens next, in view of the session, the requests in flight and their deeds. -/
abbrev Environment :=
  World → List Flight → List Taken → Happening

namespace Episode

/-- Notes the deeds of a request and the callbacks that they call. -/
def note (x : Episode) (observers : List Observer) (request : Nat) (deeds : List Deed) : Episode :=
  { x with
    taken := x.taken ++ deeds.map (⟨x.world.now, request, ·⟩)
    told := x.told ++ (deeds.flatMap (Deed.calls observers)).map (⟨x.world.now, request, ·⟩) }

/-- What comes of a happening with given observers. -/
def next (x : Episode) (observers : List Observer) : Happening → Episode
  | .begins statement patience =>
    let (w, f) := { x.world with observers }.launch statement patience
    { x.note observers x.flights.length Request.start.2 with
      world := w, flights := x.flights ++ [f] }
  | .activates i a =>
    match x.flights[i]? with
    | none => x
    | some f =>
      let w := { x.world with observers }
      let (w', f') := w.activate f a
      { x.note observers i (w.deeds f a) with world := w', flights := x.flights.set i f' }
  | .passes t => { x with world := x.world.advanceTo t }
  | .changes directory cells => { x with world := { x.world with directory, cells } }

/-- The episode of a session after a number of happenings, each with observers of its own. -/
def after (environment : Environment) (observers : Nat → List Observer) (w : World) :
    Nat → Episode
  | 0 => { world := w }
  | k + 1 =>
    let x := after environment observers w k
    x.next (observers k) (environment x.world.view x.flights x.taken)

end Episode

/-- The same observers, but with other ends of some callbacks. -/
def overruled (verdict : Nat → Notification → Tracking → Scene → Option Verdict)
    (observers : List Observer) : List Observer :=
  observers.mapIdx fun i o => o.overruled (verdict i)

/-- All that some deeds tell to so many observers, one after the other. -/
def toldTo (count : Nat) (taken : List Taken) : List Told :=
  taken.flatMap fun t =>
    (t.deed.action.notice?.toList.flatMap (callsFrom 0 count)).map (⟨t.time, t.request, ·⟩)

/-- What two episodes have in common whose observers differ in the ends of callbacks alone. -/
structure Isolation (count : Nat) (plain faulty : Episode) : Prop where
  /-- The requests are in the same state and came to the same results at the same times. -/
  flights : faulty.flights = plain.flights
  /-- The deeds, calls of the pool and of connections among them, are the same. -/
  taken : faulty.taken = plain.taken
  /-- The same callbacks were called. -/
  told : faulty.told = plain.told
  /-- Every notification was passed to every observer, in the order of their registration. -/
  everybody : plain.told = toldTo count plain.taken
  /-- The sessions differ in nothing but observers and log. -/
  worlds : plain.world.Alike faulty.world
  /-- A composite passes every notification on to all of its observers in order, and never
      fails. -/
  composite : ∀ members n t s, (ObserverTree.composite members).react n t s =
    ((Delivery.atOnce n (ObserverTree.leavesOf members) t s).1,
      (Delivery.atOnce n (ObserverTree.leavesOf members) t s).2, .done)

-- ============================================================================
-- One happening
-- ============================================================================

section Steps

variable {count : Nat} {observers observers' : List Observer} {x x' : Episode}

/-- Everybody is called who is not kept waiting by others. -/
theorem calls_of_unpaused (unpaused : ∀ o ∈ observers, o.Unpaused) (d : Deed) :
    Deed.calls observers d =
      d.action.notice?.toList.flatMap (callsFrom 0 observers.length) := by
  have hcalls (n : Notification) :
      Delivery.calls observers observers n = callsFrom 0 observers.length n := by
    rw [Delivery.calls, Nat.sub_self,
      Delivery.called_of_unpaused fun o ho => unpaused o ho n]
  rw [Deed.calls, funext hcalls]

/-- What deeds tell to observers that are not suspended. -/
theorem toldTo_deeds (unpaused : ∀ o ∈ observers, o.Unpaused) (time : Instant) (request : Nat)
    (deeds : List Deed) :
    toldTo observers.length (deeds.map (⟨time, request, ·⟩)) =
      (deeds.flatMap (Deed.calls observers)).map (⟨time, request, ·⟩) := by
  rw [toldTo, List.flatMap_map, List.map_flatMap]
  refine List.flatMap_congr fun d _ => ?_
  rw [calls_of_unpaused unpaused]

theorem toldTo_append (count : Nat) (before after : List Taken) :
    toldTo count (before ++ after) = toldTo count before ++ toldTo count after :=
  List.flatMap_append ..

/-- Two episodes with nothing between them but the log. No request waits for a callback. -/
structure Beside (count : Nat) (x x' : Episode) : Prop where
  worlds : x.world.Alike x'.world
  flights : x'.flights = x.flights
  taken : x'.taken = x.taken
  told : x'.told = x.told
  undelayed : ∀ f ∈ x.flights, f.Undelayed
  everybody : x.told = toldTo count x.taken

/-- The same deeds add the same to both. -/
theorem Beside.note (h : Beside count x x')
    (twins : List.Forall₂ Observer.Twin observers observers') (all : observers.length = count)
    (request : Nat) (deeds : List Deed) :
    (x'.note observers' request deeds).taken = (x.note observers request deeds).taken ∧
      (x'.note observers' request deeds).told = (x.note observers request deeds).told ∧
      (x.note observers request deeds).told =
        toldTo count (x.note observers request deeds).taken := by
  obtain ⟨hunpaused, hunpaused'⟩ := Observer.Twin.all_unpaused twins
  have hcalls : Deed.calls observers' = Deed.calls observers := by
    funext d
    rw [calls_of_unpaused hunpaused', calls_of_unpaused hunpaused, twins.length_eq]
  refine ⟨?_, ?_, ?_⟩
  · rw [Episode.note, Episode.note, h.taken, h.worlds.now]
  · rw [Episode.note, Episode.note, h.told, h.worlds.now, hcalls]
  · subst all
    rw [Episode.note]
    dsimp only
    rw [toldTo_append, toldTo_deeds hunpaused, h.everybody]

/-- Whatever happens keeps the two beside each other. -/
theorem Beside.next (h : Beside count x x')
    (twins : List.Forall₂ Observer.Twin observers observers') (all : observers.length = count)
    (happening : Happening) :
    Beside count (x.next observers happening) (x'.next observers' happening) := by
  have hworlds : World.Alike { x.world with observers } { x'.world with observers := observers' } :=
    h.worlds
  cases happening with
  | passes t => exact { h with worlds := World.advanceTo_alike h.worlds t }
  | changes directory cells =>
    exact { h with worlds := (h.worlds.withDirectory directory).withCells cells }
  | begins statement patience =>
    obtain ⟨htaken, htold, heverybody⟩ := h.note twins all x.flights.length Request.start.2
    have hlaunch := World.launch_lockstep hworlds twins statement patience
    rw [Episode.next, Episode.next, h.flights]
    refine ⟨hlaunch.worlds, ?_, htaken, htold, ?_, heverybody⟩
    · dsimp only
      rw [hlaunch.flight]
    · intro f hf
      rcases List.mem_append.mp hf with hmem | hnew
      · exact h.undelayed f hmem
      · exact List.mem_singleton.mp hnew ▸ hlaunch.undelayed
  | activates i a =>
    rw [Episode.next, Episode.next, h.flights]
    cases hf : x.flights[i]? with
    | none => exact h
    | some f =>
      obtain ⟨hstep, hdeeds⟩ := World.activate_lockstep hworlds twins
        (h.undelayed f (List.mem_of_getElem? hf)) a
      dsimp only
      rw [hdeeds]
      obtain ⟨htaken, htold, heverybody⟩ :=
        h.note twins all i (World.deeds { x.world with observers } f a)
      refine ⟨hstep.worlds, ?_, htaken, htold, ?_, heverybody⟩
      · dsimp only
        rw [hstep.flight]
      · intro g hg
        rcases List.mem_or_eq_of_mem_set hg with hmem | rfl
        · exact h.undelayed g hmem
        · exact hstep.undelayed

end Steps

-- ============================================================================
-- Whole episodes
-- ============================================================================

theorem overruled_twins {observers : List Observer} (unpaused : ∀ o ∈ observers, o.Unpaused)
    (ignores : ∀ o ∈ observers, o.IgnoresLog)
    (verdict : Nat → Notification → Tracking → Scene → Option Verdict) :
    List.Forall₂ Observer.Twin observers (overruled verdict observers) := by
  refine List.forall₂_iff_get.mpr ⟨by simp [overruled], fun i hi hi' => ?_⟩
  have hmem : observers[i] ∈ observers := List.getElem_mem hi
  simp only [overruled, List.get_eq_getElem, List.getElem_mapIdx]
  exact Observer.twin_overruled (unpaused _ hmem) (ignores _ hmem) (verdict i)

section Episodes

variable {observers : List Observer} (environment : Environment) (w : World)

/-- Episodes whose observers differ in the ends of callbacks stay beside each other. -/
theorem Beside.after (unpaused : ∀ o ∈ observers, o.Unpaused)
    (ignores : ∀ o ∈ observers, o.IgnoresLog)
    (verdict : Nat → Nat → Notification → Tracking → Scene → Option Verdict) (k : Nat) :
    Beside observers.length (Episode.after environment (fun _ => observers) w k)
      (Episode.after environment (fun k => overruled (verdict k) observers) w k) := by
  induction k with
  | zero => exact ⟨rfl, rfl, rfl, rfl, fun _ hf => absurd hf List.not_mem_nil, rfl⟩
  | succ k ih =>
    rw [Episode.after, Episode.after]
    -- the surroundings see the same in both, so the same happens next
    have hview :
        (Episode.after environment (fun k => overruled (verdict k) observers) w k).world.view =
          (Episode.after environment (fun _ => observers) w k).world.view := ih.worlds.symm
    rw [hview, ih.flights, ih.taken]
    exact ih.next (overruled_twins unpaused ignores (verdict k)) rfl _

/-- Whatever callbacks of observers end in an error or a panic, and whatever happens to the
    session, requests come to the same results, their deeds are the same at the same times, and
    every observer is told everything. The callbacks are not suspended, and what they do does not
    depend on the log. -/
theorem Episode.isolation (unpaused : ∀ o ∈ observers, o.Unpaused)
    (ignores : ∀ o ∈ observers, o.IgnoresLog)
    (verdict : Nat → Nat → Notification → Tracking → Scene → Option Verdict) (k : Nat) :
    Isolation observers.length (Episode.after environment (fun _ => observers) w k)
      (Episode.after environment (fun k => overruled (verdict k) observers) w k) := by
  have hbeside := Beside.after environment w unpaused ignores verdict k
  exact {
    flights := hbeside.flights
    taken := hbeside.taken
    told := hbeside.told
    everybody := hbeside.everybody
    worlds := hbeside.worlds
    composite := fun members n t s => ObserverTree.react_composite n members t s }

/-- In particular, requests that a session on scripted nodes executes come to the same results at
    the same times. -/
theorem World.executeAll_isolated (unpaused : ∀ o ∈ w.observers, o.Unpaused)
    (ignores : ∀ o ∈ w.observers, o.IgnoresLog)
    (verdict : Nat → Notification → Tracking → Scene → Option Verdict)
    (requests : List (Statement × Duration)) :
    Parallel (w.executeAll requests)
      (World.executeAll { w with observers := overruled verdict w.observers } requests) := by
  have halike : w.Alike { w with observers := overruled verdict w.observers } := rfl
  exact World.executeAll_parallel halike (overruled_twins unpaused ignores verdict) requests

end Episodes

/-- The surroundings of a session on scripted nodes: a caller executes a statement, then what is
    due earliest happens. -/
def scripted (statement : Statement) (patience : Duration) : Environment :=
  fun w flights _ =>
    if flights.isEmpty then .begins statement patience
    else
      match w.next flights with
      | some (t, i, a) => if w.now < t then .passes t else .activates i a
      | none => .passes w.now

/-- Metrics and a recorder. -/
def watchers : List Observer :=
  [.metrics 0, .recorder (some "a") []]

/-- A session with one node, whose log keeps errors, executes a statement. -/
def soleRequest (observers : Nat → List Observer) : Episode :=
  Episode.after (scripted { contents := "SELECT now() FROM system.local" } (.ofMillis 1000))
    observers
    { scene := { metrics := [{}], diagnostics := { verbosity := some .error } }
      directory := (Directory.update {} [⟨Request.otherNode.host, default, none, none⟩]).1 } 8

/-- Every callback of every observer panics. -/
def panics (_ _ : Nat) (_ : Notification) (_ : Tracking) (_ : Scene) : Option Verdict :=
  some (.panicked "out of order")

/-- Though every callback panics, which is logged, the request ends as if none did. -/
theorem Episode.isolation_of_panics :
    (soleRequest fun k => overruled (panics k) watchers).flights.map Flight.ended = [true] ∧
      (soleRequest fun k => overruled (panics k) watchers).world.scene.diagnostics.lines.length =
        8 ∧
      Isolation 2 (soleRequest fun _ => watchers)
        (soleRequest fun k => overruled (panics k) watchers) := by
  have hunpaused : ∀ o ∈ watchers, o.Unpaused := by
    refine List.forall_mem_cons.mpr ⟨?_, List.forall_mem_singleton.mpr ?_⟩
    · intro n
      cases n <;> rfl
    · intro n
      cases n <;> rfl
  have hignores : ∀ o ∈ watchers, o.IgnoresLog :=
    ObserverChoice.buildAll_ignoresLog [.metrics, .recorder (some "a") []] {}
  refine ⟨by decide +kernel, by decide +kernel, ?_⟩
  exact Episode.isolation _ _ hunpaused hignores panics 8

end Simulation

end RequestEngine
