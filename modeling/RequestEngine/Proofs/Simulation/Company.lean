/-
  RequestEngine.Proofs.Simulation.Company

  Several sessions that share what their observers write to.  Each session has a
  cluster, profiles and observers of its own, among them one that all of them
  share; callers execute statements on any of the sessions, things happen to their
  requests in any order, time passes.

    * `Hearing`            — a call of the shared observer, with what it finds;
    * `Company`, `Affair`  — the sessions with their requests, and what may happen;
    * `Company.after`      — the company after a number of affairs;
    * `Company.Admits`     — affairs that let happen to requests only what may happen;
    * `Company.Kept`       — every request has a run behind it that took the deeds
      noted, and the shared observer is called for each notification among them.
-/
import RequestEngine.Proofs.Simulation.Isolation
import RequestEngine.Proofs.Simulation.Timely

namespace RequestEngine

namespace Simulation

-- ============================================================================
-- One session
-- ============================================================================

/-- A call of the shared observer: the request and the notification that it is about, and the items
    and the scene that the observer finds. -/
structure Hearing where
  request : Nat
  notification : Notification
  tracking : Tracking
  scene : Scene

/-- The observers of a session that are notified before and after the shared one. -/
structure Seat where
  ahead : List Observer := []
  behind : List Observer := []

/-- All observers of a session. -/
def Seat.observers (seat : Seat) (shared : Observer) : List Observer :=
  seat.ahead ++ shared :: seat.behind

/-- A session and a request in flight, with deeds that are to be performed. -/
structure Stage where
  world : World
  flight : Flight
  deeds : List Deed

namespace Stage

/-- What comes of it. -/
def played (x : Stage) : World × Flight :=
  x.world.performAll x.flight x.deeds

/-- What the shared observer finds as an action of a request is performed that tells it
    something. -/
def finds (w : World) (f : Flight) (seat : Seat) (request : Nat) (d : Deed) : List Hearing :=
  match d.action with
  | .notify n =>
    let scene := (w.onScene f d.execution (d.action.report f.settings)).scene
    let (tracking, scene) := Delivery.atOnce n seat.ahead f.tracking
      { scene with diagnostics.entered := f.span d.execution }
    [⟨request, n, tracking, scene⟩]
  | _ => []

/-- The calls of the shared observer as several deeds are performed. -/
def hears (w : World) (f : Flight) (seat : Seat) (request : Nat) : List Deed → List Hearing
  | [] => []
  | d :: rest =>
    finds w f seat request d ++ hears (w.perform f d).1 (w.perform f d).2 seat request rest

end Stage

namespace World

/-- A statement that is about to be executed. -/
def opening (w : World) (s : Statement) (patience : Duration) : Stage where
  world := { w with scene := w.scene.log .trace "Executing statement" [("statement", s.contents)] }
  flight :=
    { settings := Settings.resolve s w.sessionProfile w.cells w.directory.current
      state := Request.start.1
      tracking := { statement := some s.tracked }
      startedAt := w.now
      cancelAt := w.now.after patience }
  deeds := Request.start.2

/-- What an activation comes to before its deeds are performed. -/
def unfolding (w : World) (f : Flight) (a : Activation) : Stage :=
  let x := w.occasion f a
  match x.2.2.bind (Request.step x.2.1.settings x.1.moment x.2.1.state) with
  | some (state, deeds) => ⟨x.1, { x.2.1 with state }, deeds⟩
  | none => ⟨x.1, x.2.1, []⟩

variable {w : World} {f : Flight}

theorem launch_eq_played (w : World) (s : Statement) (patience : Duration) :
    w.launch s patience = (w.opening s patience).played := rfl

/-- An activation performs these deeds, after which executions that ended wait for nothing any
    more. -/
theorem activate_played (w : World) (f : Flight) (a : Activation) :
    (w.activate f a).1 = (w.unfolding f a).played.1 ∧
      (w.activate f a).2.tracking = (w.unfolding f a).played.2.tracking ∧
      ∀ pw ∈ (w.activate f a).2.waits, pw ∈ (w.unfolding f a).played.2.waits := by
  rw [activate_eq, seize, unfolding]
  dsimp only
  cases (w.occasion f a).2.2 with
  | none => exact ⟨rfl, rfl, fun _ h => h⟩
  | some event =>
    dsimp only [apply, Option.bind_some]
    cases Request.step (w.occasion f a).2.1.settings (w.occasion f a).1.moment
      (w.occasion f a).2.1.state event with
    | none => exact ⟨rfl, rfl, fun _ h => h⟩
    | some result =>
      obtain ⟨σ, deeds⟩ := result
      refine ⟨rfl, ?_, fun pw h => ?_⟩
      · dsimp only [Stage.played]
        split <;> rfl
      · dsimp only [Stage.played] at h ⊢
        split at h <;> exact (List.mem_filter.mp h).1

end World

-- ============================================================================
-- Companies
-- ============================================================================

/-- Several sessions that share a scene: their requests in flight, each with its session, the deeds
    that these have taken, and the calls of the shared observer, both in order. -/
structure Company where
  scene : Scene := {}
  worlds : List World := []
  flights : List (Nat × Flight) := []
  taken : List Taken := []
  hearings : List Hearing := []

/-- Something that happens to a company. -/
inductive Affair where
  /-- A caller executes a statement on a session, and drops it after a given time. -/
  | begins (session : Nat) (statement : Statement) (patience : Duration)
  /-- Something happens to the request that was started at a given position. -/
  | activates (request : Nat) (a : Activation)
  /-- Time passes up to a given moment. -/
  | passes (t : Instant)
  /-- The cluster or the profiles of a session change. -/
  | changes (session : Nat) (directory : Directory) (cells : ProfileCells)

namespace Company

variable (shared : Observer) (seats : Nat → Seat)

/-- A session as it finds the scene, with its observers. -/
def session (x : Company) (k : Nat) (w : World) : World :=
  { w with scene := x.scene, observers := (seats k).observers shared }

/-- Notes the deeds of a request and the calls of the shared observer, and goes on with the session
    as it is then. -/
def note (x : Company) (k request : Nat) (stage : Stage) : Company :=
  { x with
    scene := stage.played.1.scene
    worlds := x.worlds.set k stage.played.1
    taken := x.taken ++ stage.deeds.map (⟨x.scene.now, request, ·⟩)
    hearings := x.hearings ++ Stage.hears stage.world stage.flight (seats k) request stage.deeds }

/-- What comes of an affair. -/
def next (x : Company) : Affair → Company
  | .begins k statement patience =>
    match x.worlds[k]? with
    | none => x
    | some w =>
      let w := x.session shared seats k w
      { x.note seats k x.flights.length (w.opening statement patience) with
        flights := x.flights ++ [(k, (w.launch statement patience).2)] }
  | .activates i a =>
    match x.flights[i]? with
    | none => x
    | some (k, f) =>
      match x.worlds[k]? with
      | none => x
      | some w =>
        let w := x.session shared seats k w
        { x.note seats k i (w.unfolding f a) with
          flights := x.flights.set i (k, (w.activate f a).2) }
  | .passes t => { x with scene := { x.scene with now := Instant.later x.scene.now t } }
  | .changes k directory cells =>
    { x with worlds := x.worlds.modify k fun w => { w with directory, cells } }

/-- The company after several affairs. -/
def after (x : Company) (affairs : List Affair) : Company :=
  affairs.foldl (next shared seats) x

/-- The deeds of a request, in order. -/
def deedsOf (x : Company) (request : Nat) : List Deed :=
  (x.taken.filter (·.request = request)).map Taken.deed

/-- What may happen to requests in which states is all that an affair lets happen to them. -/
def Admits (may : Request.State → Request.Event → Prop) (x : Company) : Affair → Prop
  | .activates i a => ∀ kf ∈ x.flights[i]?, ∀ w ∈ x.worlds[kf.1]?,
      ∀ event ∈ ((x.session shared seats kf.1 w).occasion kf.2 a).2.2, may kf.2.state event
  | _ => True

instance decidableAdmits (may : Request.State → Request.Event → Prop)
    [inst : ∀ σ event, Decidable (may σ event)] (x : Company) (affair : Affair) :
    Decidable (x.Admits shared seats may affair) :=
  match affair with
  | .activates i a => inferInstanceAs (Decidable (∀ kf ∈ x.flights[i]?, ∀ w ∈ x.worlds[kf.1]?,
      ∀ event ∈ ((x.session shared seats kf.1 w).occasion kf.2 a).2.2, may kf.2.state event))
  | .begins .. | .passes _ | .changes .. => .isTrue trivial

variable (may : Request.State → Request.Event → Prop)

/-- What an affair can come to. -/
inductive Comes (x : Company) : Company → Prop where
  /-- Nothing happens to any request. -/
  | around {x' : Company} (scene : ∃ now, x'.scene = { x.scene with now })
      (flights : x'.flights = x.flights) (taken : x'.taken = x.taken)
      (hearings : x'.hearings = x.hearings) : Comes x x'
  /-- A request starts. -/
  | begins {k : Nat} {w : World} (statement : Statement) (patience : Duration)
      (scene : w.scene = x.scene) (observers : w.observers = (seats k).observers shared) :
      Comes x { x.note seats k x.flights.length (w.opening statement patience) with
        flights := x.flights ++ [(k, (w.launch statement patience).2)] }
  /-- Something happens to a request. -/
  | activates {k i : Nat} {w : World} {f : Flight} (a : Activation)
      (flight : x.flights[i]? = some (k, f)) (scene : w.scene = x.scene)
      (observers : w.observers = (seats k).observers shared)
      (admitted : ∀ event ∈ (w.occasion f a).2.2, may f.state event) :
      Comes x { x.note seats k i (w.unfolding f a) with
        flights := x.flights.set i (k, (w.activate f a).2) }

theorem comes_self (x : Company) : Comes shared seats may x x :=
  .around ⟨_, rfl⟩ rfl rfl rfl

/-- Every affair that is admitted comes to one of these. -/
theorem next_comes (x : Company) {affair : Affair} (admits : x.Admits shared seats may affair) :
    Comes shared seats may x (x.next shared seats affair) := by
  cases affair with
  | passes | changes => exact .around ⟨_, rfl⟩ rfl rfl rfl
  | begins k statement patience =>
    simp only [next]
    cases x.worlds[k]? with
    | none => exact comes_self ..
    | some w => exact .begins statement patience rfl rfl
  | activates i a =>
    simp only [next]
    cases hflight : x.flights[i]? with
    | none => exact comes_self ..
    | some flight =>
      obtain ⟨k, f⟩ := flight
      dsimp only
      cases hworld : x.worlds[k]? with
      | none => exact comes_self ..
      | some w => exact .activates a hflight rfl rfl (admits _ hflight w hworld)

/-- Every affair is admitted if everything may happen. -/
theorem admits_anything (x : Company) (affair : Affair) :
    x.Admits shared seats (fun _ _ => True) affair := by
  cases affair with
  | activates => exact fun _ _ _ _ _ _ => trivial
  | begins | passes | changes => trivial

/-- What every affair keeps holds of the company after several of them. -/
theorem after_induction {P : Company → Prop} (start : P x)
    (comes : ∀ x x', P x → Comes shared seats may x x' → P x') {affairs : List Affair}
    (admits : EachAfter (fun before affair => (x.after shared seats before).Admits shared seats may
      affair) affairs) : P (x.after shared seats affairs) := by
  induction affairs generalizing x with
  | nil => exact start
  | cons affair rest ih =>
    obtain ⟨hfirst, hrest⟩ := EachAfter.cons_iff.mp admits
    exact ih (comes x _ start (x.next_comes shared seats may hfirst)) hrest

end Company

-- ============================================================================
-- Deeds that are performed
-- ============================================================================

/-- None of the callbacks is suspended or takes any time. -/
structure Prompt (o : Observer) : Prop where
  unpaused : o.Unpaused
  keepsTime : o.KeepsTime

section Performing

variable {w : World} {f : Flight} {seat : Seat} {request : Nat}

theorem perform_undelayed (unpaused : ∀ o ∈ w.observers, o.Unpaused) (undelayed : f.Undelayed)
    (d : Deed) : (w.perform f d).2.Undelayed := by
  have hunpaused : ∀ o ∈ (w.onScene f d.execution (d.action.report f.settings)).observers,
      o.Unpaused := unpaused
  unfold World.perform
  dsimp only
  generalize w.onScene f d.execution (d.action.report f.settings) = v at hunpaused ⊢
  cases d.action with
  | openExecution | askConnection | send =>
    exact undelayed.waitFor _ fun _ => Wait.noConfusion
  | notify n =>
    dsimp only
    rw [World.deliver_unpaused hunpaused]
    dsimp only
    split
    · exact Flight.Undelayed.waitFor undelayed _ fun _ => Wait.noConfusion
    · exact undelayed
  | _ => exact undelayed

theorem performAll_undelayed (unpaused : ∀ o ∈ w.observers, o.Unpaused)
    (undelayed : f.Undelayed) (deeds : List Deed) : (w.performAll f deeds).2.Undelayed := by
  induction deeds generalizing w f with
  | nil => exact undelayed
  | cons d rest ih =>
    have hobservers := (World.perform_spec (w := w) (f := f) (d := d) rfl).1
    rw [World.performAll_cons]
    exact ih (hobservers ▸ unpaused) (perform_undelayed unpaused undelayed d)

/-- The shared observer is called for each notification, at the time at which it is told. -/
theorem hears_times (keeps : ∀ o ∈ w.observers, o.KeepsTime)
    (ahead : ∀ o ∈ seat.ahead, o.KeepsTime) (deeds : List Deed) :
    (Stage.hears w f seat request deeds).map (fun h => (h.request, h.notification, h.scene.now)) =
      (deeds.filterMap fun d => d.action.notice?).map (request, ·, w.now) := by
  induction deeds generalizing w f with
  | nil => rfl
  | cons d rest ih =>
    have hobservers := (World.perform_spec (w := w) (f := f) (d := d) rfl).1
    have htime := (World.perform_meanwhile (f := f) keeps d).now
    rw [Stage.hears, List.map_append, ih (hobservers ▸ keeps), htime, List.filterMap_cons,
      Stage.finds]
    cases haction : d.action with
    | notify n =>
      have hnow := Delivery.atOnce_time ahead n f.tracking
        { (w.onScene f d.execution (Action.report f.settings (.notify n))).scene with
          diagnostics.entered := f.span d.execution }
      have hreported : (w.onScene f d.execution (Action.report f.settings (.notify n))).scene.now =
          w.now := Action.report_time f.settings _ _
      simp only [Action.notice?_notify, List.map_cons, List.map_nil, List.cons_append,
        List.nil_append]
      rw [hnow, hreported]
    | _ => rfl

end Performing

-- ============================================================================
-- Stages
-- ============================================================================

variable {shared : Observer} {seats : Nat → Seat} {x : Company} {k i : Nat} {w : World} {f : Flight}
  {stage : Stage} {t : Instant}

/-- A stage of a company: the session has its observers and the company's time, and the request
    waits for no callback. -/
structure Stage.Proper (stage : Stage) (observers : List Observer) (now : Instant) : Prop where
  observers : stage.world.observers = observers
  now : stage.world.now = now
  undelayed : stage.flight.Undelayed

/-- A request waits for no callback after its deeds, either. -/
theorem Stage.Proper.played_undelayed {observers : List Observer}
    (h : stage.Proper observers t) (prompt : ∀ o ∈ observers, Prompt o) :
    stage.played.2.Undelayed :=
  performAll_undelayed (fun o ho => (prompt o (h.observers ▸ ho)).unpaused) h.undelayed _

theorem World.opening_proper (w : World) (statement : Statement) (patience : Duration) :
    (w.opening statement patience).Proper w.observers w.now :=
  ⟨rfl, rfl, fun _ h => absurd h List.not_mem_nil⟩

theorem Flight.Undelayed.steady (h : f.Undelayed) : f.Steady :=
  fun p d hwait => absurd rfl (h (p, .delivery d) hwait d)

/-- An occasion for a request that waits for no callback leaves it so, with the same items, and
    changes nothing in the scene but the log. -/
theorem World.occasion_undelayed (w : World) (h : f.Undelayed) (a : Activation) :
    (w.occasion f a).2.1.Undelayed ∧ (w.occasion f a).2.1.tracking = f.tracking := by
  refine occasion_cases
    (P := fun x => x.2.1.Undelayed ∧ x.2.1.tracking = f.tracking) w f a
    (fun _ => ⟨h, rfl⟩) ⟨h, rfl⟩ (fun p _ => ⟨h.settle p, rfl⟩) ?_
    (fun p _ _ => ⟨h.settle p, rfl⟩) (fun p _ => ⟨h.waitFor p fun _ => Wait.noConfusion, rfl⟩)
  exact fun p d hwait => absurd rfl (h _ hwait d)

theorem World.unfolding_proper (w : World) (h : f.Undelayed) (a : Activation) :
    (w.unfolding f a).Proper w.observers w.now := by
  have hobservers := w.occasion_observers f a
  have hnow := (World.occasion_meanwhile (w := w) h.steady a).1.now
  have hundelayed := (w.occasion_undelayed h a).1
  rw [unfolding]
  dsimp only
  split <;> exact ⟨hobservers, hnow, hundelayed⟩

/-- The run of a request goes on with the deeds of an activation. -/
theorem World.unfolding_run {may : Request.State → Request.Event → Prop}
    {ts : List Request.Transition} (h : f.Undelayed) (run : Request.Run f.settings ts f.state)
    (a : Activation) (before : ∀ t ∈ ts, may t.source t.event)
    (admitted : ∀ event ∈ (w.occasion f a).2.2, may f.state event) :
    ∃ ts', Request.Run (w.unfolding f a).flight.settings ts' (w.unfolding f a).flight.state ∧
      Request.log ts' = Request.log ts ++ (w.unfolding f a).deeds ∧
        ∀ t ∈ ts', may t.source t.event := by
  obtain ⟨hmeanwhile, hstate, -⟩ := World.occasion_meanwhile (w := w) h.steady a
  have hsettings := hmeanwhile.settings
  rw [← hsettings, ← hstate] at run
  rw [unfolding]
  dsimp only
  split
  · rename_i σ deeds hstep
    obtain ⟨event, hevent, hstep⟩ := Option.bind_eq_some_iff.mp hstep
    refine ⟨_, run.step hstep, Request.log_concat .., List.forall_mem_append.mpr ⟨before, ?_⟩⟩
    rw [List.forall_mem_singleton, hstate]
    exact admitted event hevent
  · exact ⟨ts, run, (List.append_nil _).symm, before⟩

/-- An activation leaves the request with the settings and the state that it comes to. -/
theorem World.activate_state (keeps : ∀ o ∈ w.observers, o.KeepsTime) (a : Activation) :
    (w.activate f a).2.settings = (w.unfolding f a).flight.settings ∧
      (w.activate f a).2.state = (w.unfolding f a).flight.state := by
  have hkeeps : ∀ o ∈ (w.occasion f a).1.observers, o.KeepsTime :=
    w.occasion_observers f a ▸ keeps
  rw [activate_eq, seize, unfolding]
  dsimp only
  cases (w.occasion f a).2.2 with
  | none => exact ⟨rfl, rfl⟩
  | some event =>
    dsimp only [Option.bind_some]
    cases hstep : Request.step (w.occasion f a).2.1.settings (w.occasion f a).1.moment
      (w.occasion f a).2.1.state event with
    | none =>
      rw [apply_none hstep]
      exact ⟨rfl, rfl⟩
    | some result =>
      exact ⟨(apply_meanwhile hkeeps event).settings, (apply_spec rfl hstep).2.1⟩

-- ============================================================================
-- What a company keeps
-- ============================================================================

namespace Company

/-- The calls of the shared observer, with their times. -/
def calls (x : Company) : List (Nat × Notification × Instant) :=
  x.hearings.map fun h => (h.request, h.notification, h.scene.now)

/-- The notifications among the deeds of a company, with their times. -/
def notices (x : Company) : List (Nat × Notification × Instant) :=
  x.taken.filterMap fun t => t.deed.action.notice?.map (t.request, ·, t.time)

/-- What holds of a company whose observers are prompt: each request waits for no callback and has
    a run behind it that took its deeds, in which nothing happened but what may happen, and the
    shared observer was called for each notification. -/
structure Kept (may : Request.State → Request.Event → Prop) (x : Company) : Prop where
  undelayed : ∀ (i k : Nat) (f : Flight), x.flights[i]? = some (k, f) → f.Undelayed
  run : ∀ (i k : Nat) (f : Flight), x.flights[i]? = some (k, f) →
    ∃ ts, Request.Run f.settings ts f.state ∧ Request.log ts = x.deedsOf i ∧
      ∀ t ∈ ts, may t.source t.event
  unstarted : ∀ i, x.flights.length ≤ i → x.deedsOf i = []
  called : x.calls = x.notices

variable {may : Request.State → Request.Event → Prop}

theorem deedsOf_note (x : Company) (k i : Nat) (stage : Stage) (j : Nat) :
    (x.note seats k i stage).deedsOf j = x.deedsOf j ++ if j = i then stage.deeds else [] := by
  rw [deedsOf, note, List.filter_append, List.map_append, List.filter_map]
  by_cases h : j = i
  · subst h
    simp [deedsOf, Function.comp_def]
  · simp [deedsOf, Function.comp_def, h, Ne.symm h]

/-- The shared observer is called for each notification of a stage. -/
theorem Kept.called_note (h : x.Kept may) (prompt : ∀ o ∈ (seats k).observers shared, Prompt o)
    (proper : stage.Proper ((seats k).observers shared) x.scene.now) (i : Nat) :
    (x.note seats k i stage).calls = (x.note seats k i stage).notices := by
  have hkeeps : ∀ o ∈ stage.world.observers, o.KeepsTime :=
    proper.observers ▸ fun o ho => (prompt o ho).keepsTime
  have hahead : ∀ o ∈ (seats k).ahead, o.KeepsTime :=
    fun o ho => (prompt o (List.mem_append_left _ ho)).keepsTime
  have hcalled := h.called
  rw [calls, notices] at hcalled ⊢
  rw [note, List.map_append, List.filterMap_append, hcalled, hears_times hkeeps hahead, proper.now,
    List.filterMap_map, List.map_filterMap]
  rfl

/-- One request has been put at a position among requests in flight. -/
structure Puts (flights flights' : List (Nat × Flight)) (i : Nat) (put : Nat × Flight) : Prop where
  cases : ∀ j kf, flights'[j]? = some kf → flights[j]? = some kf ∧ j ≠ i ∨ j = i ∧ kf = put
  grows : flights.length ≤ flights'.length
  within : i < flights'.length

variable {flights flights' : List (Nat × Flight)} {put : Nat × Flight}

/-- A new request is put behind all others. -/
theorem puts_concat (flights : List (Nat × Flight)) (put : Nat × Flight) :
    Puts flights (flights ++ [put]) flights.length put where
  cases j kf h := by
    rw [List.getElem?_append] at h
    split at h
    · rename_i hlt
      exact .inl ⟨h, Nat.ne_of_lt hlt⟩
    · rename_i hge
      have hlt := (List.getElem?_eq_some_iff.mp h).1
      rw [List.length_singleton] at hlt
      obtain rfl : j = flights.length := by omega
      rw [Nat.sub_self, List.getElem?_cons_zero] at h
      exact .inr ⟨rfl, (Option.some.inj h).symm⟩
  grows := by simp
  within := by simp

/-- Another one is put in its place. -/
theorem puts_set (before : flights[i]? = some (k, f)) (put : Nat × Flight) :
    Puts flights (flights.set i put) i put where
  cases j kf h := by
    rw [List.getElem?_set] at h
    split at h
    · rename_i hij
      split at h
      · exact .inr ⟨hij.symm, (Option.some.inj h).symm⟩
      · cases h
    · rename_i hij
      exact .inl ⟨h, fun heq => hij heq.symm⟩
  grows := by simp
  within := by
    rw [List.length_set]
    exact (List.getElem?_eq_some_iff.mp before).1

/-- A request is put where it belongs after its stage, with a run that took the deeds of the
    stage. -/
theorem Kept.note (h : x.Kept may) (prompt : ∀ o ∈ (seats k).observers shared, Prompt o)
    (proper : stage.Proper ((seats k).observers shared) x.scene.now)
    (puts : Puts x.flights flights' i (k, f)) (undelayed : f.Undelayed)
    (run : ∃ ts, Request.Run f.settings ts f.state ∧
      Request.log ts = x.deedsOf i ++ stage.deeds ∧ ∀ t ∈ ts, may t.source t.event) :
    Kept may { x.note seats k i stage with flights := flights' } := by
  constructor
  case undelayed =>
    intro j k' f' hf'
    rcases puts.cases j _ hf' with ⟨hf', -⟩ | ⟨-, heq⟩
    · exact h.undelayed j k' f' hf'
    · cases heq
      exact undelayed
  case run =>
    intro j k' f' hf'
    change ∃ ts, Request.Run f'.settings ts f'.state ∧
      Request.log ts = (x.note seats k i stage).deedsOf j ∧ ∀ t ∈ ts, may t.source t.event
    rw [deedsOf_note]
    rcases puts.cases j _ hf' with ⟨hf', hne⟩ | ⟨rfl, heq⟩
    · rw [if_neg hne, List.append_nil]
      exact h.run j k' f' hf'
    · cases heq
      rw [if_pos rfl]
      exact run
  case unstarted =>
    intro j hj
    have hgrows := puts.grows
    have hwithin := puts.within
    change flights'.length ≤ j at hj
    change (x.note seats k i stage).deedsOf j = []
    rw [deedsOf_note, h.unstarted j (by omega), if_neg (by omega), List.append_nil]
  case called => exact h.called_note prompt proper i

theorem Kept.comes {x' : Company} (h : x.Kept may)
    (prompt : ∀ k, ∀ o ∈ (seats k).observers shared, Prompt o)
    (comes : Comes shared seats may x x') : x'.Kept may := by
  cases comes with
  | around scene flights taken hearings =>
    obtain ⟨hundelayed, hrun, hunstarted, hcalled⟩ := h
    constructor
    case called => rwa [calls, notices, hearings, taken]
    all_goals simp only [flights, deedsOf, taken]
    case undelayed => exact hundelayed
    case run => exact hrun
    case unstarted => exact hunstarted
  | @begins k w statement patience scene observers =>
    have hkeeps : ∀ o ∈ w.observers, o.KeepsTime :=
      fun o ho => (prompt k o (observers ▸ ho)).keepsTime
    have hproper : (w.opening statement patience).Proper ((seats k).observers shared)
        x.scene.now := scene ▸ observers ▸ World.opening_proper w statement patience
    refine h.note (prompt k) hproper (puts_concat ..) ?_ ?_
    · rw [World.launch_eq_played]
      exact hproper.played_undelayed (prompt k)
    · rw [h.unstarted _ (Nat.le_refl _)]
      exact ⟨[], (Timely.launch hkeeps statement patience).2.run, rfl, by simp⟩
  | @activates k i w f a flight scene observers admitted =>
    have hkeeps : ∀ o ∈ w.observers, o.KeepsTime :=
      fun o ho => (prompt k o (observers ▸ ho)).keepsTime
    have hundelayed := h.undelayed i k f flight
    have hproper : (w.unfolding f a).Proper ((seats k).observers shared) x.scene.now :=
      scene ▸ observers ▸ World.unfolding_proper w hundelayed a
    refine h.note (prompt k) hproper (puts_set flight _) ?_ ?_
    · intro pw hpw
      exact hproper.played_undelayed (prompt k) pw ((w.activate_played f a).2.2 pw hpw)
    · obtain ⟨hsettings, hstate⟩ := World.activate_state (f := f) hkeeps a
      obtain ⟨ts, hrun, hlog, hmay⟩ := h.run i k f flight
      obtain ⟨ts', hrun', hlog', hmay'⟩ :=
        World.unfolding_run (w := w) hundelayed hrun a hmay admitted
      rw [hsettings, hstate, ← hlog]
      exact ⟨ts', hrun', hlog', hmay'⟩

end Company

end Simulation

end RequestEngine
