/-
  RequestEngine.Proofs.Simulation.Lockstep

  Two sessions in lockstep.  They have the same cluster, profiles, scripts and
  pool, and the same scene but for the log; their observers are twins.  Whatever
  happens to both keeps them so, and requests in flight are the same in both.

    * `World.Alike`    — two sessions that differ in observers and log alone;
    * `Flight.Undelayed` — a request that waits for no callback;
    * `Lockstep`       — the same request in two such sessions;
    * `World.executeAll_lockstep` — whole executions are in lockstep.
-/
import RequestEngine.Proofs.Observation.Guarding
import RequestEngine.Proofs.Simulation.Activation

namespace RequestEngine

/-- What is written about an action does not depend on the log. -/
theorem Action.report_alike (settings : Settings) (a : Action) {s s' : Scene}
    (h : s.Alike s') : (a.report settings s).Alike (a.report settings s') := by
  rw [report, report]
  cases a.line? with
  | none =>
    cases a.entry? settings with
    | none => exact h
    | some => exact h.note ..
  | some =>
    cases a.entry? settings with
    | none => exact h.log ..
    | some => exact (h.log ..).note ..

namespace Simulation

-- ============================================================================
-- Sessions
-- ============================================================================

namespace World

/-- A session without its log and its observers. -/
def view (w : World) : World :=
  { w with scene := w.scene.withoutLog, observers := [] }

/-- Two sessions that differ in log and observers alone. -/
def Alike (w w' : World) : Prop :=
  w.view = w'.view

variable {w w' : World}

theorem Alike.parts (h : w.Alike w') :
    w.scene.Alike w'.scene ∧ w' = { w with scene := w'.scene, observers := w'.observers } :=
  ⟨congrArg World.scene h,
    congrArg (fun x => { x with scene := w'.scene, observers := w'.observers }) h.symm⟩

theorem alike_of_scene (w : World) {scene scene' : Scene} (alike : scene.Alike scene')
    (observers observers' : List Observer) :
    World.Alike { w with scene, observers }
      { w with scene := scene', observers := observers' } := by
  have heq : scene.withoutLog = scene'.withoutLog := alike
  rw [World.Alike, view, view]
  dsimp only
  rw [heq]

/-- Alike sessions stay alike with scenes that are. -/
theorem Alike.staged (h : w.Alike w') {scene scene' : Scene} (alike : scene.Alike scene') :
    World.Alike { w with scene } { w' with scene := scene' } := by
  rw [h.parts.2]
  exact alike_of_scene w alike _ _

/-! What alike sessions have in common, and what keeps them alike. -/

theorem Alike.directory (h : w.Alike w') : w.directory = w'.directory := by
  rw [h.parts.2]

theorem Alike.pool (h : w.Alike w') : w.pool = w'.pool := by
  rw [h.parts.2]

theorem Alike.script (h : w.Alike w') (node : Node) : w.script node = w'.script node := by
  rw [h.parts.2]
  rfl

theorem Alike.setScript (h : w.Alike w') (a : String) (script : NodeScript) :
    (w.setScript a script).Alike (w'.setScript a script) := by
  rw [h.parts.2]
  exact alike_of_scene (w.setScript a script) h.parts.1 _ _

theorem Alike.withPool (h : w.Alike w') (pool : PoolCounts) :
    World.Alike { w with pool } { w' with pool } := by
  rw [h.parts.2]
  exact alike_of_scene { w with pool } h.parts.1 _ _

theorem Alike.withDirectory (h : w.Alike w') (directory : Directory) :
    World.Alike { w with directory } { w' with directory } := by
  rw [h.parts.2]
  exact alike_of_scene { w with directory } h.parts.1 _ _

theorem Alike.withCells (h : w.Alike w') (cells : ProfileCells) :
    World.Alike { w with cells } { w' with cells } := by
  rw [h.parts.2]
  exact alike_of_scene { w with cells } h.parts.1 _ _

theorem Alike.now (h : w.Alike w') : w.now = w'.now :=
  h.parts.1.now

/-- Changes of the cluster are logged in the same way. -/
theorem Alike.applyEffects (h : w.Alike w') (span : Option Nat) (e : Effects) :
    (w.applyEffects span e).Alike (w'.applyEffects span e) := by
  have hskipped (skipped : List Node) (s s' : Scene) (alike : s.Alike s') :
      (skipped.foldl (fun s n => s.log .debug (Directory.skippedRemark n)) s).Alike
        (skipped.foldl (fun s n => s.log .debug (Directory.skippedRemark n)) s') := by
    induction skipped generalizing s s' with
    | nil => exact alike
    | cons n rest ih => exact ih _ _ (alike.log ..)
  rw [World.applyEffects, World.applyEffects, ← h.directory]
  exact (h.withDirectory _).staged (h.parts.1.within span (hskipped _))

theorem Alike.moment (h : w.Alike w') : w.moment = w'.moment := by
  obtain ⟨hscene, heq⟩ := h.parts
  rw [World.moment, World.moment, ← h.now, ← hscene.metrics, heq]

end World

-- ============================================================================
-- Requests in flight
-- ============================================================================

namespace Flight

variable {f : Flight} {p : Party}

/-- A request in flight waits for no callback. -/
def Undelayed (f : Flight) : Prop :=
  ∀ pw ∈ f.waits, ∀ d, pw.2 ≠ .delivery d

theorem Undelayed.waitFor {wait : Wait} (h : f.Undelayed) (p : Party)
    (prompt : ∀ d, wait ≠ .delivery d) : (f.waitFor p wait).Undelayed := by
  intro pw hpw
  rcases mem_waitFor hpw with ⟨-, hmem⟩ | rfl
  · exact h pw hmem
  · exact prompt

theorem Undelayed.settle (h : f.Undelayed) (p : Party) : (f.settle p).Undelayed :=
  fun pw hpw => h pw (List.mem_filter.mp hpw).1

theorem Undelayed.prune (h : f.Undelayed) : f.prune.Undelayed :=
  fun pw hpw => h pw (List.mem_filter.mp hpw).1

end Flight

/-- One and the same request in two alike sessions, between two activations. -/
structure Lockstep (x x' : World × Flight) : Prop where
  worlds : x.1.Alike x'.1
  flight : x'.2 = x.2
  undelayed : x.2.Undelayed

namespace World

section Steps

variable {w w' : World} {f : Flight} {p : Party} {n : Notification}

/-- Observers that are not suspended are all told at once. -/
theorem deliver_unpaused (unpaused : ∀ o ∈ w.observers, o.Unpaused) :
    w.deliver f p n =
      let told := Delivery.atOnce n w.observers f.tracking
        { w.scene with diagnostics.entered := f.span p }
      let scene := { told.2 with diagnostics.entered := w.scene.diagnostics.entered }
      let f := { f with tracking := told.1 }
      ({ w with scene },
        if n.callback.suspends then f.waitFor p (.ready (toldEvent p)) else f) := by
  unfold deliver walkWithin
  split
  · dsimp only
    rw [Delivery.walk_of_unpaused fun o ho => unpaused o ho n]
    rfl
  · rfl

variable (h : w.Alike w') (twins : List.Forall₂ Observer.Twin w.observers w'.observers)
  (undelayed : f.Undelayed)

include h twins undelayed

theorem deliver_lockstep (p : Party) (n : Notification) :
    Lockstep (w.deliver f p n) (w'.deliver f p n) := by
  obtain ⟨hunpaused, hunpaused'⟩ := Observer.Twin.all_unpaused twins
  obtain ⟨hscene, -⟩ := h.parts
  obtain ⟨hitems, htold⟩ := Delivery.atOnce_alike twins n f.tracking (hscene.enter (f.span p))
  rw [deliver_unpaused hunpaused, deliver_unpaused hunpaused']
  dsimp only
  rw [← hitems, ← hscene.entered]
  refine ⟨h.staged (htold.enter _), rfl, ?_⟩
  dsimp only
  split
  · exact Flight.Undelayed.waitFor undelayed p fun _ => Wait.noConfusion
  · exact undelayed

/-- Taking an action keeps alike sessions so. -/
theorem perform_lockstep (d : Deed) : Lockstep (w.perform f d) (w'.perform f d) := by
  have hreported : (w.onScene f d.execution (d.action.report f.settings)).Alike
      (w'.onScene f d.execution (d.action.report f.settings)) :=
    h.staged (h.parts.1.within _ fun _ _ => d.action.report_alike f.settings)
  have htwins : List.Forall₂ Observer.Twin
      (w.onScene f d.execution (d.action.report f.settings)).observers
      (w'.onScene f d.execution (d.action.report f.settings)).observers := twins
  unfold perform
  dsimp only
  generalize w.onScene f d.execution (d.action.report f.settings) = v at hreported htwins ⊢
  generalize w'.onScene f d.execution (d.action.report f.settings) = v' at hreported htwins ⊢
  obtain ⟨hscene, -⟩ := hreported.parts
  have hprompt (p : Party) (wait : Wait) (prompt : ∀ d, wait ≠ .delivery d) :
      (f.waitFor p wait).Undelayed := undelayed.waitFor p prompt
  cases d.action with
  | openExecution index =>
    dsimp only
    obtain ⟨hspans, hspan⟩ := hscene.diagnostics.openSpan "Request execution"
      v.scene.diagnostics.entered [("execution", toString index)]
    rw [← hscene.entered, ← hspan]
    exact ⟨hreported.staged (hscene.diagnosed hspans), rfl, hprompt _ _ fun _ => Wait.noConfusion⟩
  | askConnection node =>
    dsimp only
    rw [← hreported.script, ← hreported.now]
    exact ⟨hreported.setScript .., rfl, hprompt _ _ fun _ => Wait.noConfusion⟩
  | acquired node c =>
    dsimp only
    rw [← hreported.pool]
    exact ⟨hreported.withPool _, rfl, undelayed⟩
  | send node c level serial =>
    dsimp only
    rw [← hreported.script, ← hreported.now, ← hreported.pool]
    exact ⟨(hreported.setScript ..).withPool _, rfl, hprompt _ _ fun _ => Wait.noConfusion⟩
  | release node c =>
    dsimp only
    rw [← hreported.pool]
    exact ⟨hreported.withPool _, rfl, undelayed⟩
  | notify n => exact deliver_lockstep hreported htwins undelayed _ n
  | consult | askDelay | acquireFailed | reportSuccess | reportFailure | decide | claim | remark =>
    exact ⟨hreported, rfl, undelayed⟩

theorem performAll_lockstep (deeds : List Deed) :
    Lockstep (w.performAll f deeds) (w'.performAll f deeds) := by
  induction deeds generalizing w w' f with
  | nil => exact ⟨h, rfl, undelayed⟩
  | cons d rest ih =>
    have hfirst := perform_lockstep h twins undelayed d
    have hobservers := (perform_spec (w := w) (f := f) (d := d) rfl).1
    have hobservers' := (perform_spec (w := w') (f := f) (d := d) rfl).1
    rw [performAll_cons, performAll_cons, hfirst.flight]
    refine ih hfirst.worlds ?_ hfirst.undelayed
    rw [hobservers, hobservers']
    exact twins

/-- An event happens in both sessions, with the same deeds, or in neither. -/
theorem apply_lockstep (event : Request.Event) :
    Lockstep (w.apply f event) (w'.apply f event) := by
  unfold apply
  rw [← h.moment]
  cases Request.step f.settings w.moment f.state event with
  | none => exact ⟨h, rfl, undelayed⟩
  | some result =>
    obtain ⟨σ, deeds⟩ := result
    have hperformed := performAll_lockstep (f := { f with state := σ }) h twins undelayed deeds
    dsimp only
    generalize w.performAll { f with state := σ } deeds = x at hperformed ⊢
    generalize w'.performAll { f with state := σ } deeds = x' at hperformed ⊢
    refine ⟨hperformed.worlds, ?_, ?_⟩
    · rw [hperformed.flight, hperformed.worlds.now]
    · dsimp only
      split <;> exact hperformed.undelayed.prune

end Steps

-- ============================================================================
-- Activations
-- ============================================================================

section Occasions

variable {w w' : World} {f : Flight}

/-- An occasion in one of two alike sessions is one in the other, too. -/
theorem occasion_lockstep (h : w.Alike w') (undelayed : f.Undelayed) (a : Activation) :
    (w.occasion f a).1.Alike (w'.occasion f a).1 ∧ (w'.occasion f a).2 = (w.occasion f a).2 ∧
      (w.occasion f a).2.1.Undelayed := by
  cases a with
  | event e => exact ⟨h, rfl, undelayed⟩
  | waitEnds p =>
    rw [occasion, occasion]
    cases hwait : f.waits.lookup p with
    | none => exact ⟨h, rfl, undelayed⟩
    | some wait =>
      cases wait with
      | never => exact ⟨h, rfl, undelayed⟩
      | ready event => exact ⟨h, rfl, undelayed.settle p⟩
      | delivery d => exact absurd rfl (undelayed _ (mem_of_lookup hwait) d)
      | loan wake entry =>
        obtain ⟨reply, delay, effects⟩ := entry
        have heffects := h.applyEffects (f.span p) effects
        have hscript := funext heffects.script
        have hnever : (f.waitFor p .never).Undelayed :=
          undelayed.waitFor p fun _ => Wait.noConfusion
        cases p with
        | none => exact ⟨heffects, rfl, hnever⟩
        | some x =>
          cases reply with
          | granted =>
            dsimp only
            rw [← heffects.pool, ← hscript]
            exact ⟨heffects, rfl, undelayed.settle _⟩
          | refused => exact ⟨heffects, rfl, undelayed.settle _⟩
          | never => exact ⟨heffects, rfl, hnever⟩
      | exchange wake entry =>
        obtain ⟨reply, delay, effects⟩ := entry
        have heffects := h.applyEffects (f.span p) effects
        have hnever : (f.waitFor p .never).Undelayed :=
          undelayed.waitFor p fun _ => Wait.noConfusion
        cases p with
        | none => exact ⟨heffects, rfl, hnever⟩
        | some x =>
          cases reply with
          | response | broken => exact ⟨heffects, rfl, undelayed.settle _⟩
          | never => exact ⟨heffects, rfl, hnever⟩

/-- The deeds that an activation leads to. -/
def deeds (w : World) (f : Flight) (a : Activation) : List Deed :=
  let x := w.occasion f a
  let result := x.2.2.bind (Request.step x.2.1.settings x.1.moment x.2.1.state)
  (result.map Prod.snd).getD []

/-- An activation takes the same deeds in both sessions and keeps them alike. -/
theorem activate_lockstep (h : w.Alike w')
    (twins : List.Forall₂ Observer.Twin w.observers w'.observers) (undelayed : f.Undelayed)
    (a : Activation) :
    Lockstep (w.activate f a) (w'.activate f a) ∧ w'.deeds f a = w.deeds f a := by
  obtain ⟨halike, hsame, hundelayed⟩ := occasion_lockstep h undelayed a
  have htwins : List.Forall₂ Observer.Twin (w.occasion f a).1.observers
      (w'.occasion f a).1.observers := by
    rw [occasion_observers, occasion_observers]
    exact twins
  rw [activate_eq, activate_eq, deeds, deeds, hsame, halike.moment]
  refine ⟨?_, rfl⟩
  rw [seize, seize, hsame]
  cases (w.occasion f a).2.2 with
  | none => exact ⟨halike, rfl, hundelayed⟩
  | some event => exact apply_lockstep halike htwins hundelayed event

/-- A request is started in both sessions. -/
theorem launch_lockstep (h : w.Alike w')
    (twins : List.Forall₂ Observer.Twin w.observers w'.observers) (statement : Statement)
    (patience : Duration) :
    Lockstep (w.launch statement patience) (w'.launch statement patience) := by
  have hsettings : Settings.resolve statement w'.sessionProfile w'.cells w'.directory.current =
      Settings.resolve statement w.sessionProfile w.cells w.directory.current := by
    rw [h.parts.2]
  have hlogged := h.staged
    (h.parts.1.log .trace "Executing statement" [("statement", statement.contents)])
  unfold launch
  dsimp only
  rw [hsettings, ← h.now]
  refine performAll_lockstep hlogged twins ?_ _
  intro pw hpw
  exact absurd hpw List.not_mem_nil

end Occasions

end World

-- ============================================================================
-- Whole executions
-- ============================================================================

/-- Two alike sessions with twin observers, and the same requests in flight. -/
structure Parallel (x x' : World × List Flight) : Prop where
  worlds : x.1.Alike x'.1
  twins : List.Forall₂ Observer.Twin x.1.observers x'.1.observers
  flights : x'.2 = x.2
  undelayed : ∀ f ∈ x.2, f.Undelayed

namespace World

section Executions

variable {w w' : World} {flights : List Flight}

theorem advanceTo_alike (h : w.Alike w') (t : Instant) :
    (w.advanceTo t).Alike (w'.advanceTo t) := by
  obtain ⟨lines, hscene⟩ := h.parts.1.lines
  rw [advanceTo, advanceTo, ← h.now]
  refine h.staged ?_
  rw [hscene]
  rfl

theorem run_parallel (limit : Option Instant) (fuel : Nat)
    (h : Parallel (w, flights) (w', flights)) :
    Parallel (w.run limit fuel flights) (w'.run limit fuel flights) := by
  induction fuel generalizing w w' flights with
  | zero => exact h
  | succ fuel ih =>
    have hnext : w'.next flights = w.next flights := by
      rw [next, next, ← h.worlds.now]
    rw [run, run, hnext]
    cases w.next flights with
    | none => exact h
    | some entry =>
      obtain ⟨t, i, a⟩ := entry
      dsimp only
      split
      · exact h
      · cases hf : flights[i]? with
        | none => exact h
        | some f =>
          dsimp only
          obtain ⟨hstep, -⟩ := activate_lockstep (advanceTo_alike h.worlds t) h.twins
            (h.undelayed f (List.mem_of_getElem? hf)) a
          rw [hstep.flight]
          refine ih ⟨hstep.worlds, ?_, rfl, fun g hg => ?_⟩
          · rw [activate_observers, activate_observers]
            exact h.twins
          · rcases List.mem_or_eq_of_mem_set hg with hmem | rfl
            · exact h.undelayed g hmem
            · exact hstep.undelayed

theorem activationBound_eq (h : w.Alike w')
    (twins : List.Forall₂ Observer.Twin w.observers w'.observers) :
    w'.activationBound = w.activationBound := by
  funext f
  rw [activationBound, activationBound, ← h.directory, twins.length_eq]

theorem launch_parallel (h : Parallel (w, flights) (w', flights)) (statement : Statement)
    (patience : Duration) :
    Parallel ((w.launch statement patience).1, flights ++ [(w.launch statement patience).2])
      ((w'.launch statement patience).1, flights ++ [(w'.launch statement patience).2]) := by
  have hlaunch := launch_lockstep h.worlds h.twins statement patience
  refine ⟨hlaunch.worlds, ?_, congrArg (fun f => flights ++ [f]) hlaunch.flight, fun f hf => ?_⟩
  · rw [launch_observers, launch_observers]
    exact h.twins
  · rcases List.mem_append.mp hf with hmem | hnew
    · exact h.undelayed f hmem
    · exact List.mem_singleton.mp hnew ▸ hlaunch.undelayed

/-- A run is bounded by the same number of activations in both sessions. -/
theorem runBounded_parallel {x x' : World × List Flight} (h : Parallel x x')
    (limit : World → Option Instant) (same : limit x.1 = limit x'.1) :
    Parallel (x.1.run (limit x.1) ((x.2.map x.1.activationBound).foldl (· + ·) 0) x.2)
      (x'.1.run (limit x'.1) ((x'.2.map x'.1.activationBound).foldl (· + ·) 0) x'.2) := by
  obtain ⟨v, flights⟩ := x
  obtain ⟨v', flights'⟩ := x'
  obtain rfl : flights' = flights := h.flights
  dsimp only at same ⊢
  rw [← same, activationBound_eq h.worlds h.twins]
  exact run_parallel _ _ h

/-- The same requests take the same course in alike sessions with twin observers. -/
theorem executeAll_parallel (h : w.Alike w')
    (twins : List.Forall₂ Observer.Twin w.observers w'.observers)
    (requests : List (Statement × Duration)) :
    Parallel (w.executeAll requests) (w'.executeAll requests) := by
  have hidle : Parallel (w, []) (w', []) :=
    ⟨h, twins, rfl, fun _ hf => absurd hf List.not_mem_nil⟩
  refine runBounded_parallel ?_ (fun _ => none) rfl
  refine List.foldl_rel (r := Parallel) hidle ?_
  rintro ⟨statement, patience⟩ - ⟨v, flights⟩ ⟨v', flights'⟩ hbefore
  obtain rfl : flights' = flights := hbefore.flights
  have hlaunched := launch_parallel hbefore statement patience
  exact runBounded_parallel hlaunched (fun v => some v.now) (congrArg some hlaunched.worlds.now)

end Executions

end World

end Simulation

end RequestEngine
