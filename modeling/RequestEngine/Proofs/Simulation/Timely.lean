/-
  RequestEngine.Proofs.Simulation.Timely

  Requests under the clock of their session.  The clock of a session moves on only
  while everybody waits, and no further than to what is due next.  So the steps
  that a request in flight has taken make up a run, and the run is punctual:
  whatever is known of punctual runs holds of the requests that a session executes.

    * `Observer.KeepsTime`      — an observer that leaves the clock alone;
    * `Timely`                  — a request in flight, with the run behind it;
    * `World.executeAll_timely` — every request that a session executes is timely.
-/
import Mathlib.Data.List.Induction
import RequestEngine.Proofs.Observation.Guarding
import RequestEngine.Proofs.Request.Punctual
import RequestEngine.Proofs.Simulation.Informed

namespace RequestEngine

-- ============================================================================
-- The clock of a scene
-- ============================================================================

/-- What an observer does takes no time. -/
def Observer.KeepsTime (o : Observer) : Prop :=
  ∀ n t s, (o.react n t s).2.1.now = s.now

theorem Simulation.ObserverChoice.ofEachKind_keepsTime : OfEachKind Observer.KeepsTime where
  recorder _ _ _ _ _ := rfl
  silent _ _ _ := rfl
  tracer _ _ _ _ := rfl
  history place n t s := by
    simp only [Observer.history]
    split
    · rfl
    · split <;> rfl
  metrics place n t s := by
    simp only [Observer.metrics]
    split
    · rfl
    · split <;> rfl

namespace Delivery

variable {observers : List Observer}

theorem guard_time (s : Scene) (callback : Callback) (verdict : Verdict) :
    (s.guard callback verdict).now = s.now := by
  cases verdict <;> rfl

theorem walk_time (keeps : ∀ o ∈ observers, o.KeepsTime) (n : Notification) (t : Tracking)
    (s : Scene) : (walk n observers t s).2.1.now = s.now := by
  induction observers generalizing t s with
  | nil => rfl
  | cons o rest ih =>
    obtain ⟨hfirst, hrest⟩ := List.forall_mem_cons.mp keeps
    have hreact := hfirst n t s
    rw [walk]
    generalize o.react n t s = x at hreact ⊢
    obtain ⟨t', s', verdict⟩ := x
    dsimp only at hreact ⊢
    split
    · rw [ih hrest, guard_time, hreact]
    · exact hreact

theorem atOnce_time (keeps : ∀ o ∈ observers, o.KeepsTime) (n : Notification) (t : Tracking)
    (s : Scene) : (atOnce n observers t s).2.now = s.now := by
  induction observers generalizing t s with
  | nil => rfl
  | cons o rest ih =>
    obtain ⟨hfirst, hrest⟩ := List.forall_mem_cons.mp keeps
    rw [atOnce_cons, ih hrest, Observer.notify, guard_time]
    exact hfirst n t s

end Delivery

theorem Action.report_time (settings : Settings) (a : Action) (s : Scene) :
    (a.report settings s).now = s.now := by
  rw [report]
  cases a.line? <;> cases a.entry? settings <;> rfl

namespace Simulation

-- ============================================================================
-- Deeds
-- ============================================================================

/-- What happens to a request takes no time and leaves its settings as they are. -/
structure Meanwhile (w : World) (f : Flight) (x : World × Flight) : Prop where
  now : x.1.now = w.now
  settings : x.2.settings = f.settings

/-- The observers that are still to be told something leave the clock alone. -/
def Flight.Steady (f : Flight) : Prop :=
  ∀ p d, (p, .delivery d) ∈ f.waits → ∀ o ∈ d.remaining, o.KeepsTime

namespace World

variable {w : World} {f : Flight} {p : Party} {n : Notification}

theorem afterWalk_meanwhile (result : Tracking × Scene × Option Delivery)
    (time : result.2.1.now = w.now) : Meanwhile w f (w.afterWalk f p result) := by
  obtain ⟨t, s, suspended⟩ := result
  cases suspended <;> exact ⟨time, rfl⟩

theorem deliver_meanwhile (keeps : ∀ o ∈ w.observers, o.KeepsTime) (p : Party)
    (n : Notification) : Meanwhile w f (w.deliver f p n) := by
  unfold deliver
  split
  · exact afterWalk_meanwhile _ (Delivery.walk_time keeps n f.tracking _)
  · exact ⟨Delivery.atOnce_time keeps n f.tracking _, rfl⟩

theorem perform_meanwhile (keeps : ∀ o ∈ w.observers, o.KeepsTime) (d : Deed) :
    Meanwhile w f (w.perform f d) := by
  have htime : (w.onScene f d.execution (d.action.report f.settings)).now = w.now :=
    d.action.report_time f.settings _
  have hkeeps : ∀ o ∈ (w.onScene f d.execution (d.action.report f.settings)).observers,
      o.KeepsTime := keeps
  unfold perform
  dsimp only
  generalize w.onScene f d.execution (d.action.report f.settings) = v at htime hkeeps ⊢
  cases d.action with
  | notify n =>
    have hdelivered : Meanwhile v f (v.deliver f d.execution n) := deliver_meanwhile hkeeps _ n
    exact ⟨hdelivered.now.trans htime, hdelivered.settings⟩
  | _ => exact ⟨htime, rfl⟩

theorem performAll_meanwhile (keeps : ∀ o ∈ w.observers, o.KeepsTime) (deeds : List Deed) :
    Meanwhile w f (w.performAll f deeds) := by
  induction deeds generalizing w f with
  | nil => exact ⟨rfl, rfl⟩
  | cons d rest ih =>
    have hfirst := perform_meanwhile (f := f) keeps d
    have hobservers := (perform_spec (w := w) (f := f) (d := d) rfl).1
    have hrest := ih (w := (w.perform f d).1) (f := (w.perform f d).2) (hobservers ▸ keeps)
    rw [performAll_cons]
    exact ⟨hrest.now.trans hfirst.now, hrest.settings.trans hfirst.settings⟩

theorem applyEffects_time (w : World) (span : Option Nat) (e : Effects) :
    (w.applyEffects span e).now = w.now := by
  have hskipped (skipped : List Node) (s : Scene) :
      (skipped.foldl (fun s n => s.log .debug (Directory.skippedRemark n)) s).now = s.now := by
    induction skipped generalizing s with
    | nil => rfl
    | cons n rest ih => exact ih _
  exact hskipped _ _

/-- Deeds leave only such observers to be told that there are. -/
theorem performAll_steady (keeps : ∀ o ∈ w.observers, o.KeepsTime) (steady : f.Steady)
    (deeds : List Deed) : (w.performAll f deeds).2.Steady := by
  intro p d hwait
  obtain ⟨-, -, harise⟩ := performAll_spec (w := w) (f := f) deeds rfl
  rcases harise _ hwait with hmem | ⟨deed, -, harises⟩
  · exact steady p d hmem
  · intro o ho
    cases harises with
    | tells _ _ leaves =>
      cases leaves with
      | suspended _ remaining =>
        exact keeps o (remaining ▸ List.mem_append_right _ ho)

theorem apply_meanwhile (keeps : ∀ o ∈ w.observers, o.KeepsTime) (event : Request.Event) :
    Meanwhile w f (w.apply f event) := by
  unfold apply
  split
  · exact ⟨rfl, rfl⟩
  · rename_i σ deeds _
    have hdeeds := performAll_meanwhile (f := { f with state := σ }) keeps deeds
    refine ⟨hdeeds.now, ?_⟩
    dsimp only
    split <;> exact hdeeds.settings

/-- Before an event happens nothing has changed but what is waited for. -/
theorem occasion_meanwhile (steady : f.Steady) (a : Activation) :
    Meanwhile w f ((w.occasion f a).1, (w.occasion f a).2.1) ∧
      (w.occasion f a).2.1.state = f.state ∧ (w.occasion f a).2.1.Steady := by
  refine occasion_cases (P := fun x => Meanwhile w f (x.1, x.2.1) ∧ x.2.1.state = f.state ∧
    x.2.1.Steady) w f a (fun _ => ⟨⟨rfl, rfl⟩, rfl, steady⟩) ⟨⟨rfl, rfl⟩, rfl, steady⟩ ?_ ?_ ?_ ?_
  · intro p event
    exact ⟨⟨rfl, rfl⟩, rfl, fun q d hwait => steady q d (List.mem_filter.mp hwait).1⟩
  · intro p d hwait x
    have hkeeps := steady p d hwait
    have hwalk := Delivery.walk_time hkeeps d.notification f.tracking
      ({ w.scene with diagnostics.entered := f.span p }.guard d.notification.callback d.verdict)
    rw [Delivery.guard_time] at hwalk
    obtain ⟨-, hstate, wait, hwaits, hleaves⟩ :=
      afterWalk_resume (w := w) (f := f) (p := p) (d := d) rfl
    have hx : Meanwhile w f x := by
      refine afterWalk_meanwhile _ ?_
      exact hwalk
    refine ⟨hx, hstate, fun q d' hwait' o ho => ?_⟩
    rw [hwaits] at hwait'
    rcases Flight.mem_waitFor hwait' with ⟨-, hmem⟩ | heq
    · exact steady q d' hmem o ho
    · obtain ⟨rfl, rfl⟩ := Prod.mk.inj heq
      cases hleaves with
      | suspended _ remaining =>
        exact hkeeps o (remaining ▸ List.mem_append_right _ ho)
  · intro p effects event
    refine ⟨⟨?_, rfl⟩, rfl, fun q d hwait => steady q d (List.mem_filter.mp hwait).1⟩
    exact applyEffects_time w _ effects
  · intro p effects
    refine ⟨⟨?_, rfl⟩, rfl, fun q d hwait => ?_⟩
    · exact applyEffects_time w _ effects
    · rcases Flight.mem_waitFor hwait with ⟨-, hmem⟩ | heq
      · exact steady q d hmem
      · cases heq

end World

-- ============================================================================
-- Requests in flight
-- ============================================================================

/-- A request in flight with a run behind it, which is punctual, as is the clock since. -/
structure Timely (w : World) (f : Flight) (ts : List Request.Transition) : Prop where
  run : Request.Run f.settings ts f.state
  punctual : EachAfter (Request.Punctual f.settings ⟨0⟩) ts
  past : Request.clock ts ≤ w.now
  ahead : ∀ alarm ∈ f.state.alarms f.settings, Request.clock ts < w.now → w.now ≤ alarm
  steady : f.Steady

section Steps

variable {w w' : World} {f f' : Flight} {ts : List Request.Transition}

/-- Nothing happens to a request, and no time passes. -/
theorem Timely.stays (h : Timely w f ts) (now : w'.now = w.now)
    (settings : f'.settings = f.settings) (state : f'.state = f.state) (steady : f'.Steady) :
    Timely w' f' ts := by
  obtain ⟨run, punctual, past, ahead, -⟩ := h
  rw [← settings, ← state, ← now] at *
  exact ⟨run, punctual, past, ahead, steady⟩

/-- An event happens to a request, at the present time. -/
theorem Timely.apply (h : Timely w f ts) (keeps : ∀ o ∈ w.observers, o.KeepsTime)
    (event : Request.Event) :
    ∃ ts', Timely (w.apply f event).1 (w.apply f event).2 ts' := by
  cases hstep : Request.step f.settings w.moment f.state event with
  | none =>
    rw [World.apply_none hstep]
    exact ⟨ts, h⟩
  | some result =>
    obtain ⟨σ, deeds⟩ := result
    obtain ⟨-, hstate, hwaits⟩ := World.apply_spec rfl hstep
    have hsteady := World.performAll_steady (f := { f with state := σ }) keeps h.steady deeds
    obtain ⟨hnow, hsettings⟩ := World.apply_meanwhile (f := f) keeps event
    refine ⟨ts ++ [⟨w.moment, f.state, event, σ, deeds⟩], ?_, ?_, ?_, ?_, ?_⟩
    · rw [hsettings, hstate]
      exact h.run.step hstep
    · rw [hsettings]
      refine h.punctual.concat ⟨h.past, fun alarm mem passes => ?_⟩
      exact h.ahead alarm mem passes
    · rw [Request.clock_concat, hnow]
      exact Instant.le_refl _
    · intro alarm _ hlt
      rw [Request.clock_concat, hnow] at hlt
      exact absurd hlt (Nat.lt_irrefl _)
    · intro p d hwait
      exact hsteady p d (hwaits _ hwait)

/-- Whatever happens to a request takes no time and keeps it under the clock. -/
theorem Timely.activated (h : Timely w f ts) (keeps : ∀ o ∈ w.observers, o.KeepsTime)
    (a : Activation) : (w.activate f a).1.now = w.now ∧
      ∃ ts', Timely (w.activate f a).1 (w.activate f a).2 ts' := by
  obtain ⟨hmeanwhile, hstate, hsteady⟩ := World.occasion_meanwhile (w := w) h.steady a
  have hbefore := h.stays hmeanwhile.now hmeanwhile.settings hstate hsteady
  have hkeeps : ∀ o ∈ (w.occasion f a).1.observers, o.KeepsTime :=
    World.occasion_observers w f a ▸ keeps
  rw [World.activate_eq, World.seize]
  cases (w.occasion f a).2.2 with
  | none => exact ⟨hmeanwhile.now, ts, hbefore⟩
  | some event =>
    have happly := World.apply_meanwhile (f := (w.occasion f a).2.1) hkeeps event
    exact ⟨happly.now.trans hmeanwhile.now, hbefore.apply hkeeps event⟩

/-- A request that is started is under the clock. -/
theorem Timely.launch (keeps : ∀ o ∈ w.observers, o.KeepsTime) (statement : Statement)
    (patience : Duration) : (w.launch statement patience).1.now = w.now ∧
      Timely (w.launch statement patience).1 (w.launch statement patience).2 [] := by
  obtain ⟨w₁, f, hlaunch, hsame, hnow, hstarting, hwaits⟩ : ∃ (w₁ : World) (f : Flight),
      w.launch statement patience = w₁.performAll f Request.start.2 ∧
        w₁.observers = w.observers ∧ w₁.now = w.now ∧ f.state = .starting ∧ f.waits = [] :=
    ⟨_, _, rfl, rfl, rfl, rfl, rfl⟩
  have hkeeps : ∀ o ∈ w₁.observers, o.KeepsTime := hsame ▸ keeps
  have hmeanwhile := World.performAll_meanwhile (f := f) hkeeps Request.start.2
  obtain ⟨-, hstate, -⟩ := World.performAll_spec (w := w₁) (f := f) Request.start.2 rfl
  have hsteady : f.Steady := by
    intro p d hwait
    rw [hwaits] at hwait
    exact absurd hwait List.not_mem_nil
  rw [hlaunch]
  refine ⟨hmeanwhile.now.trans hnow, ?_, ?_, Nat.zero_le _, ?_, ?_⟩
  · rw [hstate, hstarting]
    exact .start
  · exact .nil
  · rw [hstate, hstarting]
    exact fun _ mem => absurd mem List.not_mem_nil
  · exact World.performAll_steady hkeeps hsteady Request.start.2

/-- The alarms of a request are on its agenda. -/
theorem mem_agenda {alarm : Instant} (mem : alarm ∈ f.state.alarms f.settings) (now : Instant) :
    ∃ a, (alarm, a) ∈ f.agenda now := by
  cases hstate : f.state with
  | running r =>
    have hrunning : f.ended = false := by
      rw [Flight.ended, hstate]
    have htimer : ∃ a, (alarm, a) ∈ f.timers := by
      rw [Flight.timers, hstate]
      rw [hstate] at mem
      rcases List.mem_append.mp mem with mem | mem
      · rcases List.mem_append.mp mem with mem | mem
        · -- the time limit of an attempt
          obtain ⟨e, he, hexpiry⟩ := List.mem_filterMap.mp mem
          refine ⟨.event (.execution e.index .expire), ?_⟩
          refine List.mem_append_left _ (List.mem_append_left _ ?_)
          refine List.mem_filterMap.mpr ⟨e, he, ?_⟩
          unfold Execution.expiry? at hexpiry
          split at hexpiry
          · obtain ⟨⟨t, limit⟩, hlimit, rfl⟩ := Option.map_eq_some_iff.mp hexpiry
            simp [*]
          · cases hexpiry
        · -- the next speculative execution
          obtain ⟨t, ht, rfl⟩ := Option.map_eq_some_iff.mp (Option.mem_toList.mp mem)
          refine ⟨.event .speculate, List.mem_append_left _ (List.mem_append_right _ ?_)⟩
          simp [ht]
      · refine ⟨.event .timeUp, List.mem_append_right _ ?_⟩
        split at mem
        · exact absurd mem List.not_mem_nil
        · rename_i ahead
          simpa [ahead] using mem
    obtain ⟨a, ha⟩ := htimer
    refine ⟨a, ?_⟩
    rw [Flight.agenda, hrunning]
    exact List.mem_append_left _ (List.mem_append_right _ ha)
  | starting | concluding | finished | dropped =>
    rw [hstate] at mem
    exact absurd mem List.not_mem_nil

/-- The clock moves on, but no further than to what is due next. -/
theorem Timely.advanced (h : Timely w f ts) {t : Instant}
    (next : ∀ u a, (u, a) ∈ f.agenda w.now → t ≤ Instant.later w.now u) :
    Timely (w.advanceTo t) f ts := by
  have hnow : (w.advanceTo t).now = Instant.later w.now t := rfl
  refine ⟨h.run, h.punctual, ?_, fun alarm mem passes => ?_, h.steady⟩
  · exact Instant.le_trans h.past (Instant.le_later_left _ _)
  · obtain ⟨a, ha⟩ := mem_agenda mem w.now
    have hdue := next alarm a ha
    have hahead := h.ahead alarm mem
    rw [hnow] at passes ⊢
    by_cases hwaits : t ≤ w.now
    · have hstays : Instant.later w.now t ≤ w.now := Instant.later_le (Instant.le_refl _) hwaits
      exact Instant.le_trans hstays (hahead (Nat.lt_of_lt_of_le passes hstays))
    · -- what was due before now would have kept the clock where it is
      have hmoves : w.now < t := Instant.not_le.mp hwaits
      have hfuture : w.now ≤ alarm := by
        by_contra hgone
        have hoverdue : alarm ≤ w.now := Nat.le_of_lt (Instant.not_le.mp hgone)
        have hdue' := Instant.le_trans hdue (Instant.later_le (Instant.le_refl _) hoverdue)
        exact hwaits hdue'
      refine Instant.later_le hfuture (Instant.le_trans hdue ?_)
      exact Instant.later_le hfuture (Instant.le_refl _)

end Steps

-- ============================================================================
-- Sessions
-- ============================================================================

theorem earliest_concat {α : Type} (now : Instant) (entries : List (Instant × α))
    (entry : Instant × α) : earliest now (entries ++ [entry]) =
      match earliest now entries with
      | some best =>
        if Instant.later now entry.1 < best.1 then some (Instant.later now entry.1, entry.2)
        else some best
      | none => some (Instant.later now entry.1, entry.2) := by
  rw [earliest, List.foldl_append, ← earliest]
  cases earliest now entries <;> rfl

/-- The entry that is earliest is not later than any other, and there is none only among none. -/
theorem earliest_le {α : Type} (now : Instant) (entries : List (Instant × α)) :
    (∀ best, earliest now entries = some best →
      ∀ entry ∈ entries, best.1 ≤ Instant.later now entry.1) ∧
    (earliest now entries = none → entries = []) := by
  induction entries using List.reverseRecOn with
  | nil => exact ⟨fun _ _ _ mem => absurd mem List.not_mem_nil, fun _ => rfl⟩
  | append_singleton rest last ih =>
    obtain ⟨hleast, hempty⟩ := ih
    rw [earliest_concat]
    cases hbest : earliest now rest with
    | none =>
      obtain rfl := hempty hbest
      refine ⟨?_, fun h => absurd h (Option.some_ne_none _)⟩
      rintro best ⟨⟩ entry mem
      obtain rfl := List.mem_singleton.mp mem
      exact Instant.le_refl _
    | some least =>
      dsimp only
      split
      · rename_i hearlier
        refine ⟨?_, fun h => absurd h (Option.some_ne_none _)⟩
        rintro best ⟨⟩ entry mem
        rcases List.mem_append.mp mem with mem | mem
        · exact Instant.le_trans (Nat.le_of_lt hearlier) (hleast least hbest entry mem)
        · obtain rfl := List.mem_singleton.mp mem
          exact Instant.le_refl _
      · rename_i hlater
        refine ⟨?_, fun h => absurd h (Option.some_ne_none _)⟩
        rintro best ⟨⟩ entry mem
        rcases List.mem_append.mp mem with mem | mem
        · exact hleast least hbest entry mem
        · obtain rfl := List.mem_singleton.mp mem
          exact Instant.le_of_not_lt hlater

/-- The requests of a session are under its clock, which no observer moves. -/
structure InTime (w : World) (flights : List Flight) : Prop where
  keeps : ∀ o ∈ w.observers, o.KeepsTime
  timely : ∀ f ∈ flights, ∃ ts, Timely w f ts

section Sessions

variable {w : World} {flights : List Flight}

/-- What happens next is due no later than anything that may happen to a request. -/
theorem next_le {t : Instant} {i : Nat} {a : Activation}
    (h : w.next flights = some (t, i, a)) {f : Flight} (mem : f ∈ flights) (u : Instant)
    (b : Activation) (due : (u, b) ∈ f.agenda w.now) : t ≤ Instant.later w.now u := by
  obtain ⟨j, hj⟩ := List.mem_iff_getElem?.mp mem
  have hentry : (u, j, b) ∈ flights.zipIdx.flatMap fun x =>
      (x.1.agenda w.now).map fun y => (y.1, x.2, y.2) := by
    refine List.mem_flatMap.mpr ⟨(f, j), List.mk_mem_zipIdx_iff_getElem?.mpr hj, ?_⟩
    exact List.mem_map.mpr ⟨(u, b), due, rfl⟩
  exact (earliest_le w.now _).1 _ h _ hentry

theorem InTime.launched (h : InTime w flights) (statement : Statement) (patience : Duration) :
    InTime (w.launch statement patience).1 (flights ++ [(w.launch statement patience).2]) := by
  obtain ⟨hnow, hlaunched⟩ := Timely.launch h.keeps statement patience
  refine ⟨World.launch_observers w statement patience ▸ h.keeps, fun f hf => ?_⟩
  rcases List.mem_append.mp hf with hmem | hnew
  · obtain ⟨ts, htimely⟩ := h.timely f hmem
    exact ⟨ts, htimely.stays hnow rfl rfl htimely.steady⟩
  · obtain rfl := List.mem_singleton.mp hnew
    exact ⟨[], hlaunched⟩

theorem InTime.run (h : InTime w flights) (limit : Option Instant) (fuel : Nat) :
    InTime (w.run limit fuel flights).1 (w.run limit fuel flights).2 := by
  induction fuel generalizing w flights with
  | zero => exact h
  | succ fuel ih =>
    unfold World.run
    split
    · exact h
    rename_i t i a hnext
    split
    · exact h
    split
    · exact h
    rename_i f hfound
    have hmem : f ∈ flights := List.mem_of_getElem? hfound
    have hadvanced (g : Flight) (hg : g ∈ flights) : ∃ ts, Timely (w.advanceTo t) g ts := by
      obtain ⟨ts, htimely⟩ := h.timely g hg
      exact ⟨ts, htimely.advanced (next_le hnext hg)⟩
    obtain ⟨ts, htimely⟩ := hadvanced f hmem
    obtain ⟨hnow, hactivated⟩ := htimely.activated h.keeps a
    refine ih ⟨World.activate_observers (w.advanceTo t) f a ▸ h.keeps, fun g hg => ?_⟩
    rcases List.mem_or_eq_of_mem_set hg with hg | rfl
    · obtain ⟨ts, hother⟩ := hadvanced g hg
      exact ⟨ts, hother.stays hnow rfl rfl hother.steady⟩
    · exact hactivated

/-- The steps of every request that a session executes are a punctual run, if no observer moves
    the clock. -/
theorem World.executeAll_timely (keeps : ∀ o ∈ w.observers, o.KeepsTime)
    (requests : List (Statement × Duration)) :
    ∀ f ∈ (w.executeAll requests).2, ∃ ts, Request.Run f.settings ts f.state ∧
      EachAfter (Request.Punctual f.settings ⟨0⟩) ts := by
  have hrun : InTime (w.executeAll requests).1 (w.executeAll requests).2 := by
    refine InTime.run (?_ : InTime _ _) none _
    refine List.foldlRecOn (motive := fun (x : World × List Flight) => InTime x.1 x.2) requests _
      ⟨keeps, fun _ hf => absurd hf List.not_mem_nil⟩ ?_
    rintro ⟨v, flights⟩ h ⟨statement, patience⟩ -
    exact (h.launched statement patience).run _ _
  intro f hf
  obtain ⟨ts, htimely⟩ := hrun.timely f hf
  exact ⟨ts, htimely.run, htimely.punctual⟩

end Sessions

end Simulation

end RequestEngine
