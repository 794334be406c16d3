/-
  RequestEngine.Proofs.Observation.Guarding

  What is left of the end of a callback.  A callback that fails or panics is
  logged, and that is all: so observers that do the same things, but whose
  callbacks end differently, leave the same but for the log.

    * `Scene.Alike`      — the same scene but for the log;
    * `Observer.Twin`    — two observers that do the same, however their callbacks
      end; `Observer.overruled` gives an observer such a twin;
    * `ObserverTree.react` — how a composite passes a notification on, member by
      member; this is the delivery to its single observers, and it ends well.
-/
import Mathlib.Data.List.Forall2
import RequestEngine.Observation.Tracer
import RequestEngine.Proofs.Observation.Delivery
import RequestEngine.Simulation.Observers

namespace RequestEngine

-- ============================================================================
-- All but the log
-- ============================================================================

/-- Diagnostics without their lines. -/
def Diagnostics.withoutLog (d : Diagnostics) : Diagnostics :=
  { d with lines := [] }

/-- A scene without its log. -/
def Scene.withoutLog (s : Scene) : Scene :=
  { s with diagnostics := s.diagnostics.withoutLog }

/-- The same diagnostics but for the lines. -/
def Diagnostics.Alike (d d' : Diagnostics) : Prop :=
  d.withoutLog = d'.withoutLog

/-- The same scene but for the log. -/
def Scene.Alike (s s' : Scene) : Prop :=
  s.withoutLog = s'.withoutLog

namespace Diagnostics

variable {d d' d'' : Diagnostics}

theorem Alike.lines (h : d.Alike d') : ∃ lines, d' = { d with lines } :=
  ⟨d'.lines, congrArg (fun x => { x with lines := d'.lines }) h.symm⟩

theorem alike_log (d : Diagnostics) (severity : Severity) (message : String) (fields : Fields) :
    (d.log severity message fields).Alike d := by
  unfold log
  split <;> rfl

theorem Alike.log (h : d.Alike d') (severity : Severity) (message : String) (fields : Fields) :
    (d.log severity message fields).Alike (d'.log severity message fields) :=
  ((alike_log d ..).trans h).trans (alike_log d' ..).symm

theorem Alike.openSpan (h : d.Alike d') (name : String) (parent : Option Nat) (fields : Fields) :
    (d.openSpan name parent fields).1.Alike (d'.openSpan name parent fields).1 ∧
      (d.openSpan name parent fields).2 = (d'.openSpan name parent fields).2 := by
  obtain ⟨lines, rfl⟩ := h.lines
  have hkeeps : { d with lines }.keeps .trace = d.keeps .trace := rfl
  rw [Diagnostics.openSpan, Diagnostics.openSpan, hkeeps]
  split <;> exact ⟨rfl, rfl⟩

theorem alike_logIn (d : Diagnostics) (span : Option Nat) (severity : Severity)
    (message : String) (fields : Fields) : (d.logIn span severity message fields).Alike d := by
  unfold logIn log
  split <;> rfl

end Diagnostics

namespace Scene

variable {s s' : Scene}

theorem Alike.refl (s : Scene) : s.Alike s := rfl

theorem Alike.lines (h : s.Alike s') :
    ∃ lines, s' = { s with diagnostics := { s.diagnostics with lines } } :=
  ⟨s'.diagnostics.lines,
    congrArg (fun x => { x with diagnostics.lines := s'.diagnostics.lines }) h.symm⟩

theorem Alike.now (h : s.Alike s') : s.now = s'.now := by
  obtain ⟨lines, rfl⟩ := h.lines
  rfl

theorem Alike.metrics (h : s.Alike s') : s.metrics = s'.metrics := by
  obtain ⟨lines, rfl⟩ := h.lines
  rfl

theorem Alike.diagnostics (h : s.Alike s') : s.diagnostics.Alike s'.diagnostics := by
  obtain ⟨lines, rfl⟩ := h.lines
  rfl

/-- Alike scenes stay alike with diagnostics that are. -/
theorem Alike.diagnosed (h : s.Alike s') {d d' : Diagnostics} (alike : d.Alike d') :
    Scene.Alike { s with diagnostics := d } { s' with diagnostics := d' } := by
  obtain ⟨lines, rfl⟩ := h.lines
  exact congrArg (fun x => { s with diagnostics := x }) alike

theorem Alike.log (h : s.Alike s') (severity : Severity) (message : String) (fields : Fields) :
    (s.log severity message fields).Alike (s'.log severity message fields) :=
  h.diagnosed (h.diagnostics.log severity message fields)

/-- However a callback ends, nothing but the log shows it. -/
theorem alike_guard (s : Scene) (callback : Callback) (verdict : Verdict) :
    (s.guard callback verdict).Alike s := by
  have hlog (severity : Severity) (message : String) (fields : Fields) :
      (s.log severity message fields).Alike s :=
    (Alike.refl s).diagnosed (s.diagnostics.alike_log severity message fields)
  cases verdict with
  | done => rfl
  | failed | panicked => exact hlog ..

theorem Alike.guard (h : s.Alike s') (callback : Callback) (verdict verdict' : Verdict) :
    (s.guard callback verdict).Alike (s'.guard callback verdict') :=
  ((alike_guard s ..).trans h).trans (alike_guard s' ..).symm

theorem Alike.note (h : s.Alike s') (event : String) (cells : List Cell) :
    (s.note event cells).Alike (s'.note event cells) := by
  obtain ⟨lines, rfl⟩ := h.lines
  rfl

theorem Alike.entered (h : s.Alike s') : s.diagnostics.entered = s'.diagnostics.entered := by
  obtain ⟨lines, rfl⟩ := h.lines
  rfl

theorem Alike.enter (h : s.Alike s') (span : Option Nat) :
    Scene.Alike { s with diagnostics.entered := span } { s' with diagnostics.entered := span } := by
  obtain ⟨lines, rfl⟩ := h.lines
  rfl

/-- What is done within a span is alike if it is alike outside of it. -/
theorem Alike.within {f : Scene → Scene} (h : s.Alike s') (span : Option Nat)
    (keeps : ∀ x x' : Scene, x.Alike x' → (f x).Alike (f x')) :
    (s.within span f).Alike (s'.within span f) := by
  have hinner := keeps _ _ (h.enter span)
  rw [Scene.within, Scene.within, ← h.entered]
  exact hinner.enter s.diagnostics.entered

end Scene

-- ============================================================================
-- Observers
-- ============================================================================

namespace Observer

variable {o o' : Observer}

/-- What an observer does is the same whatever has been logged. -/
def IgnoresLog (o : Observer) : Prop :=
  ∀ n t s s', s.Alike s' →
    (o.react n t s).1 = (o.react n t s').1 ∧ (o.react n t s).2.1.Alike (o.react n t s').2.1

/-- None of the callbacks is suspended. -/
def Unpaused (o : Observer) : Prop :=
  ∀ n, (o.pauseFor n).nanos = 0

/-- Two observers whose callbacks are not suspended and do the same to the items of a request and
    to the scene, whatever has been logged. They may end differently. -/
structure Twin (o o' : Observer) : Prop where
  unpaused : o.Unpaused
  unpaused' : o'.Unpaused
  same : ∀ n t s s', s.Alike s' →
    (o.react n t s).1 = (o'.react n t s').1 ∧ (o.react n t s).2.1.Alike (o'.react n t s').2.1

/-- The same observer, but with other ends of some callbacks. -/
def overruled (o : Observer) (verdict : Notification → Tracking → Scene → Option Verdict) :
    Observer where
  react n t s :=
    let (t', s', own) := o.react n t s
    (t', s', (verdict n t s).getD own)
  pause := o.pause

theorem twin_overruled (unpaused : o.Unpaused) (ignores : o.IgnoresLog)
    (verdict : Notification → Tracking → Scene → Option Verdict) : o.Twin (o.overruled verdict) :=
  ⟨unpaused, unpaused, ignores⟩

theorem Twin.all_unpaused {observers observers' : List Observer}
    (twins : List.Forall₂ Twin observers observers') :
    (∀ o ∈ observers, o.Unpaused) ∧ ∀ o ∈ observers', o.Unpaused := by
  induction twins with
  | nil => exact ⟨by simp, by simp⟩
  | cons twin _ ih =>
    exact ⟨List.forall_mem_cons.mpr ⟨twin.unpaused, ih.1⟩,
      List.forall_mem_cons.mpr ⟨twin.unpaused', ih.2⟩⟩

theorem Twin.notify (h : o.Twin o') (n : Notification) (t : Tracking) {s s' : Scene}
    (alike : s.Alike s') : (o.notify n t s).1 = (o'.notify n t s').1 ∧
      (o.notify n t s).2.Alike (o'.notify n t s').2 := by
  obtain ⟨hitems, hscene⟩ := h.same n t s s' alike
  exact ⟨hitems, hscene.guard ..⟩

end Observer

namespace Delivery

variable {observers observers' : List Observer}

/-- A notification of twins leaves the same but for the log. -/
theorem atOnce_alike (twins : List.Forall₂ Observer.Twin observers observers')
    (n : Notification) (t : Tracking) {s s' : Scene} (alike : s.Alike s') :
    (atOnce n observers t s).1 = (atOnce n observers' t s').1 ∧
      (atOnce n observers t s).2.Alike (atOnce n observers' t s').2 := by
  induction twins generalizing t s s' with
  | nil => exact ⟨rfl, alike⟩
  | @cons o o' rest rest' twin _ ih =>
    obtain ⟨hitems, hscene⟩ := twin.notify n t alike
    rw [atOnce_cons, atOnce_cons, hitems]
    exact ih _ hscene

end Delivery

-- ============================================================================
-- Composites
-- ============================================================================

namespace ObserverTree

mutual

/-- What a notification does if no callback is suspended, and how the callback ends. A composite
    notifies its members in order, each of them guarded, and ends well. -/
def react (n : Notification) :
    ObserverTree → Tracking → Scene → Tracking × Scene × Verdict
  | single o, t, s => o.react n t s
  | composite members, t, s =>
    let (t, s) := reactAll n members t s
    (t, s, .done)

/-- Notifies several trees in order, each of them guarded. -/
def reactAll (n : Notification) :
    List ObserverTree → Tracking → Scene → Tracking × Scene
  | [], t, s => (t, s)
  | tree :: rest, t, s =>
    let (t, s, verdict) := react n tree t s
    reactAll n rest t (s.guard n.callback verdict)

end

mutual

/-- A guarded tree is a delivery to its single observers. -/
theorem guard_react (n : Notification) (tree : ObserverTree) (t : Tracking) (s : Scene) :
    ((tree.react n t s).1, (tree.react n t s).2.1.guard n.callback (tree.react n t s).2.2) =
      Delivery.atOnce n tree.leaves t s := by
  cases tree with
  | single o =>
    rw [leaves, react]
    rfl
  | composite members =>
    rw [leaves, react]
    exact reactAll_eq n members t s

theorem reactAll_eq (n : Notification) (trees : List ObserverTree) (t : Tracking) (s : Scene) :
    reactAll n trees t s = Delivery.atOnce n (leavesOf trees) t s := by
  cases trees with
  | nil =>
    rw [reactAll, leavesOf]
    rfl
  | cons tree rest =>
    rw [reactAll, leavesOf, Delivery.atOnce_append, ← guard_react n tree t s]
    exact reactAll_eq n rest _ _

end

/-- A composite delivers a notification to each of its single observers in order, and never
    fails. -/
theorem react_composite (n : Notification) (members : List ObserverTree) (t : Tracking)
    (s : Scene) : (composite members).react n t s =
      ((Delivery.atOnce n (leavesOf members) t s).1,
        (Delivery.atOnce n (leavesOf members) t s).2, .done) := by
  rw [react, reactAll_eq]

end ObserverTree

-- ============================================================================
-- The provided observers
-- ============================================================================

namespace Tracer

variable {d d' : Diagnostics}

theorem finish_alike {f : Nat → Diagnostics → Diagnostics} (h : d.Alike d')
    (keeps : ∀ span, (f span d).Alike (f span d')) (key : String) (t : Tracking) :
    (finish key f t d).1 = (finish key f t d').1 ∧
      (finish key f t d).2.Alike (finish key f t d').2 := by
  unfold finish
  rcases takeSpan t key with ⟨t', found⟩
  cases found with
  | none => exact ⟨rfl, h⟩
  | some span => exact ⟨rfl, keeps span⟩

/-- A span that is opened is kept under the same key, if it is kept. -/
theorem insert_alike (h : d.Alike d') (key name : String) (parent : Option Nat)
    (fields : Fields) (t : Tracking) :
    let keep : Diagnostics × Option Nat → Tracking × Diagnostics := fun
      | (d, some span) => ((t.insert key (.span span)).1, d)
      | (d, none) => (t, d)
    (keep (d.openSpan name parent fields)).1 = (keep (d'.openSpan name parent fields)).1 ∧
      (keep (d.openSpan name parent fields)).2.Alike (keep (d'.openSpan name parent fields)).2 := by
  obtain ⟨halike, hspan⟩ := h.openSpan name parent fields
  revert halike hspan
  rcases d.openSpan name parent fields with ⟨x, span⟩
  rcases d'.openSpan name parent fields with ⟨x', span'⟩
  intro halike hspan
  obtain rfl : span = span' := hspan
  cases span <;> exact ⟨rfl, halike⟩

/-- Spans are the same whatever has been logged. -/
theorem trace_alike (includeStatement : Bool) (t : Tracking) (n : Notification)
    (h : d.Alike d') :
    (trace includeStatement t d n).1 = (trace includeStatement t d' n).1 ∧
      (trace includeStatement t d n).2.Alike (trace includeStatement t d' n).2 := by
  have hlogIn (span : Option Nat) (severity : Severity) (message : String) (fields : Fields)
      {x x' : Diagnostics} (h : x.Alike x') :
      (x.logIn span severity message fields).Alike (x'.logIn span severity message fields) :=
    ((x.alike_logIn ..).trans h).trans (x'.alike_logIn ..).symm
  have hfield (span : Nat) (field value : String) {x x' : Diagnostics} (h : x.Alike x') :
      (x.recordField span field value).Alike (x'.recordField span field value) := by
    obtain ⟨lines, rfl⟩ := h.lines
    rfl
  have herror (span : Nat) (message : String) {x x' : Diagnostics} (h : x.Alike x') :
      (recordError x span message).Alike (recordError x' span message) :=
    hlogIn _ _ _ _ (hfield _ _ _ (hfield _ _ _ h))
  have hentered : d.entered = d'.entered := by
    obtain ⟨lines, rfl⟩ := h.lines
    rfl
  cases n with
  | requestStarted =>
    rw [trace, trace, start, start, hentered]
    exact insert_alike h _ _ _ _ t
  | nodeStarted host =>
    rw [trace, trace, startAttempt, startAttempt]
    cases span? t spanKey with
    | none => exact ⟨rfl, h⟩
    | some parent => exact insert_alike h _ _ _ _ t
  | speculated host delay =>
    rw [trace, trace]
    cases span? t spanKey with
    | none => exact ⟨rfl, h⟩
    | some span => exact ⟨rfl, hlogIn _ _ _ _ h⟩
  | nodeFailed => exact finish_alike h (fun span => herror _ _ (hfield _ _ _ h)) _ _
  | nodeSucceeded => exact finish_alike h (fun span => hlogIn _ _ _ _ h) _ _
  | requestSucceeded => exact finish_alike h (fun span => hlogIn _ _ _ _ h) _ _
  | requestFailed => exact finish_alike h (fun span => herror _ _ h) _ _
  | requestCancelled => exact finish_alike h (fun span => hlogIn _ _ _ _ h) _ _

end Tracer

namespace Observer

variable {o : Observer}

theorem recorder_ignoresLog (name : Option String) (faults : List (Callback × Fault)) :
    (recorder name faults).IgnoresLog := by
  intro n t s s' alike
  obtain ⟨lines, rfl⟩ := alike.lines
  exact ⟨rfl, rfl⟩

theorem silent_ignoresLog : silent.IgnoresLog :=
  fun _ _ _ _ alike => ⟨rfl, alike⟩

theorem history_ignoresLog (place : Nat) : (history place).IgnoresLog := by
  intro n t s s' alike
  obtain ⟨lines, rfl⟩ := alike.lines
  simp only [history]
  split
  · exact ⟨rfl, rfl⟩
  · split <;> exact ⟨rfl, rfl⟩

theorem metrics_ignoresLog (place : Nat) : (metrics place).IgnoresLog := by
  intro n t s s' alike
  obtain ⟨lines, rfl⟩ := alike.lines
  simp only [metrics]
  split
  · exact ⟨rfl, rfl⟩
  · split <;> exact ⟨rfl, rfl⟩

theorem tracer_ignoresLog (includeStatement : Bool) : (tracer includeStatement).IgnoresLog := by
  intro n t s s' alike
  obtain ⟨hitems, hdiagnostics⟩ := Tracer.trace_alike includeStatement t n alike.diagnostics
  exact ⟨hitems, alike.diagnosed hdiagnostics⟩

end Observer

namespace Simulation.ObserverChoice

/-- A property of the observers of each kind that a configuration can ask for. -/
structure OfEachKind (P : Observer → Prop) : Prop where
  recorder : ∀ name faults, P (Observer.recorder name faults)
  silent : P Observer.silent
  history : ∀ place, P (Observer.history place)
  tracer : ∀ includeStatement, P (Observer.tracer includeStatement)
  metrics : ∀ place, P (Observer.metrics place)

variable {P : Observer → Prop}

mutual

/-- It holds of all that a configuration asks for. -/
theorem OfEachKind.forall_build (h : OfEachKind P) (choice : ObserverChoice) (s : Scene) :
    ∀ o ∈ (choice.build s).2.leaves, P o := by
  have sole {o' : Observer} (h : P o') : ∀ o ∈ (ObserverTree.single o').leaves, P o := by
    rw [ObserverTree.leaves]
    exact List.forall_mem_singleton.mpr h
  cases choice with
  | recorder name faults => exact sole (h.recorder name faults)
  | silent => exact sole h.silent
  | history => exact sole (h.history _)
  | tracer includeStatement => exact sole (h.tracer includeStatement)
  | metrics => exact sole (h.metrics _)
  | composite members =>
    rw [build, ObserverTree.leaves]
    exact h.forall_buildAll members s

theorem OfEachKind.forall_buildAll (h : OfEachKind P) (choices : List ObserverChoice)
    (s : Scene) : ∀ o ∈ ObserverTree.leavesOf (buildAll choices s).2, P o := by
  cases choices with
  | nil =>
    rw [buildAll, ObserverTree.leavesOf]
    exact fun _ mem => absurd mem List.not_mem_nil
  | cons choice rest =>
    rw [buildAll, ObserverTree.leavesOf]
    exact List.forall_mem_append.mpr ⟨h.forall_build choice s, h.forall_buildAll rest _⟩

end

theorem ofEachKind_ignoresLog : OfEachKind Observer.IgnoresLog where
  recorder := Observer.recorder_ignoresLog
  silent := Observer.silent_ignoresLog
  history := Observer.history_ignoresLog
  tracer := Observer.tracer_ignoresLog
  metrics := Observer.metrics_ignoresLog

/-- Whatever has been logged, observers that a configuration asks for do the same. -/
theorem buildAll_ignoresLog (choices : List ObserverChoice) (s : Scene) :
    ∀ o ∈ ObserverTree.leavesOf (buildAll choices s).2, o.IgnoresLog :=
  ofEachKind_ignoresLog.forall_buildAll choices s

end Simulation.ObserverChoice

end RequestEngine
