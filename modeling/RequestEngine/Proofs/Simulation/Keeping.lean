/-
  RequestEngine.Proofs.Simulation.Keeping

  An observer that collects, shared by several sessions.  Other observers are
  considerate: they leave its items and its record alone.  Then what it finds
  whenever it is called, and what it has recorded in the end, is what it would
  have come to alone, had it been told the same things in the same order.

    * `Observer.Considerate` — observers that leave a collector's things alone, among
      them those that are provided and of another kind;
    * `Finds`                — a collector finds its things as a book has them;
    * `Company.Booked`       — the shared collector of a company keeps a book.
-/
import RequestEngine.Proofs.Observation.Keys
import RequestEngine.Proofs.Simulation.Company

namespace RequestEngine

open Tracking

-- ============================================================================
-- Scenes
-- ============================================================================

theorem Scene.Unmoved.report (settings : Settings) (a : Action) (s : Scene) :
    s.Unmoved (a.report settings s) := by
  rw [Action.report]
  cases a.line? <;> cases a.entry? settings <;> exact ⟨rfl, rfl, rfl⟩

namespace Simulation

theorem World.onScene_unmoved (w : World) (f : Flight) (p : Party) (a : Action) :
    w.scene.Unmoved (w.onScene f p (a.report f.settings)).scene := by
  obtain ⟨hhistories, hmetrics, hnow⟩ :=
    Scene.Unmoved.report f.settings a { w.scene with diagnostics.entered := f.span p }
  exact ⟨hhistories, hmetrics, hnow⟩

theorem World.applyEffects_unmoved (w : World) (span : Option Nat) (e : Effects) :
    w.scene.Unmoved (w.applyEffects span e).scene := by
  have hskipped (skipped : List Node) (s : Scene) :
      s.Unmoved (skipped.foldl (fun s n => s.log .debug (Directory.skippedRemark n)) s) := by
    induction skipped generalizing s with
    | nil => exact .refl s
    | cons n rest ih =>
      obtain ⟨hhistories, hmetrics, hnow⟩ := ih (s.log .debug (Directory.skippedRemark n))
      exact ⟨hhistories, hmetrics, hnow⟩
  obtain ⟨hhistories, hmetrics, hnow⟩ := hskipped (e.apply w.directory).2
    { w.scene with diagnostics.entered := span }
  exact ⟨hhistories, hmetrics, hnow⟩

/-- An occasion for a request that waits for no callback records nothing. -/
theorem World.occasion_unmoved (w : World) {f : Flight} (h : f.Undelayed) (a : Activation) :
    w.scene.Unmoved (w.occasion f a).1.scene := by
  refine occasion_cases (P := fun x => w.scene.Unmoved x.1.scene) w f a
    (fun _ => .refl _) (.refl _) (fun _ _ => .refl _) ?_
    (fun p effects _ => w.applyEffects_unmoved _ effects)
    (fun p effects => w.applyEffects_unmoved _ effects)
  exact fun p d hwait => absurd rfl (h _ hwait d)

/-- Before the deeds of an activation are performed, the items of the request and what is recorded
    are as they were. -/
theorem World.unfolding_unmoved (w : World) {f : Flight} (h : f.Undelayed) (a : Activation) :
    (w.unfolding f a).flight.tracking = f.tracking ∧
      w.scene.Unmoved (w.unfolding f a).world.scene := by
  have htracking := (w.occasion_undelayed h a).2
  have hunmoved := w.occasion_unmoved h a
  rw [unfolding]
  dsimp only
  split <;> exact ⟨htracking, hunmoved⟩

end Simulation

-- ============================================================================
-- Other observers
-- ============================================================================

/-- An observer that is prompt and leaves the items and the record of a collector alone. -/
structure Observer.Considerate {α : Type} (C : Collector α) (IsKey : String → Prop) (place : Nat)
    (o : Observer) : Prop extends Simulation.Prompt o where
  items : ∀ n t s, SameUnder IsKey (o.react n t s).1 t
  record : ∀ n t s, (C.records (o.react n t s).2.1)[place]? = (C.records s)[place]?

/-- A recorder is considerate, however its callbacks end, if they are not suspended. -/
theorem Observer.recorder_considerate {α : Type} {C : Collector α} {IsKey : String → Prop}
    (keyed : C.Keyed IsKey) (place : Nat) (name : Option String) {faults : List (Callback × Fault)}
    (undelayed : (recorder name faults).Unpaused) :
    (recorder name faults).Considerate C IsKey place where
  unpaused := undelayed
  keepsTime _ _ _ := rfl
  items _ _ _ := .refl _
  record _ _ _ := congrArg (·[place]?) (keyed.records_congr ⟨rfl, rfl, rfl⟩)

namespace Provided

variable {kind : Provided}

theorem unpaused (kind : Provided) (place : Nat) : (kind.observer place).Unpaused := by
  intro n
  rw [Observer.pauseFor]
  cases kind <;> (split <;> rfl)

theorem keepsTime (kind : Provided) (place : Nat) : (kind.observer place).KeepsTime := by
  cases kind with
  | history => exact Simulation.ObserverChoice.ofEachKind_keepsTime.history place
  | metrics => exact Simulation.ObserverChoice.ofEachKind_keepsTime.metrics place
  | tracer => exact Simulation.ObserverChoice.ofEachKind_keepsTime.tracer _

/-- None of the provided observers is suspended, and none takes any time. -/
theorem prompt (kind : Provided) (place : Nat) : Simulation.Prompt (kind.observer place) :=
  ⟨kind.unpaused place, kind.keepsTime place⟩

/-- Observers of other kinds leave histories alone, wherever they record. -/
theorem considerate_history (other : kind ≠ .history) (place j : Nat) :
    (kind.observer j).Considerate .history History.IsKey place where
  toPrompt := kind.prompt j
  items n t s key own := notify_items_of_ne_history other j n t s key (History.head?_of_isKey own)
  record n t s := by
    cases kind with
    | history => exact absurd rfl other
    | tracer => rfl
    | metrics =>
      simp only [observer, Observer.metrics]
      split
      · rfl
      · split <;> rfl

/-- Observers of other kinds leave metrics alone, wherever they record. -/
theorem considerate_metrics (other : kind ≠ .metrics) (place j : Nat) :
    (kind.observer j).Considerate .metrics Metrics.IsKey place where
  toPrompt := kind.prompt j
  items n t s key own := notify_items_of_ne_metrics other j n t s key (Metrics.head?_of_isKey own)
  record n t s := by
    cases kind with
    | metrics => exact absurd rfl other
    | tracer => rfl
    | history =>
      simp only [observer, Observer.history]
      split
      · rfl
      · split <;> rfl

end Provided

section Deliveries

variable {α : Type} {C : Collector α} {IsKey : String → Prop} {place : Nat}
  {observers : List Observer} {s : Scene} {t : Tracking} {n : Notification}

/-- What is left of a collector's things after others have been notified. -/
structure Spared (C : Collector α) (IsKey : String → Prop) (place : Nat) (t : Tracking) (s : Scene)
    (x : Tracking × Scene) : Prop where
  items : SameUnder IsKey x.1 t
  record : (C.records x.2)[place]? = (C.records s)[place]?
  now : x.2.now = s.now

theorem guard_unmoved (s : Scene) (callback : Callback) (verdict : Verdict) :
    s.Unmoved (s.guard callback verdict) := by
  cases verdict <;> exact ⟨rfl, rfl, rfl⟩

theorem spared_atOnce (keyed : C.Keyed IsKey)
    (considerate : ∀ o ∈ observers, o.Considerate C IsKey place) (n : Notification) (t : Tracking)
    (s : Scene) : Spared C IsKey place t s (Delivery.atOnce n observers t s) := by
  induction observers generalizing t s with
  | nil => exact ⟨.refl _, rfl, rfl⟩
  | cons o rest ih =>
    obtain ⟨hfirst, hrest⟩ := List.forall_mem_cons.mp considerate
    have hguard := guard_unmoved (o.react n t s).2.1 n.callback (o.react n t s).2.2
    obtain ⟨hitems, hrecord, hnow⟩ := ih hrest (o.notify n t s).1 (o.notify n t s).2
    rw [Delivery.atOnce_cons]
    refine ⟨hitems.trans (hfirst.items n t s), hrecord.trans ?_, hnow.trans ?_⟩
    · rw [Observer.notify, keyed.records_congr hguard]
      exact hfirst.record n t s
    · rw [Observer.notify, hguard.now]
      exact hfirst.keepsTime n t s

end Deliveries

namespace Simulation

-- ============================================================================
-- What the shared collector finds
-- ============================================================================

/-- A call as something that is told. -/
def Hearing.telling (h : Hearing) : Telling where
  request := h.request
  notification := h.notification
  time := h.scene.now

/-- A collector finds the items of a request, and its record in a scene, as a book has them. -/
structure Finds {α : Type} (C : Collector α) (IsKey : String → Prop) (place : Nat)
    (b : Collector.Book α) (request : Nat) (t : Tracking) (s : Scene) : Prop where
  items : SameUnder IsKey t (b.tracking request)
  record : (C.records s)[place]? = some b.record

/-- Every call finds what the book has after the calls before it. -/
def FindsEach {α : Type} (C : Collector α) (IsKey : String → Prop) (place : Nat)
    (b : Collector.Book α) (hearings : List Hearing) : Prop :=
  EachAfter (fun before h => Finds C IsKey place (C.hearAll b (before.map Hearing.telling))
    h.request h.tracking h.scene) hearings

section Performing

variable {α : Type} {C : Collector α} {IsKey : String → Prop} {place request : Nat}
  {b : Collector.Book α} {w : World} {f : Flight} {seat : Seat} {t : Tracking} {s s' : Scene}
  {n : Notification}

theorem Finds.unmoved (h : Finds C IsKey place b request t s) (keyed : C.Keyed IsKey)
    (unmoved : s.Unmoved s') : Finds C IsKey place b request t s' :=
  ⟨h.items, by rw [keyed.records_congr unmoved, h.record]⟩

theorem Finds.spared {x : Tracking × Scene} (h : Finds C IsKey place b request t s)
    (spared : Spared C IsKey place t s x) : Finds C IsKey place b request x.1 x.2 :=
  ⟨spared.items.trans h.items, spared.record.trans h.record⟩

/-- The collector adds a notification to its book. -/
theorem Finds.notify (h : Finds C IsKey place b request t s) (lawful : C.Lawful)
    (keyed : C.Keyed IsKey) (n : Notification) :
    Finds C IsKey place (C.hear b ⟨request, n, s.now, {}⟩) request
      ((C.kind.observer place).notify n t s).1 ((C.kind.observer place).notify n t s).2 := by
  obtain ⟨hitems, hrecord⟩ := lawful.notify (n := n) (t := t) h.record
  constructor
  · simp only [hitems, Collector.hear, Function.update_self]
    exact keyed.leaves_congr h.items
  · rw [hrecord, Collector.hear, keyed.next_congr h.items]

variable (lawful : C.Lawful) (keyed : C.Keyed IsKey)
  (considerate : ∀ o ∈ seat.ahead ++ seat.behind, o.Considerate C IsKey place)
  (prompt : Prompt (C.kind.observer place))
  (observers : w.observers = seat.observers (C.kind.observer place))

include lawful keyed considerate

/-- A notification reaches the collector between the other observers of its session. -/
theorem Finds.told (h : Finds C IsKey place b request t s) (n : Notification) :
    let found := Delivery.atOnce n seat.ahead t s
    let left := Delivery.atOnce n (seat.observers (C.kind.observer place)) t s
    Finds C IsKey place b request found.1 found.2 ∧
      Finds C IsKey place (C.hear b ⟨request, n, found.2.now, {}⟩) request left.1 left.2 := by
  have hahead := h.spared (spared_atOnce keyed
    (fun o ho => considerate o (List.mem_append_left _ ho)) n t s)
  refine ⟨hahead, ?_⟩
  rw [Seat.observers, Delivery.atOnce_append, Delivery.atOnce_cons]
  exact (hahead.notify lawful keyed n).spared (spared_atOnce keyed
    (fun o ho => considerate o (List.mem_append_right _ ho)) n _ _)

include prompt observers

/-- An action leaves the collector with its book, to which a notification has been added if it
    delivers one. -/
theorem Finds.perform (h : Finds C IsKey place b request f.tracking w.scene) (d : Deed) :
    FindsEach C IsKey place b (Stage.finds w f seat request d) ∧
      Finds C IsKey place
        (C.hearAll b ((Stage.finds w f seat request d).map Hearing.telling)) request
        (w.perform f d).2.tracking (w.perform f d).1.scene := by
  have hreported := h.unmoved keyed (w.onScene_unmoved f d.execution d.action)
  have hunpaused : ∀ o ∈ w.observers, o.Unpaused := by
    rw [observers]
    intro o ho
    rcases List.mem_append.mp ho with ho | ho
    · exact (considerate o (List.mem_append_left _ ho)).unpaused
    · rcases List.mem_cons.mp ho with rfl | ho
      · exact prompt.unpaused
      · exact (considerate o (List.mem_append_right _ ho)).unpaused
  have hobservers : (w.onScene f d.execution (d.action.report f.settings)).observers =
      w.observers := rfl
  rw [Stage.finds]
  unfold World.perform
  dsimp only
  generalize w.onScene f d.execution (d.action.report f.settings) = v at hreported hobservers ⊢
  cases d.action with
  | notify n =>
    have hentered :
        v.scene.Unmoved { v.scene with diagnostics.entered := f.span d.execution } :=
      ⟨rfl, rfl, rfl⟩
    obtain ⟨hfound, hleft⟩ :=
      Finds.told lawful keyed considerate (hreported.unmoved keyed hentered) n
    refine ⟨EachAfter.nil.concat hfound, ?_⟩
    dsimp only
    rw [World.deliver_unpaused (hobservers ▸ hunpaused), hobservers, observers]
    dsimp only
    refine ⟨?_, Eq.trans ?_ hleft.record⟩
    · split <;> exact hleft.items
    · exact congrArg (·[place]?) (keyed.records_congr ⟨rfl, rfl, rfl⟩)
  | openExecution | askConnection | acquired | send | release =>
    exact ⟨.nil, hreported.unmoved keyed ⟨rfl, rfl, rfl⟩⟩
  | _ => exact ⟨.nil, hreported⟩

/-- The same holds of several actions, of which only the request itself is affected. -/
theorem Finds.performAll (h : Finds C IsKey place b request f.tracking w.scene)
    (deeds : List Deed) :
    FindsEach C IsKey place b (Stage.hears w f seat request deeds) ∧
      Finds C IsKey place
        (C.hearAll b ((Stage.hears w f seat request deeds).map Hearing.telling)) request
        (w.performAll f deeds).2.tracking (w.performAll f deeds).1.scene := by
  induction deeds generalizing w f b with
  | nil => exact ⟨.nil, h⟩
  | cons d rest ih =>
    obtain ⟨hfirst, hleft⟩ := Finds.perform lawful keyed considerate prompt observers h d
    have hobservers := (World.perform_spec (w := w) (f := f) (d := d) rfl).1
    obtain ⟨hrest, hend⟩ := ih (hobservers.trans observers) hleft
    rw [World.performAll_cons, Stage.hears, List.map_append, Collector.hearAll, List.foldl_append]
    refine ⟨hfirst.append ?_, hend⟩
    intro before call after hsplit
    rw [List.map_append, Collector.hearAll, List.foldl_append]
    exact hrest before call after hsplit

end Performing

-- ============================================================================
-- Companies
-- ============================================================================

theorem hears_request (w : World) (f : Flight) (seat : Seat) (request : Nat) (deeds : List Deed) :
    ∀ h ∈ Stage.hears w f seat request deeds, h.request = request := by
  induction deeds generalizing w f with
  | nil => exact fun _ hmem => absurd hmem List.not_mem_nil
  | cons d rest ih =>
    refine List.forall_mem_append.mpr ⟨?_, ih _ _⟩
    rw [Stage.finds]
    cases d.action with
    | notify n => exact List.forall_mem_singleton.mpr rfl
    | _ => exact fun _ hmem => absurd hmem List.not_mem_nil

namespace Company

variable {α : Type} {C : Collector α} {IsKey : String → Prop} {place : Nat} {b : Collector.Book α}
  {seats : Nat → Seat} {x x' : Company} {k i : Nat} {f : Flight} {stage : Stage}
  {flights' : List (Nat × Flight)}
  {may : Request.State → Request.Event → Prop}

/-- The calls of the shared observer as something that is told. -/
def tellings (x : Company) : List Telling :=
  x.hearings.map Hearing.telling

/-- The shared collector of a company keeps a book: its record is that of the book, and the items
    of all requests are, too; and so it was for each of its calls. -/
structure Booked (C : Collector α) (IsKey : String → Prop) (place : Nat) (b : Collector.Book α)
    (x : Company) : Prop where
  record : (C.records x.scene)[place]? = some (C.hearAll b x.tellings).record
  items : ∀ (i k : Nat) (f : Flight), x.flights[i]? = some (k, f) →
    SameUnder IsKey f.tracking ((C.hearAll b x.tellings).tracking i)
  unstarted : ∀ i, x.flights.length ≤ i → ∀ key, IsKey key →
    ((C.hearAll b x.tellings).tracking i).item? key = none
  found : FindsEach C IsKey place b x.hearings

section Keeping

variable (lawful : C.Lawful) (keyed : C.Keyed IsKey)
  (considerate : ∀ k, ∀ o ∈ (seats k).ahead ++ (seats k).behind, o.Considerate C IsKey place)
  (prompt : Prompt (C.kind.observer place))

include lawful keyed considerate prompt

/-- The deeds of a stage are added to the book, and the request is put where it belongs, with the
    items that it has then. -/
theorem Booked.note (h : x.Booked C IsKey place b)
    (found : Finds C IsKey place (C.hearAll b x.tellings) i stage.flight.tracking
      stage.world.scene)
    (observers : stage.world.observers = (seats k).observers (C.kind.observer place))
    (puts : Puts x.flights flights' i (k, f)) (items : f.tracking = stage.played.2.tracking) :
    Booked C IsKey place b { x.note seats k i stage with flights := flights' } := by
  obtain ⟨hfound, hleft⟩ :=
    found.performAll lawful keyed (considerate k) prompt observers stage.deeds
  have htellings : C.hearAll b (x.note seats k i stage).tellings =
      C.hearAll (C.hearAll b x.tellings)
        ((Stage.hears stage.world stage.flight (seats k) i stage.deeds).map Hearing.telling) := by
    rw [tellings, Company.note, List.map_append, Collector.hearAll, List.foldl_append]
    rfl
  -- what is told of one request leaves the items of the others as they were
  have hothers (j : Nat) (hj : j ≠ i) : (C.hearAll b (x.note seats k i stage).tellings).tracking j =
      (C.hearAll b x.tellings).tracking j := by
    rw [htellings]
    refine C.hearAll_other hj _ _ ?_
    rintro c hc
    obtain ⟨call, hcall, rfl⟩ := List.mem_map.mp hc
    exact hears_request _ _ _ _ _ call hcall
  rw [← htellings] at hleft
  constructor
  case record => exact hleft.record
  case items =>
    intro j k' f' hf'
    rcases puts.cases j _ hf' with ⟨hf', hne⟩ | ⟨rfl, heq⟩
    · exact (hothers j hne).symm ▸ h.items j k' f' hf'
    · cases heq
      exact items ▸ hleft.items
  case unstarted =>
    intro j hj key own
    have hgrows := puts.grows
    have hwithin := puts.within
    change flights'.length ≤ j at hj
    change ((C.hearAll b (x.note seats k i stage).tellings).tracking j).item? key = none
    rw [hothers j (by omega)]
    exact h.unstarted j (by omega) key own
  case found =>
    refine h.found.append ?_
    intro before call after hsplit
    rw [List.map_append, Collector.hearAll, List.foldl_append]
    exact hfound before call after hsplit

theorem Booked.comes (h : x.Booked C IsKey place b) (kept : x.Kept may)
    (comes : Comes (C.kind.observer place) seats may x x') : x'.Booked C IsKey place b := by
  cases comes with
  | around scene flights taken hearings =>
    obtain ⟨now, scene⟩ := scene
    have htellings : x'.tellings = x.tellings := by rw [tellings, hearings, tellings]
    have hrecords : C.records x'.scene = C.records x.scene := by
      rw [scene]
      exact lawful.records_eq x.scene now x.scene.diagnostics
    constructor
    · rw [hrecords, htellings]
      exact h.record
    · rw [flights, htellings]
      exact h.items
    · rw [flights, htellings]
      exact h.unstarted
    · rw [hearings]
      exact h.found
  | @begins k w statement patience scene observers =>
    have hitems : SameUnder IsKey (w.opening statement patience).flight.tracking
        ((C.hearAll b x.tellings).tracking x.flights.length) := by
      intro key own
      rw [h.unstarted _ (Nat.le_refl _) key own]
      rfl
    have hrecord : (C.records (w.opening statement patience).world.scene)[place]? =
        some (C.hearAll b x.tellings).record := by
      rw [← h.record, ← scene]
      exact congrArg (·[place]?) (keyed.records_congr ⟨rfl, rfl, rfl⟩)
    exact h.note lawful keyed considerate prompt ⟨hitems, hrecord⟩ observers (puts_concat ..) rfl
  | @activates k i w f a flight scene observers =>
    have hundelayed := kept.undelayed i k f flight
    have hproper := w.unfolding_proper hundelayed a
    obtain ⟨htracking, hunmoved⟩ := w.unfolding_unmoved hundelayed a
    have hbefore : Finds C IsKey place (C.hearAll b x.tellings) i f.tracking w.scene :=
      ⟨h.items i k f flight, scene ▸ h.record⟩
    exact h.note lawful keyed considerate prompt
      (htracking.symm ▸ hbefore.unmoved keyed hunmoved) (hproper.observers.trans observers)
      (puts_set flight _) (w.activate_played f a).2.1

/-- The shared collector keeps a book, whatever happens to the company. -/
theorem booked_after (scene : Scene) (worlds : List World)
    (record : (C.records scene)[place]? = some b.record)
    (empty : ∀ i key, IsKey key → (b.tracking i).item? key = none) {affairs : List Affair}
    (admits : EachAfter (fun before affair =>
      (after (C.kind.observer place) seats { scene, worlds } before).Admits
        (C.kind.observer place) seats may affair) affairs) :
    let x := after (C.kind.observer place) seats { scene, worlds } affairs
    x.Kept may ∧ x.Booked C IsKey place b := by
  have hprompt : ∀ k, ∀ o ∈ (seats k).observers (C.kind.observer place), Prompt o := by
    intro k o ho
    rcases List.mem_append.mp ho with ho | ho
    · exact (considerate k o (List.mem_append_left _ ho)).toPrompt
    · rcases List.mem_cons.mp ho with rfl | ho
      · exact prompt
      · exact (considerate k o (List.mem_append_right _ ho)).toPrompt
  have hstart : Company.Kept may { scene, worlds } ∧
      Company.Booked C IsKey place b { scene, worlds } := by
    refine ⟨⟨?_, ?_, fun _ _ => rfl, rfl⟩, ⟨record, ?_, fun i _ => empty i, .nil⟩⟩
    all_goals
      intro i k f hf
      exact absurd hf (by simp)
  exact after_induction (P := fun x => x.Kept may ∧ x.Booked C IsKey place b) _ _ may hstart
    (fun x x' h comes =>
      ⟨h.1.comes hprompt comes, h.2.comes lawful keyed considerate prompt h.1 comes⟩) admits

end Keeping

end Company

end Simulation

end RequestEngine
