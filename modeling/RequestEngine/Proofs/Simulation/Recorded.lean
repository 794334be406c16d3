/-
  RequestEngine.Proofs.Simulation.Recorded

  What a history collector shows of the requests of several sessions.  The
  sessions run on their own, their requests beside each other, with retries,
  speculative executions, timeouts and callers that lose interest; other observers
  are prompt and leave the collector's things alone.  Its callbacks never fail; the
  results of attempts stand beside their own starts, and what has no result is
  pending or was cancelled.

    * `Hearing.event?`, `Company.account` — what is recorded, and at which calls;
    * `Company.Recorded`        — what a history shows;
    * `Company.recorded_after`  — whatever happens, this is what it shows.
-/
import RequestEngine.Proofs.Observation.Attribution
import RequestEngine.Proofs.Simulation.Keeping

namespace RequestEngine

namespace History

variable {h : History} {t : Tracking} {n : Notification} {event : HistoryEvent}

/-- What is recorded is not refused. -/
theorem record_of_recorded (now : Instant) (recorded : h.recorded? t n = some event) :
    h.record t now n = (h.after t now n, h.leaves t n, none) := by
  have haccepted : refusal? t n = none :=
    refusal?_eq_none_iff.mpr (Option.isSome_iff_exists.mpr ⟨event, recorded⟩)
  rw [record_spec, haccepted]

end History

namespace Simulation

-- ============================================================================
-- Books of histories
-- ============================================================================

/-- A book of a history is a ledger. -/
theorem hearAll_history (l : Ledger) (tellings : List Telling) :
    Collector.history.hearAll ⟨l.history, l.tracking⟩ tellings =
      ⟨(l.undergoAll (tellings.map .told)).history,
        (l.undergoAll (tellings.map .told)).tracking⟩ := by
  induction tellings generalizing l with
  | nil => rfl
  | cons c rest ih =>
    have hstep : Collector.history.hear ⟨l.history, l.tracking⟩ c =
        ⟨(l.hear c).history, (l.hear c).tracking⟩ := by
      rw [Ledger.hear_eq]
      rfl
    rw [Collector.hearAll, List.foldl_cons, hstep]
    exact ih (l.hear c)

/-- The event that the history at a place records as it is called. -/
def Hearing.event? (place : Nat) (h : Hearing) : Option HistoryEvent :=
  h.scene.histories[place]?.bind fun history => history.recorded? h.tracking h.notification

/-- What is recorded at several calls. -/
def accountOf (place : Nat) (hearings : List Hearing) : List (Hearing × HistoryEvent) :=
  hearings.filterMap fun h => (h.event? place).map (h, ·)

section Accounts

variable {place : Nat} {hearings : List Hearing} {h : Hearing} {event : HistoryEvent}
  {l : Ledger}

theorem Finds.event?_eq
    (finds : Finds .history History.IsKey place ⟨l.history, l.tracking⟩ h.request h.tracking
      h.scene) : h.event? place = l.noted? h.telling := by
  have hrecord : h.scene.histories[place]? = some l.history := finds.record
  rw [Hearing.event?, hrecord, Option.bind_some, History.recorded?_keyed finds.items]
  rfl

/-- What the calls record is what a ledger notes. -/
theorem account_eq (found : FindsEach .history History.IsKey place ⟨l.history, l.tracking⟩
    hearings) : (accountOf place hearings).map (fun y => (y.1.telling, y.2)) =
      l.account ((hearings.map Hearing.telling).map .told) := by
  induction hearings using List.reverseRecOn with
  | nil => rfl
  | append_singleton hearings h ih =>
    obtain ⟨hfound, hlast⟩ := EachAfter.concat_iff.mp found
    rw [hearAll_history] at hlast
    rw [accountOf, List.filterMap_append, List.map_append, ← accountOf, ih hfound, List.map_append,
      List.map_append, List.map_singleton, List.map_singleton, Ledger.account_told]
    refine congrArg (l.account _ ++ ·) ?_
    rw [List.filterMap_cons, hlast.event?_eq]
    cases Ledger.noted? _ _ <;> rfl

end Accounts

-- ============================================================================
-- What requests tell the collector
-- ============================================================================

namespace Company

variable {x : Company} {i : Nat} {may : Request.State → Request.Event → Prop}

/-- Whatever a request did, it did in a run. -/
theorem Kept.idle_or_run (kept : x.Kept may) (i : Nat) : x.deedsOf i = [] ∨
    ∃ k f ts, x.flights[i]? = some (k, f) ∧ Request.Run f.settings ts f.state ∧
      Request.log ts = x.deedsOf i := by
  cases hflight : x.flights[i]? with
  | none => exact .inl (kept.unstarted i (List.getElem?_eq_none_iff.mp hflight))
  | some flight =>
    obtain ⟨ts, run, hlog, -⟩ := kept.run i flight.1 flight.2 hflight
    exact .inr ⟨flight.1, flight.2, ts, rfl, run, hlog⟩

/-- What the collector hears of a request are the notifications among the deeds of the request. -/
theorem Kept.heard_eq (kept : x.Kept may) (i : Nat) :
    Incident.heard i (x.tellings.map .told) = Deed.notices (x.deedsOf i) := by
  have hcalled := congrArg
    (List.filterMap fun c => if c.1 = i then some c.2.1 else none) kept.called
  rw [calls, notices, List.filterMap_map, List.filterMap_filterMap] at hcalled
  rw [Incident.heard, tellings, List.filterMap_map, List.filterMap_map, deedsOf, Deed.notices,
    Deed.seen, List.filterMap_map, List.filterMap_filter]
  refine Eq.trans hcalled (List.filterMap_congr fun t _ => ?_)
  by_cases hi : t.request = i <;> cases hn : t.deed.action.notice? <;> simp [hi, hn]

theorem Kept.coherent (kept : x.Kept may) (i : Nat) :
    Coherent (Incident.heard i (x.tellings.map .told)) := by
  rw [kept.heard_eq]
  rcases kept.idle_or_run i with hidle | ⟨_, _, _, -, run, hlog⟩
  · rw [hidle]
    exact .nil
  · exact hlog ▸ run.coherent

theorem Kept.fromRequests (kept : x.Kept may) :
    Incident.FromRequests (x.tellings.map .told) := by
  intro i
  rw [kept.heard_eq]
  rcases kept.idle_or_run i with hidle | ⟨_, _, ts, -, run, hlog⟩
  · rw [hidle]
    exact ⟨_, _, _, Request.sampleRun, List.nil_subperm⟩
  · exact ⟨_, ts, _, run, hlog ▸ (List.Perm.refl _).subperm⟩

/-- Only requests that were started tell anything. -/
theorem Kept.flight_of_heard (kept : x.Kept may) {n : Notification}
    (heard : n ∈ Incident.heard i (x.tellings.map .told)) :
    ∃ k f ts, x.flights[i]? = some (k, f) ∧ Request.Run f.settings ts f.state ∧
      Request.log ts = x.deedsOf i := by
  refine (kept.idle_or_run i).resolve_left fun hidle => ?_
  rw [kept.heard_eq, hidle] at heard
  exact absurd heard List.not_mem_nil

end Company

-- ============================================================================
-- What a history shows
-- ============================================================================

/-- A call of the history at a place does not fail, and adds one event to the history's log. -/
structure Hearing.Adds (place : Nat) (h : Hearing) (event : HistoryEvent) : Prop where
  done : ((Observer.history place).react h.notification h.tracking h.scene).2.2 = .done
  log : ∃ before after : History, h.scene.histories[place]? = some before ∧
    ((Observer.history place).react h.notification h.tracking h.scene).2.1.histories[place]? =
      some after ∧ after.events = before.events ++ [(event, h.scene.now)]

theorem Hearing.adds_of_event? {place : Nat} {h : Hearing} {event : HistoryEvent}
    (recorded : h.event? place = some event) : h.Adds place event := by
  obtain ⟨before, hbefore, hrecorded⟩ := Option.bind_eq_some_iff.mp recorded
  have hrecord := History.record_of_recorded h.scene.now hrecorded
  obtain ⟨hlt, -⟩ := List.getElem?_eq_some_iff.mp hbefore
  constructor
  · simp only [Observer.history, hbefore, hrecord]
  · refine ⟨before, before.after h.tracking h.scene.now h.notification, hbefore, ?_, ?_⟩
    · simp only [Observer.history, hbefore, hrecord]
      exact List.getElem?_set_self hlt
    · rw [History.after_events, hrecorded]
      rfl

namespace Company

/-- What is recorded at the calls of the history at a place. -/
def account (place : Nat) (x : Company) : List (Hearing × HistoryEvent) :=
  accountOf place x.hearings

/-- A call at which the start of an attempt was recorded, which was given a number. -/
structure Gives (y : Hearing × HistoryEvent) (request : Nat) (host : HostInfo) (a : AttemptId) :
    Prop where
  request : y.1.request = request
  started : y.1.notification = .nodeStarted host
  names : y.2.attempt? = some a

/-- What the history at a place shows. -/
structure Recorded (place : Nat) (x : Company) : Prop where
  /-- No call fails, and each adds an event. -/
  accepted : ∀ h ∈ x.hearings, ∃ event, (h, event) ∈ x.account place ∧ h.Adds place event
  /-- The log consists of these events, in order, with the times of the calls. -/
  log : ∃ history, x.scene.histories[place]? = some history ∧
    history.events = (x.account place).map fun y => (y.2, y.1.scene.now)
  /-- The result of an attempt carries the number that was given to this attempt before. -/
  own : EachAfter (fun before y => ∀ a, y.2.result? = some (.attempt a) →
    ∃ host, y.1.notification.report? = some host ∧
      ∃ z ∈ before, Gives z y.1.request host a) (x.account place)
  /-- No attempt and no request has two results. -/
  once : ((x.account place).filterMap fun y => y.2.result?).Nodup
  /-- The attempts without a result are those that are pending and those that were cancelled. -/
  unresolved : ∀ y ∈ x.account place, ∀ i host a, Gives y i host a →
    ∃ k f, x.flights[i]? = some (k, f) ∧
      ((∀ z ∈ x.account place, z.2.result? ≠ some (.attempt a)) ↔
        host ∈ f.state.pending ∨ Cancelled (x.deedsOf i) host)

section Recording

variable {place i : Nat} {l : Ledger} {x : Company}
  {may : Request.State → Request.Event → Prop}

variable (noted : (x.account place).map (fun y => (y.1.telling, y.2)) =
    l.account (x.tellings.map .told))

include noted

theorem mem_account {y : Hearing × HistoryEvent} (mem : y ∈ x.account place) :
    (y.1.telling, y.2) ∈ l.account (x.tellings.map .told) :=
  noted ▸ List.mem_map_of_mem (f := fun y => (y.1.telling, y.2)) mem

/-- If a ledger notes something at each call, every call adds an event. -/
theorem account_complete (attributed : l.Attributed (x.tellings.map .told)) :
    ∀ h ∈ x.hearings, ∃ event, (h, event) ∈ x.account place ∧ h.Adds place event := by
  -- there are as many events as calls, so that no call is without one
  have hlength : (x.account place).length = x.hearings.length := by
    have hcomplete := congrArg List.length attributed.complete
    rw [← noted, List.length_map, List.length_map, Ledger.tellings_told] at hcomplete
    exact hcomplete.trans (List.length_map _)
  intro h hh
  have hsome := List.filterMap_length_eq_length.mp hlength h hh
  obtain ⟨event, hevent⟩ := Option.isSome_iff_exists.mp (Option.isSome_map ▸ hsome)
  exact ⟨event, List.mem_filterMap.mpr ⟨h, hh, by rw [hevent]; rfl⟩, h.adds_of_event? hevent⟩

/-- If a ledger attributes the results of attempts, the calls do. -/
theorem account_own (books : l.Books (x.tellings.map .told))
    (attributed : l.Attributed (x.tellings.map .told)) :
    EachAfter (fun before y => ∀ a, y.2.result? = some (.attempt a) →
      ∃ host, y.1.notification.report? = some host ∧
        ∃ z ∈ before, Gives z y.1.request host a) (x.account place) := by
  intro before y after hsplit a hresult
  obtain ⟨-, h', t', hrecorded⟩ := books.recorded _
    (mem_account noted (hsplit ▸ List.mem_append_right _ List.mem_cons_self))
  obtain ⟨-, host, hreport⟩ := History.report_of_result hrecorded hresult
  refine ⟨host, hreport, ?_⟩
  obtain ⟨a', hresult', z, hz, hrequest, hstarted, hnames⟩ :=
    attributed.own (before.map fun y => (y.1.telling, y.2)) (y.1.telling, y.2)
      (after.map fun y => (y.1.telling, y.2))
      (by rw [← noted, hsplit, List.map_append, List.map_cons]) host hreport
  obtain rfl : a = a' :=
    Subject.attempt.inj (Option.some.inj (hresult.symm.trans hresult'))
  obtain ⟨call, hcall, rfl⟩ := List.mem_map.mp hz
  exact ⟨call, hcall, hrequest, hstarted, hnames⟩

/-- An attempt whose start was recorded has no result exactly if it is pending or was cancelled. -/
theorem account_unresolved (kept : x.Kept may) (books : l.Books (x.tellings.map .told))
    (attributed : l.Attributed (x.tellings.map .told)) {y : Hearing × HistoryEvent}
    (mem : y ∈ x.account place) {host : HostInfo} {a : AttemptId} (gives : Gives y i host a) :
    ∃ k f, x.flights[i]? = some (k, f) ∧
      ((∀ z ∈ x.account place, z.2.result? ≠ some (.attempt a)) ↔
        host ∈ f.state.pending ∨ Cancelled (x.deedsOf i) host) := by
  obtain ⟨rfl, hstarted, hnames⟩ := gives
  have hmem := mem_account noted mem
  have hheard : y.1.notification ∈ Incident.heard y.1.request (x.tellings.map .told) :=
    (books.recorded _ hmem).1
  obtain ⟨k, f, ts, hflight, run, hlog⟩ := kept.flight_of_heard hheard
  refine ⟨k, f, hflight, ?_⟩
  have hresolved : (∃ z ∈ l.account (x.tellings.map .told),
      z.2.result? = some (.attempt a)) ↔
        Reported (Incident.heard y.1.request (x.tellings.map .told)) host :=
    attributed.resolved_iff books (kept.coherent _) hmem hstarted hnames
  have htold : .nodeStarted host ∈ Deed.notices (Request.log ts) := by
    rw [hlog, ← kept.heard_eq, ← hstarted]
    exact hheard
  rw [← hlog, ← run.unreported_iff htold, hlog, ← kept.heard_eq, ← hresolved, ← noted]
  constructor
  · rintro hnone ⟨z, hz, hresult⟩
    obtain ⟨call, hcall, rfl⟩ := List.mem_map.mp hz
    exact hnone call hcall hresult
  · exact fun hnone z hz hresult => hnone ⟨_, List.mem_map_of_mem hz, hresult⟩

omit noted

/-- A history that every call finds as a ledger has it shows what the ledger notes. -/
theorem Recorded.of_books (kept : x.Kept may)
    (booked : x.Booked .history History.IsKey place ⟨l.history, l.tracking⟩)
    (books : l.Books (x.tellings.map .told)) (attributed : l.Attributed (x.tellings.map .told))
    (empty : l.history.events = []) : x.Recorded place := by
  have hnoted : (x.account place).map (fun y => (y.1.telling, y.2)) =
      l.account (x.tellings.map .told) := account_eq booked.found
  constructor
  case accepted => exact account_complete hnoted attributed
  case log =>
    have hrecord := booked.record
    rw [hearAll_history] at hrecord
    refine ⟨_, hrecord, ?_⟩
    rw [Ledger.events_of_told, empty, List.nil_append, Ledger.written, ← hnoted, List.map_map]
    rfl
  case own => exact account_own hnoted books attributed
  case once =>
    have hnodup := books.results_nodup
    rwa [← hnoted, List.filterMap_map] at hnodup
  case unresolved =>
    exact fun y hy i host a gives => account_unresolved hnoted kept books attributed hy gives

end Recording

/-- Whatever happens to the requests of sessions that share a history, whose other observers are
    prompt and leave it alone: its callbacks do not fail, and it shows the results of attempts
    and requests as their own. -/
theorem recorded_after (place : Nat) (seats : Nat → Seat) (scene : Scene) (worlds : List World)
    (fresh : scene.histories[place]? = some {})
    (considerate : ∀ k, ∀ o ∈ (seats k).ahead ++ (seats k).behind,
      o.Considerate .history History.IsKey place) (affairs : List Affair) :
    (after (.history place) seats { scene, worlds } affairs).Recorded place := by
  let l := Ledger.start fun _ => none
  obtain ⟨kept, booked⟩ := booked_after (b := ⟨l.history, l.tracking⟩) Collector.history_lawful
    Collector.history_keyed considerate (Provided.history.prompt place) scene worlds fresh
    (fun _ _ _ => rfl) (.of_forall fun _ affair _ => admits_anything _ _ _ affair)
  refine Recorded.of_books (l := l) kept booked ?_ ?_ rfl
  · exact Ledger.books _ _ kept.fromRequests.orderly
  · exact Ledger.attributed _ _ kept.coherent

/-- Two sessions of one node each, beside whose history there are a recorder that panics, metrics
    and a tracer. Both execute a statement: the attempt of the second one starts first, that of
    the first one succeeds, and the second one is dropped. -/
def pairOfRequests : Company :=
  let session : World :=
    { directory := (Directory.update {} [⟨Request.otherNode.host, default, none, none⟩]).1 }
  let statement : Statement := { contents := "SELECT now() FROM system.local" }
  let goesOn (request : Nat) (p : Party) := Affair.activates request (.waitEnds p)
  after (.history 0)
    (fun _ => ⟨[.recorder none [(.nodeStart, ⟨⟨0⟩, .panicking⟩)]], [.metrics 0, .tracer true]⟩)
    { scene := { histories := [{}], metrics := [{}] }, worlds := [session, session] }
    [.begins 0 statement (.ofMillis 1000), .begins 1 statement (.ofMillis 1000),
      goesOn 0 none, goesOn 1 none, goesOn 1 (some 0), goesOn 0 (some 0), goesOn 0 (some 0),
      goesOn 0 (some 0), goesOn 0 (some 0), goesOn 0 (some 0), .activates 1 (.event .drop)]

/-- The result of the attempt that started last is its own, and the other one has none. -/
theorem recorded_after_of_drop : pairOfRequests.Recorded 0 ∧
    (pairOfRequests.account 0).filterMap (fun y => y.2.result?) =
      [.attempt ⟨1⟩, .request ⟨0⟩, .request ⟨1⟩] := by
  refine ⟨recorded_after 0 _ _ _ rfl ?_ _, by decide +kernel⟩
  intro _
  refine List.forall_mem_cons.mpr ⟨?_, List.forall_mem_cons.mpr ⟨?_,
    List.forall_mem_singleton.mpr ?_⟩⟩
  · refine Observer.recorder_considerate Collector.history_keyed 0 none fun n => ?_
    cases n <;> rfl
  · exact Provided.metrics.considerate_history (by decide) 0 0
  · exact (Provided.tracer true).considerate_history (by decide) 0 0

end Company

end Simulation

end RequestEngine
