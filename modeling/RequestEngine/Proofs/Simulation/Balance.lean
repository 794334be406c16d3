/-
  RequestEngine.Proofs.Simulation.Balance

  The accounts of a session's metrics.  Whenever nothing is being told, what the
  counters say of requests and attempts adds up: requests are in flight or have
  ended in one of three ways, each of which has its counter or is known to the
  callers, and a latency was stored for each request that succeeded quickly enough.

    * `countP_eq_zipIdx`       — what is told is counted request by request;
    * `Kept.stores_winner`     — a latency is stored for an attempt that won quickly;
    * `Company.number`         — the number of requests with some property;
    * `Company.Balanced`       — metrics whose accounts are right;
    * `Company.balanced_after` — whatever happens, they are right at rest.
-/
import RequestEngine.Proofs.Observation.Counting
import RequestEngine.Proofs.Request.Rest
import RequestEngine.Proofs.Simulation.Recorded

namespace RequestEngine

-- ============================================================================
-- Counting request by request
-- ============================================================================

section Counting

variable {α β : Type}

/-- If each entry belongs to a member of a list, and those that belong to it show whether the member
    has a property, then as many entries are counted as members have it. -/
theorem countP_eq_zipIdx (entries : List α) (counts : α → Bool) (owner : α → Nat)
    (members : List β) (property : Nat → β → Bool)
    (own : ∀ i b, members[i]? = some b → (entries.filter (owner · = i)).countP counts =
      if property i b then 1 else 0)
    (owned : ∀ a ∈ entries, owner a < members.length) :
    entries.countP counts = members.zipIdx.countP fun y => property y.2 y.1 := by
  induction members using List.reverseRecOn generalizing entries with
  | nil =>
    cases entries with
    | nil => rfl
    | cons a rest => exact absurd (owned a List.mem_cons_self) (Nat.not_lt_zero _)
  | append_singleton members b ih =>
    -- the entries of the last member are counted apart from those of the others
    have hlast := own members.length b (List.getElem?_concat_length ..)
    have hothers := ih (entries.filter fun a => !decide (owner a = members.length)) ?_ ?_
    · rw [List.countP_eq_countP_filter_add entries counts (owner · = members.length), hlast,
        hothers, List.zipIdx_append, List.countP_append]
      simp [Nat.add_comm]
    · intro i b' hi
      have hlt := (List.getElem?_eq_some_iff.mp hi).1
      rw [← own i b' (by rw [List.getElem?_append_left hlt, hi]), List.filter_filter]
      refine congrArg _ (List.filter_congr fun a _ => ?_)
      by_cases ha : owner a = i
      · simp [ha, Nat.ne_of_lt hlt]
      · simp [ha]
    · intro a ha
      obtain ⟨hmem, hother⟩ := List.mem_filter.mp ha
      have hlt := owned a hmem
      simp only [List.length_append, List.length_singleton] at hlt
      simp only [Bool.not_eq_true', decide_eq_false_iff_not] at hother
      omega

/-- Entries of two lists are equally many if those that belong to the same owner are. -/
theorem countP_eq_of_owner (entries : List α) (others : List β) (counts : α → Bool)
    (counts' : β → Bool) (owner : α → Nat) (owner' : β → Nat)
    (own : ∀ i, (entries.filter (owner · = i)).countP counts =
      (others.filter (owner' · = i)).countP counts') :
    entries.countP counts = others.countP counts' := by
  -- each owner occurs equally often among the owners of what is counted
  have hperm : ((entries.filter counts).map owner).Perm ((others.filter counts').map owner') := by
    refine List.perm_iff_count.mpr fun i => ?_
    have hown := own i
    rw [List.countP_filter, List.countP_filter] at hown
    rw [List.count_eq_countP, List.countP_map, List.countP_filter, List.count_eq_countP,
      List.countP_map, List.countP_filter]
    refine Eq.trans (List.countP_congr fun a _ => ?_) (hown.trans (List.countP_congr fun b _ => ?_))
    · simp [and_comm]
    · simp [and_comm]
  have hlength := hperm.length_eq
  rwa [List.length_map, List.length_map, ← List.countP_eq_length_filter,
    ← List.countP_eq_length_filter] at hlength

/-- If only one entry is of a kind, no other entry is counted that counts entries of this kind. -/
theorem countP_of_sole {entries : List α} {kind counts : α → Bool} {a : α}
    (sole : entries.filter kind = [a]) (only : ∀ b, counts b = true → kind b = true) :
    entries.countP counts = if counts a then 1 else 0 := by
  have hkind : entries.countP counts = (entries.filter kind).countP counts := by
    rw [List.countP_filter]
    refine List.countP_congr fun b _ => ?_
    simpa using only b
  rw [hkind, sole, List.countP_singleton]

end Counting

-- ============================================================================
-- What a request at rest has told
-- ============================================================================

/-- Whether a notification reports the success of an attempt. -/
def Notification.isSuccess : Notification → Bool
  | .nodeSucceeded _ => true
  | _ => false

/-- Whether an error is that the time of the request was up. -/
def ExecutionError.isTimeout : ExecutionError → Bool
  | .requestTimeout _ => true
  | _ => false

namespace Counter

variable {n : Notification}

/-- Some counters count ends of requests only. -/
theorem isFinal_of_counts {k : Counter} (ends : k = errors ∨ k = requestTimeouts ∨ k = cancelled)
    (counted : k.counts n = true) : n.isFinal = true := by
  rcases ends with rfl | rfl | rfl <;> cases n <;> first | rfl | cases counted

theorem errors_of_requestTimeouts (counted : requestTimeouts.counts n = true) :
    errors.counts n = true := by
  cases n <;> first | rfl | cases counted

theorem attemptErrors_of_retries (counted : retries.counts n = true) :
    attemptErrors.counts n = true := by
  cases n <;> first | rfl | cases counted

end Counter

namespace Deed

/-- Deeds that show something of a notification are counted among the notifications. -/
theorem length_seen {α : Type} {f : Action → Option α} {counts : Notification → Bool}
    (shown : ∀ a : Action, (f a).isSome = (a.notice?.map counts).getD false) (log : List Deed) :
    (seen f log).length = (notices log).countP counts := by
  rw [notices, seen, seen, List.length_filterMap_eq_countP, List.countP_filterMap]
  exact List.countP_congr fun d _ => by rw [shown d.action]

theorem length_successes (log : List Deed) :
    (successes log).length = (notices log).countP Notification.isSuccess := by
  refine length_seen (fun a => ?_) log
  cases a with
  | notify n => cases n <;> rfl
  | _ => rfl

theorem length_announcements (log : List Deed) :
    (announcements log).length = (notices log).countP Counter.speculative.counts := by
  refine length_seen (fun a => ?_) log
  cases a with
  | notify n => cases n <;> rfl
  | _ => rfl

end Deed

namespace Request

/-- The error that a request has ended with. -/
def State.error? : State → Option ExecutionError
  | .finished (.error error) => some error
  | _ => none

/-- Whether a request was dropped. -/
def State.isDropped : State → Bool
  | .dropped => true
  | _ => false

/-- What the counters of ends say of the end of a request. -/
theorem State.any_end? (σ : State) :
    σ.end?.any Counter.errors.counts = σ.error?.isSome ∧
      σ.end?.any Counter.requestTimeouts.counts = σ.error?.any ExecutionError.isTimeout ∧
        σ.end?.any Counter.cancelled.counts = σ.isDropped := by
  cases σ with
  | finished o =>
    cases o with
    | ok => exact ⟨rfl, rfl, rfl⟩
    | error error => cases error <;> exact ⟨rfl, rfl, rfl⟩
  | starting | running | concluding | dropped => exact ⟨rfl, rfl, rfl⟩

variable {s : Settings} {ts : List Transition} {σ : State}

/-- A request tells of its start once. -/
theorem Run.countP_started (h : Run s ts σ) :
    (Deed.notices (log ts)).countP Counter.requests.counts = 1 := by
  obtain ⟨rest, hstart, hnever⟩ := h.starts_once
  have hrest : rest.countP Counter.requests.counts = 0 := by
    refine List.countP_eq_zero.mpr fun n hn hcounted => hnever ?_
    cases n with
    | requestStarted => exact hn
    | _ => cases hcounted
  rw [hstart, List.countP_cons_of_pos rfl, hrest]

/-- Notifications that can only end a request have been told if its end is one of them. -/
theorem Run.countP_final (h : Run s ts σ) (drops : ∀ t ∈ ts, DropsAtRest t.source t.event)
    (rest : σ.AtRest) {counts : Notification → Bool}
    (final : ∀ n, counts n = true → n.isFinal = true) :
    (Deed.notices (log ts)).countP counts = if σ.end?.any counts then 1 else 0 := by
  have hfinals : (Deed.notices (log ts)).countP counts = (Deed.finals (log ts)).countP counts := by
    rw [Request.finals_eq, List.countP_filter]
    refine List.countP_congr fun n _ => ?_
    simpa using final n
  rw [hfinals, (h.settled drops rest).1]
  cases σ.end? with
  | none => rfl
  | some n => exact List.countP_singleton ..

end Request

namespace Simulation

-- ============================================================================
-- Latencies
-- ============================================================================

/-- Whether metrics store a latency at a call. -/
def Hearing.stores (h : Hearing) : Bool :=
  (Metrics.latency? h.tracking h.scene.now h.notification).any Metrics.storable

theorem Hearing.isSuccess_of_stores {h : Hearing} (stores : h.stores = true) :
    h.notification.isSuccess = true := by
  rw [Hearing.stores] at stores
  cases hn : h.notification with
  | nodeSucceeded => rfl
  | _ =>
    rw [hn] at stores
    cases stores

/-- As many latencies are stored as calls store one. -/
theorem size_hearAll {place : Nat} {b : Collector.Book Metrics} {hearings : List Hearing}
    (found : FindsEach .metrics Metrics.IsKey place b hearings) :
    (Collector.metrics.hearAll b (hearings.map Hearing.telling)).record.latencies.size =
      b.record.latencies.size + hearings.countP Hearing.stores := by
  induction hearings using List.reverseRecOn with
  | nil => rfl
  | append_singleton hearings h ih =>
    obtain ⟨hfound, hlast⟩ := EachAfter.concat_iff.mp found
    generalize hbook : Collector.metrics.hearAll b (hearings.map Hearing.telling) = book
      at ih hlast
    have hstep : (Collector.metrics.hear book h.telling).record.latencies.size =
        book.record.latencies.size +
          if (Metrics.latency? (book.tracking h.request) h.scene.now h.notification).any
            Metrics.storable then 1 else 0 := Metrics.record_size ..
    have hstores : (Metrics.latency? (book.tracking h.request) h.scene.now h.notification).any
        Metrics.storable = h.stores := by
      rw [Hearing.stores, Metrics.latency?_keyed hlast.items]
    rw [List.map_append, Collector.hearAll, List.map_singleton, List.foldl_concat,
      ← Collector.hearAll, hbook, hstep, ih hfound, List.countP_append, List.countP_singleton,
      hstores, Nat.add_assoc]

namespace Company

variable {x : Company} {i k place : Nat} {f : Flight} {b : Collector.Book Metrics}
  {may : Request.State → Request.Event → Prop}

/-- The number of requests with a property, which may depend on the position of the request. -/
def number (x : Company) (property : Nat → Flight → Bool) : Nat :=
  x.flights.zipIdx.countP fun y => property y.2 y.1.2

/-- The notifications of a request with their times, in order. -/
def noticesOf (x : Company) (request : Nat) : List (Notification × Instant) :=
  (x.notices.filter (·.1 = request)).map Prod.snd

theorem Kept.noticesOf_eq (kept : x.Kept may) (i : Nat) :
    x.noticesOf i = timesOf i x.tellings := by
  rw [noticesOf, ← kept.called, calls, timesOf, tellings, List.filter_map, List.filter_map,
    List.map_map, List.map_map]
  rfl

/-- What the metrics hear of a request are the notifications among the deeds of the request. -/
theorem Kept.countP_hearings (kept : x.Kept may) (i : Nat) (counts : Notification → Bool) :
    (x.hearings.filter (·.request = i)).countP (fun h => counts h.notification) =
      (Deed.notices (x.deedsOf i)).countP counts := by
  rw [← kept.heard_eq, Ledger.heard_eq, Ledger.tellings_told, tellings, List.filter_map,
    List.countP_map, List.countP_map]
  rfl

theorem Kept.noticesOf_coherent (kept : x.Kept may) (i : Nat) :
    Coherent ((x.noticesOf i).map Prod.fst) := by
  have hheard := kept.coherent i
  rw [Ledger.heard_eq, Ledger.tellings_told] at hheard
  rw [kept.noticesOf_eq, timesOf, List.map_map]
  exact hheard

/-- What is heard at a call stands between what was heard before and what is heard after it. -/
theorem Kept.noticesOf_split (kept : x.Kept may) {h : Hearing} {before after : List Hearing}
    (split : x.hearings = before ++ h :: after) :
    x.noticesOf h.request = timesOf h.request (before.map Hearing.telling) ++
      (h.notification, h.scene.now) :: timesOf h.request (after.map Hearing.telling) := by
  rw [kept.noticesOf_eq, tellings, split, timesOf, List.map_append, List.map_cons,
    List.filter_append, List.filter_cons_of_pos (by simp [Hearing.telling]), List.map_append,
    List.map_cons]
  rfl

/-- A request that tells of one success tells of it at one time. -/
theorem Kept.success_unique (kept : x.Kept may) {h : Hearing} {host : HostInfo}
    (sole : (x.hearings.filter (·.request = i)).filter (·.notification.isSuccess) = [h])
    (y : Notification × Instant) (mem : y ∈ x.noticesOf i) (success : y.1 = .nodeSucceeded host) :
    y = (h.notification, h.scene.now) := by
  rw [kept.noticesOf_eq, timesOf, tellings, List.filter_map, List.map_map] at mem
  obtain ⟨h', hh', rfl⟩ := List.mem_map.mp mem
  have hsuccess : h'.notification.isSuccess = true := by
    have hn : h'.notification = .nodeSucceeded host := success
    rw [hn]
    rfl
  have hwinner : h' ∈ (x.hearings.filter (·.request = i)).filter (·.notification.isSuccess) :=
    List.mem_filter.mpr ⟨hh', hsuccess⟩
  rw [sole, List.mem_singleton] at hwinner
  rw [hwinner]
  rfl

/-- Metrics store a latency at the only success of a request if the attempt was quick enough. -/
theorem Kept.stores_winner (kept : x.Kept may)
    (booked : x.Booked .metrics Metrics.IsKey place b)
    (empty : ∀ i host, Metrics.start? (b.tracking i) host = none) {h : Hearing}
    (sole : (x.hearings.filter (·.request = i)).filter (·.notification.isSuccess) = [h]) :
    h.stores = (winningTime? (x.noticesOf i)).any (·.millis ≤ 65535) := by
  obtain ⟨hown, hsuccess⟩ := List.mem_filter.mp (sole ▸ List.mem_singleton_self h)
  obtain ⟨hmem, hrequest⟩ := List.mem_filter.mp hown
  obtain rfl := of_decide_eq_true hrequest
  obtain ⟨host, hhost⟩ : ∃ host, h.notification = .nodeSucceeded host := by
    cases hn : h.notification with
    | nodeSucceeded host => exact ⟨host, rfl⟩
    | _ =>
      rw [hn] at hsuccess
      cases hsuccess
  obtain ⟨before, after, hsplit⟩ := List.append_of_mem hmem
  -- the start that is found is the latest that was told about the host
  have hfinds := booked.found before h after hsplit
  have hstart : Metrics.start? h.tracking host =
      newestStart host.node.host (timesOf h.request (before.map Hearing.telling)) := by
    rw [Metrics.start?_keyed hfinds.items, Metrics.start?_hearAll empty]
  have htimes := kept.noticesOf_split hsplit
  have honly : ∀ y ∈ x.noticesOf h.request, ∀ host', y.1 = .nodeSucceeded host' →
      y = (h.notification, h.scene.now) := fun y hy _ => kept.success_unique sole y hy
  rw [hhost] at htimes honly
  rw [(kept.noticesOf_coherent h.request).winningTime?_eq htimes honly, Hearing.stores, hhost,
    Metrics.latency?, hstart]
  rfl

/-- A request has stored a latency if it has succeeded with an attempt that was quick enough. -/
theorem Kept.countP_stores (kept : x.Kept may)
    (booked : x.Booked .metrics Metrics.IsKey place b)
    (empty : ∀ i host, Metrics.start? (b.tracking i) host = none) {succeeded : Bool}
    (successes : (Deed.successes (x.deedsOf i)).length = if succeeded then 1 else 0) :
    (x.hearings.filter (·.request = i)).countP Hearing.stores =
      if succeeded && (winningTime? (x.noticesOf i)).any (·.millis ≤ 65535) then 1 else 0 := by
  rw [Deed.length_successes, ← kept.countP_hearings] at successes
  cases succeeded with
  | false =>
    have hle : (x.hearings.filter (·.request = i)).countP Hearing.stores ≤
        (x.hearings.filter (·.request = i)).countP (·.notification.isSuccess) :=
      List.countP_mono_left fun h _ => h.isSuccess_of_stores
    rw [successes] at hle
    exact Nat.le_zero.mp hle
  | true =>
    rw [List.countP_eq_length_filter] at successes
    obtain ⟨h, hsole⟩ := List.length_eq_one_iff.mp successes
    rw [countP_of_sole hsole fun h => h.isSuccess_of_stores,
      kept.stores_winner booked empty hsole, Bool.true_and]

-- ============================================================================
-- Accounts
-- ============================================================================

/-- Metrics whose accounts of the requests of a company are right. -/
structure Balanced (x : Company) (m : Metrics) : Prop where
  /-- Requests are in flight or have ended in one of three ways. -/
  requests : m.requests = x.number (fun _ f => !f.ended) +
    x.number (fun _ f => f.state.succeeded) + m.errors + m.cancelled
  errors : m.errors = x.number fun _ f => f.state.error?.isSome
  cancelled : m.cancelled = x.number fun _ f => f.state.isDropped
  timeouts : m.requestTimeouts = x.number fun _ f => f.state.error?.any ExecutionError.isTimeout
  attemptErrors : m.attemptErrors = x.notices.countP fun n => Counter.attemptErrors.counts n.2.1
  retries : m.retries = x.notices.countP fun n => Counter.retries.counts n.2.1
  /-- Executions are opened with an index, the initial one with 0. -/
  speculative : m.speculative = (Deed.opened (x.taken.map Taken.deed)).countP (· ≠ 0)
  /-- A latency was stored for each request that succeeded with an attempt that took no longer
      than can be stored. -/
  latencies : m.latencies.size = x.number fun i f =>
    f.state.succeeded && (winningTime? (x.noticesOf i)).any (·.millis ≤ 65535)
  timeouts_le : m.requestTimeouts ≤ m.errors
  retries_le : m.retries ≤ m.attemptErrors

/-- Requests are in flight, have succeeded, have failed or were dropped. -/
theorem number_partition (x : Company) : x.flights.length = x.number (fun _ f => !f.ended) +
    x.number (fun _ f => f.state.succeeded) + (x.number fun _ f => f.state.error?.isSome) +
      x.number fun _ f => f.state.isDropped := by
  have hparts (members : List ((Nat × Flight) × Nat)) : members.length =
      members.countP (fun y => !y.1.2.ended) + members.countP (fun y => y.1.2.state.succeeded) +
        members.countP (fun y => y.1.2.state.error?.isSome) +
          members.countP fun y => y.1.2.state.isDropped := by
    induction members with
    | nil => rfl
    | cons y rest ih =>
      simp only [List.length_cons, List.countP_cons, ih, Flight.ended, Request.State.succeeded,
        Request.State.error?, Request.State.isDropped]
      cases y.1.2.state with
      | finished o => cases o <;> simp <;> omega
      | starting | running | concluding | dropped =>
        simp
        omega
  have hflights := hparts x.flights.zipIdx
  rwa [List.length_zipIdx] at hflights

/-- Only requests that were started tell the shared observer anything. -/
theorem Kept.request_lt (kept : x.Kept may) {h : Hearing} (mem : h ∈ x.hearings) :
    h.request < x.flights.length := by
  have hheard : h.notification ∈ Incident.heard h.request (x.tellings.map .told) := by
    rw [Ledger.heard_eq, Ledger.tellings_told]
    refine List.mem_map.mpr ⟨h.telling, List.mem_filter.mpr ⟨List.mem_map_of_mem mem, ?_⟩, rfl⟩
    exact decide_eq_true rfl
  obtain ⟨k, f, ts, hflight, -⟩ := kept.flight_of_heard hheard
  exact (List.getElem?_eq_some_iff.mp hflight).1

/-- What each request with a property tells once, and no other request ever, is counted once for
    each of them. -/
theorem Kept.countP_eq_number (kept : x.Kept may) {counts : Notification → Bool}
    {property : Flight → Bool}
    (own : ∀ (i k : Nat) (f : Flight), x.flights[i]? = some (k, f) →
      (Deed.notices (x.deedsOf i)).countP counts = if property f then 1 else 0) :
    (x.tellings.countP fun c => counts c.notification) = x.number fun _ f => property f := by
  rw [tellings, List.countP_map]
  refine countP_eq_zipIdx _ _ Hearing.request x.flights (fun _ y => property y.2) ?_
    fun h => kept.request_lt
  rintro i ⟨k, f⟩ hflight
  exact (kept.countP_hearings i counts).trans (own i k f hflight)

/-- The speculative executions that are announced are those that are opened. -/
theorem Kept.speculations_eq (kept : x.Kept may) :
    (x.tellings.countP fun c => Counter.speculative.counts c.notification) =
      (Deed.opened (x.taken.map Taken.deed)).countP (· ≠ 0) := by
  have hopened (deeds : List Deed) : (Deed.opened deeds).countP (· ≠ 0) = deeds.countP fun d =>
      ((if d.execution = none then d.action.opened? else none).map
        fun index => decide (index ≠ 0)).getD false := List.countP_filterMap ..
  have hrequest (i : Nat) : (Deed.announcements (x.deedsOf i)).length =
      (Deed.opened (x.deedsOf i)).countP (· ≠ 0) := by
    rcases kept.idle_or_run i with hidle | ⟨_, _, _, -, run, hlog⟩
    · rw [hidle]
      rfl
    · exact hlog ▸ run.speculations_eq
  rw [hopened, List.countP_map, tellings, List.countP_map]
  refine countP_eq_of_owner _ _ _ _ Hearing.request Taken.request fun i => ?_
  have hown := hrequest i
  rw [Deed.length_announcements, hopened, deedsOf, List.countP_map] at hown
  exact (kept.countP_hearings i _).trans hown

section Rest

variable (kept : x.Kept Request.DropsAtRest)
  (rest : ∀ (i k : Nat) (f : Flight), x.flights[i]? = some (k, f) → f.state.AtRest)

include kept rest

/-- Notifications that can only end a request are counted once for each request that has ended
    like this. -/
theorem Kept.countP_ends {counts : Notification → Bool} {property : Request.State → Bool}
    (final : ∀ n, counts n = true → n.isFinal = true)
    (ends : ∀ σ : Request.State, σ.end?.any counts = property σ) :
    (x.tellings.countP fun c => counts c.notification) = x.number fun _ f => property f.state := by
  refine kept.countP_eq_number fun i k' f hflight => ?_
  obtain ⟨ts, run, hlog, hdrops⟩ := kept.run i k' f hflight
  rw [← hlog, run.countP_final hdrops (rest i k' f hflight) final, ends]

/-- Metrics that start afresh have the right accounts. -/
theorem Balanced.of_booked (booked : x.Booked .metrics Metrics.IsKey place { record := {} }) :
    x.Balanced (Collector.metrics.hearAll { record := {} } x.tellings).record := by
  generalize hm : (Collector.metrics.hearAll { record := {} } x.tellings).record = m
  have htally (k : Counter) : m.tally k = x.tellings.countP fun c => k.counts c.notification := by
    rw [← hm, Metrics.tally_hearAll]
    cases k <;> exact Nat.zero_add _
  have hnotices (k : Counter) : (x.tellings.countP fun c => k.counts c.notification) =
      x.notices.countP fun n => k.counts n.2.1 := by
    rw [← kept.called, calls, tellings, List.countP_map, List.countP_map]
    rfl
  have hrequests : m.requests = x.number fun _ _ => true := by
    refine (htally .requests).trans (kept.countP_eq_number fun i k' f hflight => ?_)
    obtain ⟨ts, run, hlog, -⟩ := kept.run i k' f hflight
    rw [← hlog]
    exact run.countP_started
  have herrors : m.errors = x.number fun _ f => f.state.error?.isSome :=
    (htally .errors).trans (kept.countP_ends rest (fun _ => Counter.isFinal_of_counts (.inl rfl))
      fun σ => σ.any_end?.1)
  have hcancelled : m.cancelled = x.number fun _ f => f.state.isDropped :=
    (htally .cancelled).trans (kept.countP_ends rest
      (fun _ => Counter.isFinal_of_counts (.inr (.inr rfl))) fun σ => σ.any_end?.2.2)
  constructor
  case requests =>
    rw [hrequests, herrors, hcancelled, ← x.number_partition, number, List.countP_true,
      List.length_zipIdx]
  case errors => exact herrors
  case cancelled => exact hcancelled
  case timeouts =>
    exact (htally .requestTimeouts).trans (kept.countP_ends rest
      (fun _ => Counter.isFinal_of_counts (.inr (.inl rfl))) fun σ => σ.any_end?.2.1)
  case attemptErrors => exact (htally .attemptErrors).trans (hnotices .attemptErrors)
  case retries => exact (htally .retries).trans (hnotices .retries)
  case speculative => exact (htally .speculative).trans kept.speculations_eq
  case latencies =>
    rw [← hm, tellings, size_hearAll booked.found]
    refine (Nat.zero_add _).trans (countP_eq_zipIdx _ _ Hearing.request _
      (fun i y => y.2.state.succeeded && (winningTime? (x.noticesOf i)).any (·.millis ≤ 65535)) ?_
      fun h => kept.request_lt)
    rintro i ⟨k, f⟩ hflight
    obtain ⟨ts, run, hlog, hdrops⟩ := kept.run i k f hflight
    exact kept.countP_stores booked (fun _ _ => rfl)
      (hlog ▸ (run.settled hdrops (rest i k f hflight)).2)
  case timeouts_le =>
    refine le_of_eq_of_le (htally .requestTimeouts) (le_of_le_of_eq ?_ (htally .errors).symm)
    exact List.countP_mono_left fun c _ => Counter.errors_of_requestTimeouts
  case retries_le =>
    refine le_of_eq_of_le (htally .retries) (le_of_le_of_eq ?_ (htally .attemptErrors).symm)
    exact List.countP_mono_left fun c _ => Counter.attemptErrors_of_retries

end Rest

/-- Whatever happens to the requests of a session, whose metrics start afresh and whose other
    observers are prompt and leave them alone: whenever nothing is being told, the accounts of the
    metrics are right. What is dropped is dropped while nothing is being told of it, since no
    observer keeps a caller waiting. -/
theorem balanced_after (place : Nat) (seats : Nat → Seat) (scene : Scene) (worlds : List World)
    (fresh : scene.metrics[place]? = some {})
    (considerate : ∀ k, ∀ o ∈ (seats k).ahead ++ (seats k).behind,
      o.Considerate .metrics Metrics.IsKey place) (affairs : List Affair)
    (tactful : EachAfter (fun before affair =>
      (after (.metrics place) seats { scene, worlds } before).Admits (.metrics place) seats
        Request.DropsAtRest affair) affairs)
    (rest : ∀ (i k : Nat) (f : Flight),
      (after (.metrics place) seats { scene, worlds } affairs).flights[i]? = some (k, f) →
        f.state.AtRest) :
    ∃ m, (after (.metrics place) seats { scene, worlds } affairs).scene.metrics[place]? = some m ∧
      (after (.metrics place) seats { scene, worlds } affairs).Balanced m := by
  obtain ⟨kept, booked⟩ := booked_after (b := (⟨{}, fun _ => {}⟩ : Collector.Book Metrics))
    Collector.metrics_lawful Collector.metrics_keyed considerate (Provided.metrics.prompt place)
    scene worlds fresh (fun _ _ _ => rfl) tactful
  exact ⟨_, booked.record, .of_booked kept rest booked⟩

/-- A session of one node, whose metrics are notified between a history and a tracer. Of four
    requests the first one succeeds, the second one is dropped during its attempt, the third one
    times out, and the last one is still in flight. -/
def fourRequests : Company :=
  let session : World :=
    { directory := (Directory.update {} [⟨Request.otherNode.host, default, none, none⟩]).1 }
  after (.metrics 0) (fun _ => ⟨[.history 0], [.tracer true]⟩)
    { scene := { histories := [{}], metrics := [{}] }, worlds := [session] } events
where
  events : List Affair :=
    let begins := Affair.begins 0 { contents := "SELECT now()" } (.ofMillis 3000)
    let goesOn (request : Nat) (p : Party) := Affair.activates request (.waitEnds p)
    [begins, begins, .begins 0 { contents := "SELECT *", requestTimeout := some (.ofMillis 500) }
      (.ofMillis 3000), goesOn 0 none, goesOn 1 none, goesOn 1 (some 0), goesOn 1 (some 0),
      goesOn 0 (some 0), goesOn 0 (some 0), goesOn 0 (some 0), goesOn 0 (some 0),
      goesOn 0 (some 0), goesOn 0 none, goesOn 2 none, goesOn 2 (some 0),
      .activates 1 (.event .drop), .passes ⟨.ofMillis 600⟩, .activates 2 (.event .timeUp),
      goesOn 2 none, begins, goesOn 3 none]

/-- Each of the requests is accounted for in another way, and one latency is stored. -/
theorem balanced_after_of_four :
    (∃ m, fourRequests.scene.metrics[0]? = some m ∧ fourRequests.Balanced m) ∧
      fourRequests.scene.metrics[0]?.map (fun m => (m.requests, m.errors, m.requestTimeouts,
        m.cancelled, m.latencies.size)) = some (4, 1, 1, 1, 1) := by
  refine ⟨balanced_after 0 _ _ _ rfl ?_ _ (by decide +kernel) ?_, by decide +kernel⟩
  · intro _
    refine List.forall_mem_cons.mpr ⟨?_, List.forall_mem_singleton.mpr ?_⟩
    · exact Provided.history.considerate_metrics (by decide) 0 0
    · exact (Provided.tracer true).considerate_metrics (by decide) 0 0
  · have hrest : ∀ y ∈ fourRequests.flights, y.2.state.AtRest := by decide +kernel
    exact fun i k f hf => hrest (k, f) (List.mem_of_getElem? hf)

end Company

end Simulation

end RequestEngine
