/-
  RequestEngine.Proofs.Observation.Ledger

  What a history collector writes down.  It hears of any number of requests, in
  any interleaving, and its log is taken out now and then; beside the log it keeps
  the numbers that it has given to requests and attempts with the items of each
  request.

    * `Incident`         — a collector hears a notification, or its log is taken;
    * `Ledger`           — a history with the items of each request;
    * `Ledger.account`   — everything that was recorded, and for what;
    * `Ledger.Numbered`  — no number is given twice;
    * `Ledger.Books`     — what is recorded of requests that tell what is told once
      only once;
    * `Ledger.sound`     — every log that a collector can hold is sound.
-/
import Mathlib.Data.List.Perm.Subperm
import RequestEngine.Proofs.Observation.Arrangement
import RequestEngine.Proofs.Observation.Independence
import RequestEngine.Proofs.Request.Reports

namespace RequestEngine

open Tracking

-- ============================================================================
-- Single notifications
-- ============================================================================

namespace HistoryEvent

/-- The request that an event names. -/
def request? : HistoryEvent → Option RequestId
  | newRequest id | requestSuccess id | requestError id _ | requestCancelled id
  | newSpeculativeExecution id _ | newAttempt _ id .. => some id
  | attemptSuccess _ | attemptError .. => none

/-- The attempt that an event names. -/
def attempt? : HistoryEvent → Option AttemptId
  | newAttempt attempt .. | attemptSuccess attempt | attemptError attempt .. => some attempt
  | _ => none

end HistoryEvent

namespace History

variable {h : History} {t : Tracking} {now : Instant} {n : Notification} {host : HostInfo}
  {id : RequestId} {attempt : AttemptId} {event : HistoryEvent}

theorem after_events (h : History) (t : Tracking) (now : Instant) (n : Notification) :
    (h.after t now n).events = h.events ++ ((h.recorded? t n).map (·, now)).toList := by
  rw [after]
  cases h.recorded? t n with
  | none => simp
  | some event => cases n <;> rfl

theorem after_nextRequest (h : History) (t : Tracking) (now : Instant) (n : Notification) :
    (h.after t now n).nextRequest.value =
      h.nextRequest.value + if n = .requestStarted then 1 else 0 := by
  rw [after]
  cases n with
  | requestStarted => rfl
  | _ => split <;> rfl

theorem nextAttempt_le (h : History) (t : Tracking) (now : Instant) (n : Notification) :
    h.nextAttempt.value ≤ (h.after t now n).nextAttempt.value := by
  rw [after]
  split
  · cases n <;> first | exact Nat.le_refl _ | exact Nat.le_succ _
  · exact Nat.le_refl _

theorem requestId?_started (h : History) (t : Tracking) :
    requestId? (h.leaves t .requestStarted) = some h.nextRequest := by
  rw [requestId?, Tracking.get, leaves, item?_insert, if_pos rfl]
  rfl

/-- The number of a request is the one it had or, if it has just been started, the next one. -/
theorem requestId?_leaves_cases (known : requestId? (h.leaves t n) = some id) :
    (n ≠ .requestStarted ∧ requestId? t = some id) ∨
      (n = .requestStarted ∧ id = h.nextRequest) := by
  by_cases hstart : n = .requestStarted
  · subst hstart
    rw [requestId?_started] at known
    exact .inr ⟨rfl, (Option.some.inj known).symm⟩
  · rw [requestId?_leaves h t hstart] at known
    exact .inl ⟨hstart, known⟩

theorem attemptId?_eq {t t' : Tracking}
    (same : t.item? (host.itemKey attemptKey) = t'.item? (host.itemKey attemptKey)) :
    attemptId? t host = attemptId? t' host := by
  rw [attemptId?, attemptId?, get_congr same]

theorem attemptId?_insert (t : Tracking) (h' host : HostInfo) (attempt : AttemptId) :
    attemptId? (t.insert (h'.itemKey attemptKey) (.attempt attempt)).1 host =
      if host.itemKey attemptKey = h'.itemKey attemptKey then some attempt
      else attemptId? t host := by
  split
  · rename_i hkey
    rw [attemptId?, Tracking.get, item?_insert, if_pos hkey]
    rfl
  · rename_i hkey
    exact attemptId?_eq (by rw [item?_insert, if_neg hkey])

theorem attemptId?_take_of_ne {h' : HostInfo}
    (other : host.itemKey attemptKey ≠ h'.itemKey attemptKey) :
    attemptId? (t.take (h'.itemKey attemptKey) .attempt).1 host = attemptId? t host :=
  attemptId?_eq (by rw [item?_take, if_neg fun h => other h.1])

theorem attemptId?_take_of_eq {h' : HostInfo}
    (own : host.itemKey attemptKey = h'.itemKey attemptKey) :
    attemptId? (t.take (h'.itemKey attemptKey) .attempt).1 host = none := by
  rw [← own]
  exact attemptId?_take t host

/-- The number of an attempt is the one that was known, unless its end was told, or the one that was
    given just now. -/
theorem attemptId?_leaves_cases (known : attemptId? (h.leaves t n) host = some attempt) :
    (attemptId? t host = some attempt ∧
      ∀ h', n.report? = some h' → host.itemKey attemptKey ≠ h'.itemKey attemptKey) ∨
    ∃ h', n = .nodeStarted h' ∧ host.itemKey attemptKey = h'.itemKey attemptKey ∧
      (requestId? t).isSome = true ∧ attempt = h.nextAttempt := by
  have silent (none : n.report? = none) : ∀ h', n.report? = some h' →
      host.itemKey attemptKey ≠ h'.itemKey attemptKey := by
    rw [none]
    rintro _ ⟨⟩
  cases n with
  | requestStarted =>
    refine .inl ⟨?_, silent rfl⟩
    rw [← known]
    exact attemptId?_eq (by rw [leaves, item?_insert, if_neg (requestKey_ne host).symm])
  | nodeStarted h' =>
    rw [leaves] at known
    split at known
    · rename_i id hid
      rw [attemptId?_insert] at known
      split at known
      · rename_i hkey
        exact .inr ⟨h', rfl, hkey, by rw [hid]; rfl, (Option.some.inj known).symm⟩
      · exact .inl ⟨known, silent rfl⟩
    · exact .inl ⟨known, silent rfl⟩
  | nodeFailed h' | nodeSucceeded h' =>
    have hkey : host.itemKey attemptKey ≠ h'.itemKey attemptKey := by
      intro hkey
      rw [leaves, attemptId?_take_of_eq hkey] at known
      cases known
    rw [leaves, attemptId?_take_of_ne hkey] at known
    refine .inl ⟨known, ?_⟩
    rintro _ ⟨⟩
    exact hkey
  | speculated | requestSucceeded | requestFailed | requestCancelled =>
    exact .inl ⟨known, silent rfl⟩

/-- The request that an event names is the one that it is recorded for. -/
theorem requestId?_of_recorded (recorded : h.recorded? t n = some event)
    (names : event.request? = some id) : requestId? (h.leaves t n) = some id := by
  cases n with
  | requestStarted =>
    cases recorded
    rw [requestId?_started]
    exact names
  | nodeFailed | nodeSucceeded =>
    obtain ⟨a, -, rfl⟩ := Option.map_eq_some_iff.mp recorded
    cases names
  | nodeStarted | speculated | requestSucceeded | requestFailed | requestCancelled =>
    obtain ⟨id', hid, rfl⟩ := Option.map_eq_some_iff.mp recorded
    rw [requestId?_leaves h t (by simp)]
    cases names
    exact hid

/-- The attempt that an event names starts now, or its end is told and its number was known. -/
theorem attemptId?_of_recorded (recorded : h.recorded? t n = some event)
    (names : event.attempt? = some attempt) :
    (event.isStart = true ∧ attempt = h.nextAttempt ∧ ∃ host, n = .nodeStarted host) ∨
      (event.isStart = false ∧ ∃ host, n.report? = some host ∧
        attemptId? t host = some attempt) := by
  cases n with
  | requestStarted =>
    cases recorded
    cases names
  | nodeStarted host =>
    obtain ⟨id', -, rfl⟩ := Option.map_eq_some_iff.mp recorded
    cases names
    exact .inl ⟨rfl, rfl, host, rfl⟩
  | nodeFailed host | nodeSucceeded host =>
    obtain ⟨a, ha, rfl⟩ := Option.map_eq_some_iff.mp recorded
    cases names
    exact .inr ⟨rfl, host, rfl, ha⟩
  | speculated | requestSucceeded | requestFailed | requestCancelled =>
    obtain ⟨id', -, rfl⟩ := Option.map_eq_some_iff.mp recorded
    cases names

/-- What is told once is recorded for what it is about. -/
theorem once_of_recorded (recorded : h.recorded? t n = some event) :
    (∀ id, event.subject = .request id →
      event.request? = some id ∧ n.once? = some (if event.isStart then .start else .finish)) ∧
    (∀ id index, event.subject = .execution id index →
      event.request? = some id ∧ n.once? = some (.speculation index)) ∧
    (∀ attempt, event.subject = .attempt attempt → event.attempt? = some attempt) := by
  cases n with
  | requestStarted =>
    cases recorded
    exact ⟨by rintro _ ⟨⟩; exact ⟨rfl, rfl⟩, by rintro _ _ ⟨⟩, by rintro _ ⟨⟩⟩
  | nodeStarted | speculated | nodeFailed | nodeSucceeded | requestSucceeded | requestFailed
  | requestCancelled =>
    obtain ⟨number, -, rfl⟩ := Option.map_eq_some_iff.mp recorded
    refine ⟨?_, ?_, ?_⟩
    · rintro _ ⟨⟩ <;> exact ⟨rfl, rfl⟩
    · rintro _ _ ⟨⟩ <;> exact ⟨rfl, rfl⟩
    · rintro _ ⟨⟩ <;> rfl

end History

-- ============================================================================
-- What a collector hears
-- ============================================================================

/-- A collector is told something, or its log is taken out. -/
inductive Incident where
  | told (telling : Telling)
  | taken

/-- What was told of a request. -/
def Incident.heard (request : Nat) (incidents : List Incident) : List Notification :=
  incidents.filterMap fun
    | .told c => if c.request = request then some c.notification else none
    | .taken => none

/-- A history with the items of each request. -/
structure Ledger where
  history : History := {}
  tracking : Nat → Tracking

namespace Ledger

/-- Nothing has been recorded, and no request has any items. -/
def start (statement : Nat → Option TrackedStatement) : Ledger where
  tracking request := { statement := statement request }

/-- A notification is recorded, or refused. -/
def hear (l : Ledger) (c : Telling) : Ledger :=
  let (h, t, _) := l.history.record (l.tracking c.request) c.time c.notification
  { history := h, tracking := Function.update l.tracking c.request t }

/-- What becomes of a ledger. -/
def undergo (l : Ledger) : Incident → Ledger
  | .told c => l.hear c
  | .taken => { l with history := (History.take.run l.history).2 }

/-- The event that a notification is recorded as. -/
def noted? (l : Ledger) (c : Telling) : Option HistoryEvent :=
  l.history.recorded? (l.tracking c.request) c.notification

theorem hear_eq (l : Ledger) (c : Telling) : l.hear c =
    { history := l.history.after (l.tracking c.request) c.time c.notification
      tracking := Function.update l.tracking c.request
        (l.history.leaves (l.tracking c.request) c.notification) } := by
  rw [hear, History.record_spec]

theorem hear_tracking (l : Ledger) (c : Telling) (request : Nat) :
    (l.hear c).tracking request = if request = c.request then
      l.history.leaves (l.tracking c.request) c.notification else l.tracking request := by
  rw [hear_eq]
  exact Function.update_apply ..

/-- What becomes of a ledger in the course of several incidents. -/
def undergoAll (l : Ledger) (incidents : List Incident) : Ledger :=
  incidents.foldl undergo l

/-- Everything that is recorded in the course of several incidents, and for what. -/
def account (l : Ledger) : List Incident → List (Telling × HistoryEvent)
  | [] => []
  | .told c :: rest => ((l.noted? c).map (c, ·)).toList ++ (l.hear c).account rest
  | .taken :: rest => (l.undergo .taken).account rest

@[simp] theorem undergoAll_concat (l : Ledger) (incidents : List Incident) (i : Incident) :
    l.undergoAll (incidents ++ [i]) = (l.undergoAll incidents).undergo i :=
  List.foldl_concat ..

theorem account_append (l : Ledger) (incidents more : List Incident) :
    l.account (incidents ++ more) =
      l.account incidents ++ (l.undergoAll incidents).account more := by
  induction incidents generalizing l with
  | nil => rfl
  | cons i rest ih =>
    cases i with
    | told c =>
      rw [List.cons_append, account, ih, account, List.append_assoc]
      rfl
    | taken => exact ih _

/-- The log that would be held if it had never been taken out. -/
def written (l : Ledger) (incidents : List Incident) : EventLog :=
  (l.account incidents).map fun x => (x.2, x.1.time)

/-- As long as the log is not taken out, it holds everything that was recorded. -/
theorem events_of_told (l : Ledger) (tellings : List Telling) :
    (l.undergoAll (tellings.map .told)).history.events =
      l.history.events ++ l.written (tellings.map .told) := by
  induction tellings generalizing l with
  | nil => exact (List.append_nil _).symm
  | cons c rest ih =>
    have hevents : (l.hear c).history.events =
        l.history.events ++ ((l.noted? c).map (·, c.time)).toList := by
      rw [hear_eq]
      exact History.after_events ..
    rw [List.map_cons, undergoAll, List.foldl_cons, ← undergoAll, undergo, ih, hevents,
      List.append_assoc, written, written, account, List.map_append]
    cases l.noted? c <;> rfl

-- ============================================================================
-- Numbers
-- ============================================================================

/-- Every number is given once: what is known by a number is known under one request, and in case of
    an attempt under one host. -/
structure Numbered (l : Ledger) : Prop where
  request : ∀ i id, History.requestId? (l.tracking i) = some id →
    id.value < l.history.nextRequest.value
  attempt : ∀ i host a, History.attemptId? (l.tracking i) host = some a →
    a.value < l.history.nextAttempt.value
  ownRequest : ∀ i j id, History.requestId? (l.tracking i) = some id →
    History.requestId? (l.tracking j) = some id → i = j
  ownAttempt : ∀ i j host host' a, History.attemptId? (l.tracking i) host = some a →
    History.attemptId? (l.tracking j) host' = some a →
    i = j ∧ host.itemKey History.attemptKey = host'.itemKey History.attemptKey

section Numbers

variable {l : Ledger} {c : Telling} {i : Nat} {id : RequestId} {host : HostInfo} {a : AttemptId}

theorem hear_nextRequest (l : Ledger) (c : Telling) : (l.hear c).history.nextRequest.value =
    l.history.nextRequest.value + if c.notification = .requestStarted then 1 else 0 := by
  rw [hear_eq]
  exact History.after_nextRequest ..

theorem nextAttempt_le_hear (l : Ledger) (c : Telling) :
    l.history.nextAttempt.value ≤ (l.hear c).history.nextAttempt.value := by
  rw [hear_eq]
  exact History.nextAttempt_le ..

theorem nextAttempt_hear (started : c.notification = .nodeStarted host)
    (known : (History.requestId? (l.tracking c.request)).isSome = true) :
    (l.hear c).history.nextAttempt.value = l.history.nextAttempt.value + 1 := by
  obtain ⟨id, hid⟩ := Option.isSome_iff_exists.mp known
  simp only [hear_eq, started, History.after, History.recorded?, hid]
  rfl

/-- The number of a request is the one that it had, or one that was given just now. -/
theorem requestId?_hear (known : History.requestId? ((l.hear c).tracking i) = some id) :
    (History.requestId? (l.tracking i) = some id ∧
      (i = c.request → c.notification ≠ .requestStarted)) ∨
    (i = c.request ∧ c.notification = .requestStarted ∧ id = l.history.nextRequest) := by
  rw [hear_tracking] at known
  split at known
  · rename_i hi
    subst hi
    rcases History.requestId?_leaves_cases known with ⟨hlater, hknown⟩ | ⟨hstart, hid⟩
    · exact .inl ⟨hknown, fun _ => hlater⟩
    · exact .inr ⟨rfl, hstart, hid⟩
  · rename_i hi
    exact .inl ⟨known, fun h => absurd h hi⟩

/-- The number of an attempt is the one that it had, unless its end was told, or one that was given
    just now. -/
theorem attemptId?_hear (known : History.attemptId? ((l.hear c).tracking i) host = some a) :
    (History.attemptId? (l.tracking i) host = some a ∧
      (i = c.request → ∀ h', c.notification.report? = some h' →
        host.itemKey History.attemptKey ≠ h'.itemKey History.attemptKey)) ∨
    (i = c.request ∧ a = l.history.nextAttempt ∧
      (l.hear c).history.nextAttempt.value = l.history.nextAttempt.value + 1 ∧
      ∃ h', c.notification = .nodeStarted h' ∧
        host.itemKey History.attemptKey = h'.itemKey History.attemptKey) := by
  rw [hear_tracking] at known
  split at known
  · rename_i hi
    subst hi
    rcases History.attemptId?_leaves_cases known with
      ⟨hknown, hother⟩ | ⟨h', hstart, hkey, hsome, hfresh⟩
    · exact .inl ⟨hknown, fun _ => hother⟩
    · exact .inr ⟨rfl, hfresh, nextAttempt_hear hstart hsome, h', hstart, hkey⟩
  · rename_i hi
    exact .inl ⟨known, fun h => absurd h hi⟩

theorem Numbered.hear (h : l.Numbered) (c : Telling) : (l.hear c).Numbered where
  request i id known := by
    rw [hear_nextRequest]
    rcases requestId?_hear known with ⟨hknown, -⟩ | ⟨-, hstart, rfl⟩
    · exact Nat.lt_add_right _ (h.request i id hknown)
    · rw [if_pos hstart]
      exact Nat.lt_succ_self _
  attempt i host a known := by
    rcases attemptId?_hear known with ⟨hknown, -⟩ | ⟨-, rfl, hnext, -⟩
    · exact Nat.lt_of_lt_of_le (h.attempt i host a hknown) (nextAttempt_le_hear l c)
    · rw [hnext]
      exact Nat.lt_succ_self _
  ownRequest i j id known known' := by
    rcases requestId?_hear known with ⟨hi, -⟩ | ⟨hi, -, hid⟩ <;>
      rcases requestId?_hear known' with ⟨hj, -⟩ | ⟨hj, -, hid'⟩
    · exact h.ownRequest i j id hi hj
    · exact absurd (h.request i id hi) (by simp [hid'])
    · exact absurd (h.request j id hj) (by simp [hid])
    · exact hi.trans hj.symm
  ownAttempt i j host host' a known known' := by
    rcases attemptId?_hear known with ⟨hi, -⟩ | ⟨hi, hid, -, x, hx, hkey⟩ <;>
      rcases attemptId?_hear known' with ⟨hj, -⟩ | ⟨hj, hid', -, y, hy, hkey'⟩
    · exact h.ownAttempt i j host host' a hi hj
    · exact absurd (h.attempt i host a hi) (by simp [hid'])
    · exact absurd (h.attempt j host' a hj) (by simp [hid])
    · obtain rfl : x = y := Notification.nodeStarted.inj (hx.symm.trans hy)
      exact ⟨hi.trans hj.symm, hkey.trans hkey'.symm⟩

theorem Numbered.undergo (h : l.Numbered) (incident : Incident) :
    (l.undergo incident).Numbered := by
  cases incident with
  | told c => exact h.hear c
  | taken => exact ⟨h.request, h.attempt, h.ownRequest, h.ownAttempt⟩

theorem numbered_start (statement : Nat → Option TrackedStatement) :
    (start statement).Numbered := by
  constructor <;> intros <;> rename_i known <;> cases known

end Numbers

end Ledger

-- ============================================================================
-- What is recorded
-- ============================================================================

/-- What is told once is heard once of each request, and no speculative execution has the index of
    the initial one. -/
structure Incident.Orderly (incidents : List Incident) : Prop where
  once : ∀ i, ((heard i incidents).filterMap Notification.once?).Nodup
  later : ∀ i host delay, .speculated host delay ∈ heard i incidents → host.execution ≠ 0

namespace Incident

theorem heard_append (i : Nat) (incidents more : List Incident) :
    heard i (incidents ++ more) = heard i incidents ++ heard i more :=
  List.filterMap_append

theorem heard_told (i : Nat) (c : Telling) :
    heard i [.told c] = if c.request = i then [c.notification] else [] := by
  by_cases h : c.request = i <;> simp [heard, h]

/-- Nothing is heard when the log is taken out. -/
theorem heard_taken (i : Nat) (incidents : List Incident) :
    heard i (incidents ++ [.taken]) = heard i incidents :=
  (heard_append ..).trans (List.append_nil _)

theorem Orderly.of_append {incidents more : List Incident} (h : Orderly (incidents ++ more)) :
    Orderly incidents where
  once i := by
    have honce := h.once i
    rw [heard_append, List.filterMap_append] at honce
    exact honce.of_append_left
  later i host delay mem := h.later i host delay (by
    rw [heard_append]
    exact List.mem_append_left _ mem)

/-- What is told once and is heard now was not heard before. -/
theorem Orderly.new {incidents : List Incident} {c : Telling} {n : Notification} {k : Once}
    (h : Orderly (incidents ++ [.told c])) (told : c.notification.once? = some k)
    (before : n ∈ heard c.request incidents) : n.once? ≠ some k := by
  intro hsame
  have honce := h.once c.request
  rw [heard_append, heard_told, if_pos rfl, List.filterMap_append] at honce
  refine (List.nodup_append.mp honce).2.2 k ?_ k ?_ rfl
  · exact List.mem_filterMap.mpr ⟨n, before, hsame⟩
  · exact List.mem_filterMap.mpr ⟨_, List.mem_singleton_self _, told⟩

/-- What is heard of each request is some of what the request told in a run, in any order. -/
def FromRequests (incidents : List Incident) : Prop :=
  ∀ i, ∃ s ts σ, Request.Run s ts σ ∧
    (heard i incidents).Subperm (Deed.notices (Request.log ts))

theorem FromRequests.orderly {incidents : List Incident} (h : FromRequests incidents) :
    Orderly incidents where
  once i := by
    obtain ⟨s, ts, σ, run, part, hperm, hsub⟩ := h i
    exact ((hperm.filterMap _).nodup_iff).mp ((hsub.filterMap _).nodup run.tellsOnce)
  later i host delay mem := by
    obtain ⟨s, ts, σ, run, hpart⟩ := h i
    refine run.announcesOnce.2 host ?_
    rw [Request.announcements_eq]
    exact List.mem_filterMap.mpr ⟨_, hpart.subset mem, rfl⟩

end Incident

namespace Ledger

/-- The books that are kept of what happened since a ledger was empty. -/
structure Books (l₀ : Ledger) (incidents : List Incident) : Prop where
  numbered : (l₀.undergoAll incidents).Numbered
  unstarted : ∀ i, .requestStarted ∉ Incident.heard i incidents →
    History.requestId? ((l₀.undergoAll incidents).tracking i) = none
  /-- What is recorded was heard. -/
  recorded : ∀ x ∈ l₀.account incidents, x.1.notification ∈ Incident.heard x.1.request incidents ∧
    ∃ h t, History.recorded? h t x.1.notification = some x.2
  /-- Events are about the request of which they were heard. -/
  owner : ∀ x ∈ l₀.account incidents, ∀ id, x.2.request? = some id →
    History.requestId? ((l₀.undergoAll incidents).tracking x.1.request) = some id
  /-- Attempts that have ended are known no more. -/
  ended : ∀ x ∈ l₀.account incidents, ∀ a, x.2.attempt? = some a →
    a.value < (l₀.undergoAll incidents).history.nextAttempt.value ∧
      (x.2.isStart = false → ∀ i host,
        History.attemptId? ((l₀.undergoAll incidents).tracking i) host ≠ some a)
  order : (l₀.account incidents).Pairwise fun x y => x.2.MayPrecede y.2
  ascending : Ascending (l₀.written incidents).starts
  held : (l₀.undergoAll incidents).history.events <:+ l₀.written incidents

section Keeping

variable {l₀ : Ledger} {incidents : List Incident} {c : Telling} {event : HistoryEvent}

/-- The number of a request does not change once it has one. -/
theorem Books.requestId?_kept (h : l₀.Books incidents)
    (orderly : Incident.Orderly (incidents ++ [.told c])) {i : Nat} {id : RequestId}
    (known : History.requestId? ((l₀.undergoAll incidents).tracking i) = some id) :
    History.requestId? (((l₀.undergoAll incidents).hear c).tracking i) = some id := by
  rw [hear_tracking]
  split
  · rename_i hi
    subst hi
    rw [History.requestId?_leaves, known]
    -- the start of a request is heard once
    intro hstart
    have honce : c.notification.once? = some .start := by rw [hstart]; rfl
    have hnever : .requestStarted ∉ Incident.heard c.request incidents :=
      fun hheard => orderly.new honce hheard rfl
    rw [h.unstarted _ hnever] at known
    cases known
  · exact known

/-- What is recorded now may follow everything that was recorded before. -/
theorem Books.mayFollow (h : l₀.Books incidents)
    (orderly : Incident.Orderly (incidents ++ [.told c]))
    (recorded : (l₀.undergoAll incidents).noted? c = some event) :
    ∀ x ∈ l₀.account incidents, x.2.MayPrecede event := by
  intro x hx same
  obtain ⟨hrequest, hexecution, hattempt⟩ := History.once_of_recorded recorded
  obtain ⟨hheard, h', t', hrecorded⟩ := h.recorded x hx
  obtain ⟨hrequest', hexecution', hattempt'⟩ := History.once_of_recorded hrecorded
  -- events that name the same request were heard of the same request
  have sameRequest {id : RequestId} (names : event.request? = some id)
      (names' : x.2.request? = some id) : x.1.request = c.request := by
    refine (h.numbered.hear c).ownRequest _ _ id ?_ ?_
    · exact h.requestId?_kept orderly (h.owner x hx id names')
    · rw [hear_tracking, if_pos rfl]
      exact History.requestId?_of_recorded recorded names
  cases hsubject : event.subject with
  | request id =>
    obtain ⟨hnames, honce⟩ := hrequest id hsubject
    obtain ⟨hnames', honce'⟩ := hrequest' id (same.trans hsubject)
    have hnew := orderly.new honce (sameRequest hnames hnames' ▸ hheard)
    rw [honce'] at hnew
    by_cases hstart : event.isStart = true
    · -- the request has just got its number, which was not given before
      rw [if_pos hstart] at honce
      rw [noted?, Notification.started_of_once honce] at recorded
      cases recorded
      cases hnames
      exact absurd (h.numbered.request _ _ (h.owner x hx _ hnames')) (Nat.lt_irrefl _)
    · rw [if_neg hstart] at hnew
      refine ⟨by_contra fun hend => hnew (by rw [if_neg hend]), by simpa using hstart⟩
  | execution id index =>
    obtain ⟨hnames, honce⟩ := hexecution id index hsubject
    obtain ⟨hnames', honce'⟩ := hexecution' id index (same.trans hsubject)
    exact absurd honce' (orderly.new honce (sameRequest hnames hnames' ▸ hheard))
  | attempt a =>
    obtain ⟨hlt, hended⟩ := h.ended x hx a (hattempt' a (same.trans hsubject))
    rcases History.attemptId?_of_recorded recorded (hattempt a hsubject) with
      ⟨-, rfl, -⟩ | ⟨hend, host, -, hknown⟩
    · exact absurd hlt (Nat.lt_irrefl _)
    · refine ⟨by_contra fun hend' => ?_, hend⟩
      exact hended (by simpa using hend') _ _ hknown

theorem account_told (l₀ : Ledger) (incidents : List Incident) (c : Telling) :
    l₀.account (incidents ++ [.told c]) = l₀.account incidents ++
      (((l₀.undergoAll incidents).noted? c).map (c, ·)).toList := by
  rw [account_append, account, account, List.append_nil]

theorem mem_account_told {x : Telling × HistoryEvent} :
    x ∈ l₀.account (incidents ++ [.told c]) ↔ x ∈ l₀.account incidents ∨
      x.1 = c ∧ (l₀.undergoAll incidents).noted? c = some x.2 := by
  rw [account_told, List.mem_append, Option.mem_toList, Option.map_eq_some_iff]
  refine or_congr_right ⟨?_, ?_⟩
  · rintro ⟨event, hentry, rfl⟩
    exact ⟨rfl, hentry⟩
  · rintro ⟨rfl, hentry⟩
    exact ⟨x.2, hentry, rfl⟩

/-- Taking the log out takes nothing from the account. -/
theorem account_taken (l₀ : Ledger) (incidents : List Incident) :
    l₀.account (incidents ++ [.taken]) = l₀.account incidents :=
  (account_append ..).trans (List.append_nil _)

/-- An order of what is recorded goes on as long as every event may follow all before it. -/
theorem pairwise_account_told {R : HistoryEvent → HistoryEvent → Prop}
    (order : (l₀.account incidents).Pairwise fun x y => R x.2 y.2)
    (follows : ∀ event, (l₀.undergoAll incidents).noted? c = some event →
      ∀ x ∈ l₀.account incidents, R x.2 event) :
    (l₀.account (incidents ++ [.told c])).Pairwise fun x y => R x.2 y.2 := by
  rw [account_told]
  refine List.pairwise_append.mpr ⟨order, ?_, fun x hx y hy => ?_⟩
  · cases (l₀.undergoAll incidents).noted? c <;> simp
  · obtain ⟨event, hentry, rfl⟩ := Option.map_eq_some_iff.mp (Option.mem_toList.mp hy)
    exact follows event hentry x hx

theorem written_told (l₀ : Ledger) (incidents : List Incident) (c : Telling) :
    l₀.written (incidents ++ [.told c]) = l₀.written incidents ++
      (((l₀.undergoAll incidents).noted? c).map (·, c.time)).toList := by
  rw [written, account_told, List.map_append, written]
  cases (l₀.undergoAll incidents).noted? c <;> rfl

/-- The attempt that an event names has its number, and is known no more if the event ends it. -/
def Closes (l : Ledger) (event : HistoryEvent) : Prop :=
  ∀ a, event.attempt? = some a → a.value < l.history.nextAttempt.value ∧
    (event.isStart = false → ∀ i host, History.attemptId? (l.tracking i) host ≠ some a)

/-- An attempt is known no more once its end was recorded. -/
theorem Numbered.closes {l : Ledger} (h : l.Numbered) (recorded : l.noted? c = some event) :
    (l.hear c).Closes event := by
  intro a names
  rcases History.attemptId?_of_recorded recorded names with
    ⟨hstart, rfl, host, hn⟩ | ⟨-, host, hreport, hknown⟩
  · refine ⟨?_, fun hend => absurd (hend.symm.trans hstart) Bool.false_ne_true⟩
    have hsome : (History.requestId? (l.tracking c.request)).isSome = true := by
      rw [noted?, hn] at recorded
      exact Option.isSome_map ▸ Option.isSome_of_eq_some recorded
    rw [nextAttempt_hear hn hsome]
    exact Nat.lt_succ_self _
  · have hlt := h.attempt _ _ _ hknown
    refine ⟨Nat.lt_of_lt_of_le hlt (nextAttempt_le_hear l c), fun _ i host' known => ?_⟩
    rcases attemptId?_hear known with ⟨hbefore, hother⟩ | ⟨-, rfl, -⟩
    · obtain ⟨hi, hkey⟩ := h.ownAttempt _ _ _ _ _ hbefore hknown
      exact hother hi host hreport hkey
    · exact Nat.lt_irrefl _ hlt

/-- It does not become known again: no number is given twice. -/
theorem Closes.hear {l : Ledger} (h : l.Closes event) (c : Telling) : (l.hear c).Closes event := by
  intro a names
  obtain ⟨hlt, hended⟩ := h a names
  refine ⟨Nat.lt_of_lt_of_le hlt (nextAttempt_le_hear l c), fun hend i host known => ?_⟩
  rcases attemptId?_hear known with ⟨hknown, -⟩ | ⟨-, rfl, -⟩
  · exact hended hend i host hknown
  · exact Nat.lt_irrefl _ hlt

/-- So it is with everything that is recorded. -/
theorem Numbered.closes_told (h : (l₀.undergoAll incidents).Numbered)
    (closes : ∀ x ∈ l₀.account incidents, (l₀.undergoAll incidents).Closes x.2) :
    ∀ x ∈ l₀.account (incidents ++ [.told c]), ((l₀.undergoAll incidents).hear c).Closes x.2 := by
  intro x hx
  rcases mem_account_told.mp hx with hx | ⟨rfl, hentry⟩
  · exact (closes x hx).hear c
  · exact h.closes hentry

/-- Requests are numbered in the order of their starts. -/
theorem Books.ascending_concat (h : l₀.Books incidents)
    (recorded : (l₀.undergoAll incidents).noted? c = some event) :
    Ascending (EventLog.starts (l₀.written incidents ++ [(event, c.time)])) := by
  rw [EventLog.starts_append]
  by_cases hstart : c.notification = .requestStarted
  · rw [noted?, hstart] at recorded
    cases recorded
    rw [Ascending, List.map_append]
    refine List.pairwise_append.mpr
      ⟨h.ascending, List.pairwise_singleton .., fun k hk k' hk' => ?_⟩
    obtain rfl : k' = (l₀.undergoAll incidents).history.nextRequest.value :=
      List.mem_singleton.mp hk'
    obtain ⟨⟨_, time⟩, hmem, rfl⟩ := List.mem_map.mp hk
    obtain ⟨⟨event', time'⟩, hwritten, hstarts⟩ := List.mem_filterMap.mp hmem
    obtain ⟨x, hx, heq⟩ := List.mem_map.mp hwritten
    cases heq
    cases hevent : x.2 <;> rw [hevent] at hstarts <;> cases hstarts
    exact h.numbered.request _ _ (h.owner x hx _ (by rw [hevent]; rfl))
  · have hnone : EventLog.starts [(event, c.time)] = [] := by
      cases event with
      | newRequest id =>
        have honce := ((History.once_of_recorded recorded).1 id rfl).2
        exact absurd (Notification.started_of_once honce) hstart
      | _ => rfl
    rw [hnone, List.append_nil]
    exact h.ascending

theorem Books.hear (h : l₀.Books incidents)
    (orderly : Incident.Orderly (incidents ++ [.told c])) :
    l₀.Books (incidents ++ [.told c]) := by
  have hafter : l₀.undergoAll (incidents ++ [.told c]) = (l₀.undergoAll incidents).hear c :=
    undergoAll_concat ..
  have hheard : ∀ i n, n ∈ Incident.heard i incidents →
      n ∈ Incident.heard i (incidents ++ [.told c]) := fun i n hn => by
    rw [Incident.heard_append]
    exact List.mem_append_left _ hn
  have hnow : c.notification ∈ Incident.heard c.request (incidents ++ [.told c]) := by
    rw [Incident.heard_append, Incident.heard_told, if_pos rfl]
    exact List.mem_append_right _ (List.mem_singleton_self _)
  constructor
  case numbered => exact hafter ▸ h.numbered.hear c
  case unstarted =>
    intro i hi
    refine Option.eq_none_iff_forall_not_mem.mpr fun id hid => ?_
    rw [hafter, Option.mem_def] at hid
    rcases requestId?_hear hid with ⟨hknown, -⟩ | ⟨rfl, hstart, -⟩
    · rw [h.unstarted i fun hn => hi (hheard i _ hn)] at hknown
      cases hknown
    · exact hi (hstart ▸ hnow)
  case recorded =>
    intro x hx
    rcases mem_account_told.mp hx with hx | ⟨rfl, hentry⟩
    · obtain ⟨hmem, hrecorded⟩ := h.recorded x hx
      exact ⟨hheard _ _ hmem, hrecorded⟩
    · exact ⟨hnow, _, _, hentry⟩
  case owner =>
    intro x hx id names
    rw [hafter]
    rcases mem_account_told.mp hx with hx | ⟨rfl, hentry⟩
    · exact h.requestId?_kept orderly (h.owner x hx id names)
    · rw [hear_tracking, if_pos rfl]
      exact History.requestId?_of_recorded hentry names
  case ended =>
    rw [hafter]
    exact h.numbered.closes_told h.ended
  case order => exact pairwise_account_told h.order fun _ hentry => h.mayFollow orderly hentry
  case ascending =>
    rw [written_told]
    cases hentry : (l₀.undergoAll incidents).noted? c with
    | none => exact (List.append_nil _).symm ▸ h.ascending
    | some event => exact h.ascending_concat hentry
  case held =>
    rw [hafter, hear_eq, written_told, History.after_events]
    obtain ⟨before, hbefore⟩ := h.held
    exact ⟨before, by rw [← hbefore, List.append_assoc]; rfl⟩

theorem Books.take (h : l₀.Books incidents) : l₀.Books (incidents ++ [.taken]) := by
  have hwritten : l₀.written (incidents ++ [.taken]) = l₀.written incidents := by
    rw [written, account_taken, written]
  constructor
  case held =>
    rw [undergoAll_concat]
    exact List.nil_suffix
  all_goals
    simp only [account_taken, Incident.heard_taken, hwritten, undergoAll_concat]
  case numbered => exact h.numbered.undergo .taken
  case unstarted => exact h.unstarted
  case recorded => exact h.recorded
  case owner => exact h.owner
  case ended => exact h.ended
  case order => exact h.order
  case ascending => exact h.ascending

theorem books_start (statement : Nat → Option TrackedStatement) :
    (start statement).Books [] where
  numbered := numbered_start statement
  unstarted _ _ := rfl
  recorded := by simp [account]
  owner := by simp [account]
  ended := by simp [account]
  order := .nil
  ascending := List.Pairwise.nil
  held := List.nil_suffix

/-- Books are kept of whatever happens to requests that tell once what is told once. -/
theorem books (statement : Nat → Option TrackedStatement) (incidents : List Incident)
    (orderly : Incident.Orderly incidents) : (start statement).Books incidents := by
  induction incidents using List.reverseRecOn with
  | nil => exact books_start statement
  | append_singleton incidents incident ih =>
    have hbooks := ih orderly.of_append
    cases incident with
    | told c => exact hbooks.hear orderly
    | taken => exact hbooks.take

end Keeping

end Ledger

-- ============================================================================
-- Logs that can be held
-- ============================================================================

namespace EventLog

variable {l l' : EventLog}

theorem Sound.suffix (h : l'.Sound) (suffix : l <:+ l') : l.Sound where
  order := h.order.sublist suffix.sublist
  later entry mem := h.later entry (suffix.subset mem)

theorem ascending_suffix (h : Ascending l'.starts) (suffix : l <:+ l') : Ascending l.starts :=
  List.Pairwise.sublist ((suffix.sublist.filterMap _).map _) h

/-- The arrangement of a log by requests is what the log says: one entry for each start of a
    request, with its attempts, executions and results. It depends only on what the log says of
    each request, not on how the events of different requests are interleaved. -/
structure Faithful (l : EventLog) : Prop where
  arranged : (RequestHistory.ofEvents l).1 = l.arranged
  reordered : ∀ attemptOwner (l' : EventLog), Owns attemptOwner l →
    (∀ id, l.about attemptOwner id = l'.about attemptOwner id) →
      (RequestHistory.ofEvents l').1 = (RequestHistory.ofEvents l).1

end EventLog

namespace Ledger

variable {l₀ : Ledger} {incidents : List Incident}

theorem Books.sound (h : l₀.Books incidents) (orderly : Incident.Orderly incidents) :
    (l₀.written incidents).Sound where
  order := List.pairwise_map.mpr h.order
  later := by
    intro entry hentry id index hevent
    obtain ⟨x, hx, rfl⟩ := List.mem_map.mp hentry
    obtain ⟨hheard, h', t', hrecorded⟩ := h.recorded x hx
    dsimp only at hevent
    rw [hevent] at hrecorded
    have honce := ((History.once_of_recorded hrecorded).2.1 id index rfl).2
    cases hn : x.1.notification <;> rw [hn] at honce hheard <;> cases honce
    exact orderly.later _ _ _ hheard

/-- Whatever a collector hears of requests, in any interleaving, and whenever its log is taken
    out: the log that it holds is arranged faithfully. -/
theorem faithful (statement : Nat → Option TrackedStatement) (incidents : List Incident)
    (requests : Incident.FromRequests incidents) :
    EventLog.Faithful ((start statement).undergoAll incidents).history.events := by
  have hbooks := books statement incidents requests.orderly
  have hsound := (hbooks.sound requests.orderly).suffix hbooks.held
  exact {
    arranged := hsound.arranged (EventLog.ascending_suffix hbooks.ascending hbooks.held)
    reordered := fun _ _ owns same => hsound.arrangement_reordered owns same }

/-- Two requests that succeed at their first attempts, the second one of which is heard of in
    between. -/
def interleaved : List Incident :=
  let told request notification := Incident.told ⟨request, notification, .start, {}⟩
  [told 0 .requestStarted, told 1 .requestStarted, told 0 (.nodeStarted ⟨default, 0, 1⟩),
    told 1 (.nodeStarted ⟨default, 0, 1⟩), told 1 (.nodeSucceeded ⟨default, 0, 1⟩),
    told 0 (.nodeSucceeded ⟨default, 0, 1⟩), told 1 (.requestSucceeded Request.sampleAnswer),
    told 0 (.requestSucceeded Request.sampleAnswer)]

theorem interleaved_fromRequests : Incident.FromRequests interleaved := by
  intro i
  have hnotices : Deed.notices (Request.log Request.sampleSteps) =
      [.requestStarted, .nodeStarted ⟨default, 0, 1⟩, .nodeSucceeded ⟨default, 0, 1⟩,
        .requestSucceeded Request.sampleAnswer] := by decide +kernel
  refine ⟨_, _, _, Request.sampleRun, ?_⟩
  rw [hnotices]
  match i with
  | 0 | 1 => exact List.Perm.subperm (.refl _)
  | _ + 2 => exact List.nil_subperm

/-- The log that is held then. -/
def interleavedLog : EventLog :=
  ((start fun _ => none).undergoAll interleaved).history.events

/-- Each of two interleaved requests is arranged with its own attempt and results. -/
theorem faithful_of_interleaved : EventLog.Faithful interleavedLog ∧
    interleavedLog.arranged.map (fun r => (r.main.attempts.map (·.result), r.result)) =
      List.replicate 2 ([some (.success .start)], some (.success .start)) :=
  ⟨Ledger.faithful _ _ interleaved_fromRequests, by decide +kernel⟩

end Ledger

end RequestEngine
