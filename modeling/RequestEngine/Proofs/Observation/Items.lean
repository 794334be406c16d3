/-
  RequestEngine.Proofs.Observation.Items

  Items that observers leave with a request.  Insertions and removals act on one
  key each, and the provided observers keep to keys that begin with a letter of
  their own, so what one kind of them leaves is not seen by another.

    * `item?_insert`, `item?_take`  — what is found after an insertion or a removal;
    * `SameItems c t t'`            — the same items under keys with first letter `c`;
    * `History.leaves`, `Metrics.leaves` — the items that are left after a
      notification was recorded; a second observer of the same kind leaves the same.
-/
import RequestEngine.Observation.Collectors
import RequestEngine.Observation.Tracer

namespace RequestEngine

namespace Tracking

variable {t t' t'' : Tracking} {key key' : String} {item : Item} {type : ItemType} {c : Char}

-- ============================================================================
-- Single items
-- ============================================================================

theorem item?_drop (t : Tracking) (key key' : String) :
    (t.drop key).item? key' = if key' = key then none else t.item? key' := by
  obtain ⟨statement, items⟩ := t
  simp only [drop, item?]
  induction items with
  | nil => simp
  | cons head rest ih =>
    obtain ⟨k, i⟩ := head
    by_cases hk : k = key
    · subst hk
      rw [List.filter_cons_of_neg (by simp), ih]
      by_cases hkey : key' = k
      · rw [if_pos hkey, if_pos hkey]
      · rw [if_neg hkey, if_neg hkey, List.lookup_cons, beq_false_of_ne hkey]
    · rw [List.filter_cons_of_pos (by simpa using hk), List.lookup_cons, List.lookup_cons, ih]
      by_cases hkey : key' = k
      · subst hkey
        simp [hk]
      · rw [beq_false_of_ne hkey]

theorem item?_insert (t : Tracking) (key key' : String) (item : Item) :
    (t.insert key item).1.item? key' = if key' = key then some item else t.item? key' := by
  by_cases hkey : key' = key
  · simp [insert, item?, hkey]
  · have hdrop := item?_drop t key key'
    rw [if_neg hkey] at hdrop ⊢
    rw [← hdrop]
    simp [insert, item?, List.lookup_cons, beq_false_of_ne hkey]

theorem get_congr (same : t.item? key = t'.item? key) : t.get key type = t'.get key type := by
  rw [get, get, same]

/-- A removal gives what was found. -/
theorem take_eq (t : Tracking) (key : String) (type : ItemType) :
    t.take key type = (if (t.get key type).isSome then t.drop key else t, t.get key type) := by
  unfold take
  cases t.get key type <;> rfl

theorem statement_take (t : Tracking) (key : String) (type : ItemType) :
    (t.take key type).1.statement = t.statement := by
  rw [take_eq]
  cases (t.get key type).isSome <;> rfl

theorem item?_take (t : Tracking) (key key' : String) (type : ItemType) :
    (t.take key type).1.item? key' =
      if key' = key ∧ (t.get key type).isSome then none else t.item? key' := by
  rw [take_eq]
  by_cases hfound : (t.get key type).isSome
  · rw [if_pos hfound, item?_drop]
    simp [hfound]
  · rw [if_neg hfound]
    simp [hfound]

/-- After a removal nothing of that type is found. -/
theorem get_take (t : Tracking) (key : String) (type : ItemType) :
    (t.take key type).1.get key type = none := by
  rw [get, item?_take]
  cases hfound : t.get key type with
  | some => simp
  | none =>
    rw [if_neg (by simp)]
    exact hfound

-- ============================================================================
-- Items of one kind of observers
-- ============================================================================

/-- The same items under keys with a given first letter. -/
def SameItems (c : Char) (t t' : Tracking) : Prop :=
  ∀ key : String, key.toList.head? = some c → t.item? key = t'.item? key

namespace SameItems

theorem refl (c : Char) (t : Tracking) : SameItems c t t := fun _ _ => rfl

theorem symm (h : SameItems c t t') : SameItems c t' t := fun key own => (h key own).symm

theorem trans (h : SameItems c t t') (h' : SameItems c t' t'') : SameItems c t t'' :=
  fun key own => (h key own).trans (h' key own)

theorem get (h : SameItems c t t') (own : key.toList.head? = some c) (type : ItemType) :
    t.get key type = t'.get key type :=
  get_congr (h key own)

theorem insert (h : SameItems c t t') (key : String) (item : Item) :
    SameItems c (t.insert key item).1 (t'.insert key item).1 := by
  intro key' own
  rw [item?_insert, item?_insert, h key' own]

theorem take (h : SameItems c t t') (own : key.toList.head? = some c) (type : ItemType) :
    SameItems c (t.take key type).1 (t'.take key type).1 := by
  intro key' own'
  rw [item?_take, item?_take, h key' own', h.get own]

/-- What is inserted under keys of others is not seen. -/
theorem insert_other (other : key.toList.head? ≠ some c) (item : Item) :
    SameItems c (t.insert key item).1 t := by
  intro key' own
  have hne : key' ≠ key := by
    rintro rfl
    exact other own
  rw [item?_insert, if_neg hne]

theorem take_other (other : key.toList.head? ≠ some c) (type : ItemType) :
    SameItems c (t.take key type).1 t := by
  intro key' own
  have hne : key' ≠ key := by
    rintro rfl
    exact other own
  rw [item?_take, if_neg (fun h => hne h.1)]

/-- Inserting an item once more changes nothing. -/
theorem insert_again (t : Tracking) (key : String) (item : Item) :
    SameItems c ((t.insert key item).1.insert key item).1 (t.insert key item).1 := by
  intro key' _
  rw [item?_insert, item?_insert]
  split <;> rfl

/-- There is nothing left for a second removal. -/
theorem take_again (t : Tracking) (key : String) (type : ItemType) :
    SameItems c ((t.take key type).1.take key type).1 (t.take key type).1 := by
  intro key' _
  rw [item?_take, get_take, if_neg (by simp)]

end SameItems

end Tracking

open Tracking

/-- The first letter of an item's key is that of its base. -/
theorem HostInfo.head?_itemKey {base : String} {c : Char} (first : base.toList.head? = some c)
    (h : HostInfo) : (h.itemKey base).toList.head? = some c := by
  rw [itemKey, String.toList_append, String.toList_append, List.append_assoc, List.head?_append,
    first]
  rfl

-- ============================================================================
-- Metrics
-- ============================================================================

namespace Metrics

variable {m : Metrics} {t t' : Tracking} {now : Instant} {n : Notification}

theorem head?_key (h : HostInfo) : (h.itemKey startKey).toList.head? = some 'm' :=
  h.head?_itemKey rfl

/-- The items that are left once a notification was counted. -/
def leaves (t : Tracking) (now : Instant) : Notification → Tracking
  | .nodeStarted host => (t.insert (host.itemKey startKey) (.instant now)).1
  | .nodeFailed host .. | .nodeSucceeded host => (t.take (host.itemKey startKey) .instant).1
  | _ => t

/-- The same without the latencies. -/
def withoutLatencies (m : Metrics) : Metrics :=
  { m with latencies := {} }

theorem record_tracking (m : Metrics) (t : Tracking) (now : Instant) (n : Notification) :
    (m.record t now n).2.1 = leaves t now n := by
  cases n with
  | nodeSucceeded host =>
    simp only [record, leaves]
    split
    · rename_i htake
      rw [htake]
    · rename_i htake
      rw [htake]
  | _ => rfl

theorem statement_leaves (t : Tracking) (now : Instant) (n : Notification) :
    (leaves t now n).statement = t.statement := by
  cases n with
  | nodeFailed | nodeSucceeded => exact statement_take ..
  | _ => rfl

/-- Metrics touch no items but their own. -/
theorem leaves_other {c : Char} (other : c ≠ 'm') (t : Tracking) (now : Instant)
    (n : Notification) : SameItems c (leaves t now n) t := by
  have hkey (host : HostInfo) : (host.itemKey startKey).toList.head? ≠ some c := by
    rw [head?_key]
    exact fun heq => other (Option.some.inj heq).symm
  cases n with
  | nodeStarted host => exact .insert_other (hkey host) _
  | nodeFailed host | nodeSucceeded host => exact .take_other (hkey host) _
  | _ => exact .refl _ _

theorem leaves_congr (same : SameItems 'm' t t') :
    SameItems 'm' (leaves t now n) (leaves t' now n) := by
  cases n with
  | nodeStarted => exact same.insert _ _
  | nodeFailed host | nodeSucceeded host => exact same.take (head?_key host) _
  | _ => exact same

theorem leaves_again (t : Tracking) (now : Instant) (n : Notification) :
    SameItems 'm' (leaves (leaves t now n) now n) (leaves t now n) := by
  cases n with
  | nodeStarted => exact .insert_again _ _ _
  | nodeFailed | nodeSucceeded => exact .take_again _ _ _
  | _ => exact .refl _ _

/-- A success is counted if the start of its attempt is found. -/
theorem record_nodeSucceeded (m : Metrics) (t : Tracking) (now : Instant) (host : HostInfo) :
    (m.record t now (.nodeSucceeded host)).1 =
      match t.get (host.itemKey startKey) .instant with
      | some (.instant started) => (m.logLatency (now.since started)).1
      | _ => m := by
  simp only [record, take_eq]
  generalize t.get (host.itemKey startKey) .instant = found
  cases found with
  | none => rfl
  | some item => cases item <;> rfl

/-- Counters and latencies depend on the items of metrics alone. -/
theorem record_congr (same : SameItems 'm' t t') :
    (m.record t now n).1 = (m.record t' now n).1 := by
  cases n with
  | nodeSucceeded host =>
    rw [record_nodeSucceeded, record_nodeSucceeded, same.get (head?_key host) .instant]
  | _ => rfl

theorem withoutLatencies_logLatency (m : Metrics) (latency : Duration) :
    (m.logLatency latency).1.withoutLatencies = m.withoutLatencies := by
  unfold logLatency
  split <;> rfl

/-- Where metrics have recorded a notification, others count the same but find no start of an
    attempt, so they store no latency. -/
theorem record_late (same : SameItems 'm' t' (leaves t now n)) (m : Metrics) (t'' : Tracking) :
    (m.withoutLatencies.record t' now n).1 = (m.record t'' now n).1.withoutLatencies := by
  cases n with
  | nodeSucceeded host =>
    have hnone : t'.get (host.itemKey startKey) .instant = none := by
      rw [same.get (head?_key host) .instant]
      exact get_take ..
    rw [record_nodeSucceeded, hnone, record_nodeSucceeded]
    change m.withoutLatencies = _
    split
    · exact (withoutLatencies_logLatency ..).symm
    · rfl
  | _ => rfl

end Metrics

-- ============================================================================
-- Histories
-- ============================================================================

namespace HistoryEvent

/-- Whether an event is the end of an attempt. -/
def endsAttempt : HistoryEvent → Bool
  | .attemptSuccess _ | .attemptError .. => true
  | _ => false

end HistoryEvent

namespace History

variable {h g : History} {t t' : Tracking} {now : Instant} {n : Notification}

theorem head?_requestKey : requestKey.toList.head? = some 'h' := rfl

theorem head?_attemptKey (h : HostInfo) : (h.itemKey attemptKey).toList.head? = some 'h' :=
  h.head?_itemKey rfl

/-- The number of a request is kept apart from those of its attempts. -/
theorem requestKey_ne (h : HostInfo) : requestKey ≠ h.itemKey attemptKey := by
  intro heq
  have hninth := congrArg (fun key => key.toList[8]?) heq
  rw [HostInfo.itemKey] at hninth
  simp only [String.toList_append, List.append_assoc] at hninth
  rw [List.getElem?_append_left (by decide)] at hninth
  revert hninth
  decide

/-- The number of a request, if it is known. -/
def requestId? (t : Tracking) : Option RequestId :=
  match t.get requestKey .request with
  | some (.request id) => some id
  | _ => none

/-- The number of an attempt, if it is known. -/
def attemptId? (t : Tracking) (host : HostInfo) : Option AttemptId :=
  match t.get (host.itemKey attemptKey) .attempt with
  | some (.attempt id) => some id
  | _ => none

/-- The event that a notification is recorded as, unless it is refused. -/
def recorded? (h : History) (t : Tracking) : Notification → Option HistoryEvent
  | .requestStarted => some (.newRequest h.nextRequest)
  | .speculated host _ => (requestId? t).map (.newSpeculativeExecution · host.execution)
  | .nodeStarted host =>
    (requestId? t).map (.newAttempt h.nextAttempt · host.execution host.node.address)
  | .nodeFailed host _ decision error => (attemptId? t host).map (.attemptError · error decision)
  | .nodeSucceeded host => (attemptId? t host).map .attemptSuccess
  | .requestSucceeded _ => (requestId? t).map .requestSuccess
  | .requestFailed error => (requestId? t).map (.requestError · error)
  | .requestCancelled => (requestId? t).map .requestCancelled

/-- Why a notification is refused, if it is. -/
def refusal? (t : Tracking) : Notification → Option Refusal
  | .requestStarted => none
  | .nodeFailed host .. | .nodeSucceeded host =>
    if (attemptId? t host).isSome then none else some (.attemptNotStarted host.node)
  | .nodeStarted _ | .speculated .. | .requestSucceeded _ | .requestFailed _
  | .requestCancelled => if (requestId? t).isSome then none else some .requestNotStarted

/-- The history with the next number handed out, if the notification is about a start. -/
def handOut (h : History) : Notification → History
  | .requestStarted => { h with nextRequest := ⟨h.nextRequest.value + 1⟩ }
  | .nodeStarted _ => { h with nextAttempt := ⟨h.nextAttempt.value + 1⟩ }
  | _ => h

/-- The history once a notification was recorded or refused. -/
def after (h : History) (t : Tracking) (now : Instant) (n : Notification) : History :=
  match h.recorded? t n with
  | some event => (h.handOut n).add event now
  | none => h

/-- The items that are left then. -/
def leaves (h : History) (t : Tracking) : Notification → Tracking
  | .requestStarted => (t.insert requestKey (.request h.nextRequest)).1
  | .nodeStarted host =>
    match requestId? t with
    | some _ => (t.insert (host.itemKey attemptKey) (.attempt h.nextAttempt)).1
    | none => t
  | .nodeFailed host .. | .nodeSucceeded host => (t.take (host.itemKey attemptKey) .attempt).1
  | _ => t

/-- The same without the ends of attempts. -/
def withoutEnds (h : History) : History :=
  { h with events := h.events.filter fun e => !e.1.endsAttempt }

/-- Two histories hand out the same numbers next. -/
def SameNumbers (h g : History) : Prop :=
  h.nextRequest = g.nextRequest ∧ h.nextAttempt = g.nextAttempt

/-! ## Recording -/

namespace Recording

variable {α β : Type} (s : History × Tracking)

/-- What follows an action that is refused is not done. -/
theorem run_bind (action : Recording α) (next : α → Recording β) :
    (action >>= next).run.run s = match action.run.run s with
      | (.ok result, s) => (next result).run.run s
      | (.error refusal, s) => (.error refusal, s) := by
  change (ExceptT.bindCont next (action.run.run s).1).run (action.run.run s).2 = _
  cases action.run.run s with
  | mk result s => cases result <;> rfl

theorem run_get : (get : Recording (History × Tracking)).run.run s = (.ok s, s) := rfl

theorem run_set (s' : History × Tracking) : (set s' : Recording PUnit).run.run s = (.ok ⟨⟩, s') :=
  rfl

theorem run_requestId : requestId.run.run s = match requestId? s.2 with
    | some id => (.ok id, s)
    | none => (.error .requestNotStarted, s) := by
  rw [requestId, run_bind, run_get, requestId?]
  dsimp only
  cases s.2.get requestKey .request with
  | none => rfl
  | some item => cases item <;> rfl

/-- The item that is looked for is removed, if it is there. -/
theorem run_finishedAttempt (host : HostInfo) :
    (finishedAttempt host).run.run s = match attemptId? s.2 host with
      | some id => (.ok id, s.1, (s.2.take (host.itemKey attemptKey) .attempt).1)
      | none => (.error (.attemptNotStarted host.node), s.1,
          (s.2.take (host.itemKey attemptKey) .attempt).1) := by
  rw [finishedAttempt, run_bind, run_get]
  dsimp only
  rw [run_bind, run_set, take_eq, attemptId?]
  dsimp only
  cases s.2.get (host.itemKey attemptKey) .attempt with
  | none => rfl
  | some item => cases item <;> rfl

end Recording

/-- An attempt without a number has no item that could be removed. -/
theorem take_of_unknown {host : HostInfo} (unknown : attemptId? t host = none) :
    (t.take (host.itemKey attemptKey) .attempt).1 = t := by
  rw [take_eq]
  cases hfound : t.get (host.itemKey attemptKey) .attempt with
  | none => rfl
  | some item =>
    -- what is found is of the type that was asked for
    have htype := (Option.filter_eq_some_iff.mp hfound).2
    cases item with
    | attempt id =>
      rw [attemptId?, hfound] at unknown
      cases unknown
    | _ => cases htype

/-- Recording a notification gives these, and they are left even where it is refused. -/
theorem record_spec (h : History) (t : Tracking) (now : Instant) (n : Notification) :
    h.record t now n = (h.after t now n, h.leaves t n, refusal? t n) := by
  cases n with
  | requestStarted => rfl
  | nodeStarted | speculated | requestSucceeded | requestFailed | requestCancelled =>
    simp only [record, Recording.of, Recording.run_bind, Recording.run_requestId, after, recorded?,
      leaves, refusal?]
    cases requestId? t <;> rfl
  | nodeFailed host | nodeSucceeded host =>
    simp only [record, Recording.of, Recording.run_bind, Recording.run_finishedAttempt, after,
      recorded?, leaves, refusal?]
    cases attemptId? t host <;> rfl

/-- What is refused is not recorded. -/
theorem refusal?_eq_none_iff : refusal? t n = none ↔ (h.recorded? t n).isSome = true := by
  cases n with
  | requestStarted => exact iff_of_true rfl rfl
  | nodeStarted | speculated | requestSucceeded | requestFailed | requestCancelled =>
    rw [refusal?, recorded?]
    cases requestId? t <;> simp
  | nodeFailed host | nodeSucceeded host =>
    rw [refusal?, recorded?]
    cases attemptId? t host <;> simp

theorem recorded?_of_refused {refusal : Refusal} (refused : refusal? t n = some refusal) :
    h.recorded? t n = none := by
  rw [← Option.not_isSome_iff_eq_none, ← refusal?_eq_none_iff, refused]
  exact Option.some_ne_none refusal

/-- What is refused leaves the history as it was. -/
theorem after_of_refused {refusal : Refusal} (refused : refusal? t n = some refusal) :
    h.after t now n = h := by
  rw [after, recorded?_of_refused refused]

/-- What is refused leaves the items as they were: a number that is not found is not removed. -/
theorem leaves_of_refused {refusal : Refusal} (refused : refusal? t n = some refusal) :
    h.leaves t n = t := by
  cases n with
  | requestStarted => cases refused
  | nodeStarted host =>
    rw [refusal?] at refused
    rw [leaves]
    cases hid : requestId? t with
    | none => rfl
    | some id =>
      rw [hid] at refused
      cases refused
  | nodeFailed host | nodeSucceeded host =>
    rw [refusal?] at refused
    cases hid : attemptId? t host with
    | none => exact take_of_unknown hid
    | some id =>
      rw [hid] at refused
      cases refused
  | speculated | requestSucceeded | requestFailed | requestCancelled => rfl

theorem statement_leaves (h : History) (t : Tracking) (n : Notification) :
    (h.leaves t n).statement = t.statement := by
  cases n with
  | nodeFailed | nodeSucceeded => exact statement_take ..
  | nodeStarted =>
    rw [leaves]
    split <;> rfl
  | _ => rfl

/-- Histories touch no items but their own. -/
theorem leaves_other {c : Char} (other : c ≠ 'h') (h : History) (t : Tracking)
    (n : Notification) : SameItems c (h.leaves t n) t := by
  have hkey (host : HostInfo) : (host.itemKey attemptKey).toList.head? ≠ some c := by
    rw [head?_attemptKey]
    exact fun heq => other (Option.some.inj heq).symm
  have hrequest : requestKey.toList.head? ≠ some c := by
    rw [head?_requestKey]
    exact fun heq => other (Option.some.inj heq).symm
  cases n with
  | requestStarted => exact .insert_other hrequest _
  | nodeStarted host =>
    rw [leaves]
    split
    · exact .insert_other (hkey host) _
    · exact .refl _ _
  | nodeFailed host | nodeSucceeded host => exact .take_other (hkey host) _
  | speculated | requestSucceeded | requestFailed | requestCancelled => exact .refl _ _

/-! ## Histories beside each other -/

theorem SameNumbers.refl (h : History) : SameNumbers h h := ⟨rfl, rfl⟩

theorem requestId?_eq (same : t.item? requestKey = t'.item? requestKey) :
    requestId? t = requestId? t' := by
  rw [requestId?, requestId?, get_congr same]

section Congruence

variable (same : SameItems 'h' t t')

include same

theorem requestId?_congr : requestId? t = requestId? t' :=
  requestId?_eq (same _ head?_requestKey)

theorem attemptId?_congr (host : HostInfo) : attemptId? t host = attemptId? t' host := by
  rw [attemptId?, attemptId?, same.get (head?_attemptKey host)]

/-- What is recorded depends on the items and the numbers of histories alone. -/
theorem recorded?_congr (numbers : SameNumbers h g) : h.recorded? t n = g.recorded? t' n := by
  obtain ⟨hrequest, hattempt⟩ := numbers
  cases n <;>
    simp only [recorded?, requestId?_congr same, attemptId?_congr same, hrequest, hattempt]

theorem after_congr (h : History) (now : Instant) (n : Notification) :
    h.after t now n = h.after t' now n := by
  rw [after, after, recorded?_congr same (.refl h)]

theorem leaves_congr (numbers : SameNumbers h g) :
    SameItems 'h' (h.leaves t n) (g.leaves t' n) := by
  obtain ⟨hrequest, hattempt⟩ := numbers
  cases n with
  | requestStarted =>
    rw [leaves, leaves, hrequest]
    exact same.insert _ _
  | nodeStarted =>
    rw [leaves, leaves, requestId?_congr same, hattempt]
    split
    · exact same.insert _ _
    · exact same
  | nodeFailed host | nodeSucceeded host => exact same.take (head?_attemptKey host) _
  | speculated | requestSucceeded | requestFailed | requestCancelled => exact same

end Congruence

theorem handOut_numbers (numbers : SameNumbers h g) (event event' : HistoryEvent) :
    SameNumbers ((h.handOut n).add event now) ((g.handOut n).add event' now) := by
  obtain ⟨hrequest, hattempt⟩ := numbers
  cases n with
  | requestStarted => exact ⟨by simp [handOut, add, hrequest], hattempt⟩
  | nodeStarted => exact ⟨hrequest, by simp [handOut, add, hattempt]⟩
  | _ => exact ⟨hrequest, hattempt⟩

/-- Histories that record the same go on with the same numbers. -/
theorem after_numbers (same : SameItems 'h' t t') (numbers : SameNumbers h g) :
    SameNumbers (h.after t now n) (g.after t' now n) := by
  rw [after, recorded?_congr same numbers, after]
  cases g.recorded? t' n with
  | none => exact numbers
  | some => exact handOut_numbers numbers _ _

/-- Only the start of a request changes its number. -/
theorem requestId?_leaves (h : History) (t : Tracking) (later : n ≠ .requestStarted) :
    requestId? (h.leaves t n) = requestId? t := by
  have other (host : HostInfo) : ¬ requestKey = host.itemKey attemptKey := requestKey_ne host
  cases n with
  | requestStarted => exact absurd rfl later
  | nodeStarted host =>
    rw [leaves]
    split
    · exact requestId?_eq (by rw [item?_insert, if_neg (other host)])
    · rfl
  | nodeFailed host | nodeSucceeded host =>
    exact requestId?_eq (by rw [leaves, item?_take, if_neg fun h => other host h.1])
  | speculated | requestSucceeded | requestFailed | requestCancelled => rfl

theorem attemptId?_take (t : Tracking) (host : HostInfo) :
    attemptId? (t.take (host.itemKey attemptKey) .attempt).1 host = none := by
  rw [attemptId?, get_take]

/-- A second history leaves the same items. -/
theorem leaves_again (numbers : SameNumbers h g) :
    SameItems 'h' (g.leaves (h.leaves t n) n) (h.leaves t n) := by
  obtain ⟨hrequest, hattempt⟩ := numbers
  cases n with
  | requestStarted =>
    rw [leaves, leaves, ← hrequest]
    exact .insert_again _ _ _
  | nodeStarted host =>
    have hid := requestId?_leaves h t (n := .nodeStarted host) Notification.noConfusion
    rw [leaves, hid, leaves, ← hattempt]
    cases requestId? t with
    | some => exact .insert_again _ _ _
    | none => exact .refl _ _
  | nodeFailed | nodeSucceeded => exact .take_again _ _ _
  | speculated | requestSucceeded | requestFailed | requestCancelled => exact .refl _ _

/-- A second history records the same, but finds no number of an attempt that ends. -/
theorem recorded?_late (same : SameItems 'h' t' (h.leaves t n)) (numbers : SameNumbers h g) :
    g.recorded? t' n = (h.recorded? t n).filter (!·.endsAttempt) := by
  obtain ⟨hrequest, hattempt⟩ := numbers
  have known (later : n ≠ .requestStarted) : requestId? t' = requestId? t :=
    (requestId?_congr same).trans (requestId?_leaves h t later)
  cases n with
  | requestStarted =>
    rw [recorded?, recorded?, hrequest]
    rfl
  | speculated | requestSucceeded | requestFailed | requestCancelled | nodeStarted =>
    simp only [recorded?, known Notification.noConfusion, hattempt]
    cases requestId? t <;> rfl
  | nodeFailed host | nodeSucceeded host =>
    have hnone := (attemptId?_congr same host).trans (attemptId?_take t host)
    simp only [recorded?, hnone]
    cases attemptId? t host <;> rfl

theorem withoutEnds_add (h : History) (event : HistoryEvent) (now : Instant) :
    (h.add event now).withoutEnds =
      if event.endsAttempt then h.withoutEnds else h.withoutEnds.add event now := by
  cases hends : event.endsAttempt <;> simp [withoutEnds, add, List.filter_append, hends]

/-- No number is handed out at the end of an attempt. -/
theorem handOut_of_end {event : HistoryEvent} (recorded : h.recorded? t n = some event)
    (ends : event.endsAttempt = true) : h.handOut n = h := by
  cases n with
  | requestStarted =>
    cases recorded
    cases ends
  | nodeStarted =>
    obtain ⟨id, -, rfl⟩ := Option.map_eq_some_iff.mp recorded
    cases ends
  | _ => rfl

/-- A second history goes on with the same numbers. -/
theorem after_numbers_late (same : SameItems 'h' t' (h.leaves t n)) (numbers : SameNumbers h g) :
    SameNumbers (h.after t now n) (g.after t' now n) := by
  rw [after, after, recorded?_late same numbers]
  cases hrecorded : h.recorded? t n with
  | none => exact numbers
  | some event =>
    rw [Option.filter_some]
    cases hends : event.endsAttempt with
    | true =>
      dsimp only
      rw [handOut_of_end hrecorded hends]
      exact numbers
    | false => exact handOut_numbers numbers _ _

/-- Where a history has recorded a notification, a second one that lacks the ends of attempts goes
    on to lack them, and nothing else. -/
theorem after_late (same : SameItems 'h' t' (h.leaves t n)) :
    h.withoutEnds.after t' now n = (h.after t now n).withoutEnds := by
  have hnumbers : SameNumbers h h.withoutEnds := ⟨rfl, rfl⟩
  rw [after, recorded?_late same hnumbers, after]
  cases hrecorded : h.recorded? t n with
  | none => rfl
  | some event =>
    rw [Option.filter_some]
    cases hends : event.endsAttempt with
    | true =>
      dsimp only
      rw [withoutEnds_add, hends, if_pos rfl, handOut_of_end hrecorded hends]
      rfl
    | false =>
      dsimp only
      rw [withoutEnds_add, hends, if_neg Bool.false_ne_true]
      cases n <;> rfl

end History

end RequestEngine
