/-
  RequestEngine.Proofs.Observation.Recount

  What the arrangement of a log contains that is only a piece of what was written.
  Requests and attempts in it may have been started before, requests may have been
  told to start, to speculate or to end more than once, and a speculative execution
  may go by the index of the initial one.  The arrangement can be read off such a
  log nevertheless, and what the log says of requests and attempts that it does not
  start is of no account.

    * `EventLog.Coherent`   — numbers ascend, nothing is named before its start, and
      attempts end once;
    * `EventLog.recounted`  — the arrangement, read off the log;
    * `Collected.Reads`     — what was collected of a log;
    * `EventLog.Coherent.recounted` — the arrangement of a coherent log;
    * `EventLog.Coherent.without`   — leaving out what is foreign to a log.
-/
import RequestEngine.Proofs.Observation.Ledger

namespace RequestEngine

-- ============================================================================
-- Entries in order of their keys
-- ============================================================================

section Entries

variable {α β : Type} {entries : List (Nat × α)} {key : Nat}

/-- A key that is greater than all others comes last. -/
theorem putAt_of_lt (value : α) (greater : ∀ k ∈ entries.map Prod.fst, k < key) :
    putAt key value entries = entries ++ [(key, value)] := by
  induction entries with
  | nil => rfl
  | cons head rest ih =>
    obtain ⟨k, v⟩ := head
    have hlt : k < key := greater k List.mem_cons_self
    rw [putAt, if_neg (by omega), if_neg (by omega),
      ih fun j hj => greater j (List.mem_cons_of_mem k hj)]
    rfl

theorem putAt_map (f : α → β) (key : Nat) (value : α) (entries : List (Nat × α)) :
    putAt key (f value) (entries.map fun x => (x.1, f x.2)) =
      (putAt key value entries).map fun x => (x.1, f x.2) := by
  induction entries with
  | nil => rfl
  | cons head rest ih =>
    obtain ⟨k, v⟩ := head
    rw [List.map_cons, putAt, putAt, ih]
    split
    · rfl
    · split <;> rfl

/-- Each key once, in ascending order, with the last value that it had. -/
def latest (entries : List (Nat × α)) : List (Nat × α) :=
  entries.foldl (fun kept x => putAt x.1 x.2 kept) []

theorem latest_concat (entries : List (Nat × α)) (x : Nat × α) :
    latest (entries ++ [x]) = putAt x.1 x.2 (latest entries) := by
  rw [latest, List.foldl_append]
  rfl

end Entries

-- ============================================================================
-- Pieces of what was written
-- ============================================================================

/-- Whether an event may come before another one in what a collector writes: nothing names a
    request before it starts, and an attempt ends once, after its start. -/
def HistoryEvent.MayLead (e e' : HistoryEvent) : Prop :=
  (∀ id, e' = .newRequest id → e.request? ≠ some id) ∧
    ∀ attempt, e.subject = .attempt attempt → e'.subject = .attempt attempt →
      e.isStart = true ∧ e'.isStart = false

namespace EventLog

variable {l part rest : EventLog} {entry : HistoryEvent × Instant} {id : RequestId}
  {attempt : AttemptId}

/-- What may be a piece of what a collector writes. -/
structure Coherent (l : EventLog) : Prop where
  order : l.Pairwise fun a b => a.1.MayLead b.1
  requests : Ascending l.starts
  attempts : Ascending l.sent

theorem Coherent.sublist {l' : EventLog} (coherent : l'.Coherent) (sub : l.Sublist l') :
    l.Coherent where
  order := coherent.order.sublist sub
  requests := List.Pairwise.sublist ((sub.filterMap _).map _) coherent.requests
  attempts := List.Pairwise.sublist ((sub.filterMap _).map _) coherent.attempts

/-- The last event of a coherent log was led by all others. -/
theorem Coherent.led (coherent : Coherent (l ++ [entry])) : ∀ a ∈ l, a.1.MayLead entry.1 :=
  fun a ha => (List.pairwise_append.mp coherent.order).2.2 a ha entry (List.mem_singleton_self _)

/-- The attempts of a speculative execution among those of a part of the log. One that has the
    index of the initial execution has none: they are put into the initial one. -/
def speculativeWithin (l part : EventLog) (id : RequestId) (index : Nat) : List AttemptHistory :=
  if index = 0 then [] else l.attemptsWithin part id index

/-- A speculative execution, as it was started last. -/
def recountedExecution (l : EventLog) (id : RequestId) (x : Nat × Instant) : ExecutionHistory where
  startTime := x.2
  attempts := l.speculativeWithin l id x.1

/-- A request: its initial execution, the speculative ones ordered by index, and the last of its
    results. -/
def recountedRequest (l : EventLog) (x : Nat × Instant) : RequestHistory where
  startTime := x.2
  main := l.execution ⟨x.1⟩ 0 x.2
  speculative := (latest (l.speculations ⟨x.1⟩)).map (l.recountedExecution ⟨x.1⟩)
  result := result l.reverse ⟨x.1⟩

/-- The requests that the log starts, in order. -/
def recounted (l : EventLog) : List RequestHistory :=
  l.starts.map l.recountedRequest

theorem result_reverse_concat (l : EventLog) (entry : HistoryEvent × Instant) (id : RequestId) :
    result (l ++ [entry]).reverse id = (result [entry] id).or (result l.reverse id) := by
  rw [List.reverse_append, List.reverse_singleton, result_append]

end EventLog

-- ============================================================================
-- The first reading
-- ============================================================================

namespace EventLog

variable {l : EventLog} {entry : HistoryEvent × Instant}

/-- A request with its last result, before any attempts are put into its executions. -/
def requestOpened (l : EventLog) (x : Nat × Instant) : RequestHistory where
  startTime := x.2
  main := { startTime := x.2 }
  result := result l.reverse ⟨x.1⟩

/-- An attempt with its result. -/
def attemptEnded (l : EventLog) (x : Nat × AttemptHistory) : AttemptHistory :=
  { x.2 with result := l.attemptResult ⟨x.1⟩ }

theorem requestOpened_concat (silent : ∀ id, result [entry] id = none) :
    requestOpened (l ++ [entry]) = l.requestOpened := by
  funext x
  rw [requestOpened, result_reverse_concat, silent, Option.none_or]
  rfl

theorem attemptEnded_concat (silent : ∀ attempt, attemptResult [entry] attempt = none) :
    attemptEnded (l ++ [entry]) = l.attemptEnded := by
  funext x
  rw [attemptEnded, attemptResult_append, silent, Option.or_none]
  rfl

end EventLog

namespace Collected

open EventLog

variable {c : Collected} {l : EventLog} {entry : HistoryEvent × Instant}

/-- What is collected of a log: the requests that it starts with their last results, the last
    starts of speculative executions, and the attempts that it starts with their results. -/
structure Reads (c : Collected) (l : EventLog) : Prop where
  requests : c.requests = l.starts.map fun x => (x.1, l.requestOpened x)
  executions : ∀ k, c.executionsOf k =
    (latest (l.speculations ⟨k⟩)).map fun x => (x.1, { startTime := x.2 })
  attempts : c.attempts = l.sent.map fun x => (x.1, l.attemptEnded x)

namespace Reads

variable {id : RequestId} {attempt : AttemptId} {index : Nat} {address : Address} {time : Instant}

/-- The start of a request. -/
theorem begin (h : Reads c l) (coherent : Coherent (l ++ [(.newRequest id, time)])) :
    Reads (c.add (.newRequest id, time)) (l ++ [(.newRequest id, time)]) where
  requests := by
    -- nothing was said of the request before, so it has no result, and its number is the greatest
    have hfresh : result l.reverse id = none := by
      apply result_eq_none
      intro a ha hsubject
      have hnamed := (coherent.led a (List.mem_reverse.mp ha)).1 id rfl
      obtain ⟨event, time'⟩ := a
      cases event <;> cases hsubject <;> exact absurd rfl hnamed
    have hgreater : ∀ k ∈ c.requests.map Prod.fst, k < id.value := by
      intro k hk
      have hascending := coherent.requests
      rw [Ascending, starts_append, List.map_append] at hascending
      rw [h.requests, List.map_map] at hk
      exact (List.pairwise_append.mp hascending).2.2 k hk id.value List.mem_cons_self
    have hopened : l.requestOpened (id.value, time) =
        { startTime := time, main := { startTime := time } } := by
      rw [requestOpened]
      show RequestHistory.mk _ _ _ (result l.reverse id) = _
      rw [hfresh]
    rw [requestOpened_concat fun _ => rfl, starts_append, List.map_append, ← h.requests,
      Collected.add, putAt_of_lt _ hgreater]
    show _ = _ ++ [(id.value, l.requestOpened (id.value, time))]
    rw [hopened]
  executions k := by
    have hnone : speculations [(.newRequest id, time)] ⟨k⟩ = [] := rfl
    rw [speculations_append, hnone, List.append_nil]
    exact h.executions k
  attempts := by
    have hnone : sent [(.newRequest id, time)] = [] := rfl
    rw [attemptEnded_concat fun _ => rfl, sent_append, hnone, List.append_nil]
    exact h.attempts

/-- The end of a request. -/
theorem finish {r : RequestResult} (h : Reads c l) (unstarted : EventLog.starts [entry] = [])
    (results : ∀ k, result [entry] k = if id = k then some r else none)
    (executions : ∀ k, EventLog.speculations [entry] k = []) (unsent : EventLog.sent [entry] = [])
    (silent : ∀ attempt, attemptResult [entry] attempt = none) :
    Reads (c.finish id r) (l ++ [entry]) where
  requests := by
    rw [Collected.finish, changeAt, h.requests, starts_append, unstarted, List.append_nil,
      List.map_map]
    apply List.map_congr_left
    intro x hx
    rw [requestOpened, result_reverse_concat, results, Function.comp_apply]
    by_cases hid : id = ⟨x.1⟩
    · rw [if_pos hid, if_pos (congrArg RequestId.value hid).symm]
      rfl
    · have hne : x.1 ≠ id.value := fun heq => hid (heq ▸ rfl)
      rw [if_neg hid, if_neg hne]
      rfl
  executions k := by
    rw [speculations_append, executions, List.append_nil]
    exact h.executions k
  attempts := by
    rw [attemptEnded_concat silent, sent_append, unsent, List.append_nil]
    exact h.attempts

/-- The start of a speculative execution. -/
theorem speculate (h : Reads c l) :
    Reads (c.add (.newSpeculativeExecution id index, time))
      (l ++ [(.newSpeculativeExecution id index, time)]) where
  requests := by
    have hnone : starts [(.newSpeculativeExecution id index, time)] = [] := rfl
    rw [requestOpened_concat fun _ => rfl, starts_append, hnone, List.append_nil]
    exact h.requests
  executions k := by
    have hput : executionsOf (c.add (.newSpeculativeExecution id index, time)) k =
        if k = id.value then putAt index { startTime := time } (c.executionsOf id.value)
        else c.executionsOf k := executionsOf_put ..
    rw [hput, speculations_append]
    by_cases hk : k = id.value
    · have hone : speculations [(.newSpeculativeExecution id index, time)] ⟨k⟩ =
          [(index, time)] := by
        subst hk
        exact List.filterMap_cons_some (if_pos rfl)
      rw [if_pos hk, hone, latest_concat, ← hk, h.executions k]
      exact putAt_map (fun time => ({ startTime := time } : ExecutionHistory)) index time _
    · have hnone : speculations [(.newSpeculativeExecution id index, time)] ⟨k⟩ = [] := by
        have hne : id ≠ ⟨k⟩ := fun heq => hk (heq ▸ rfl)
        exact List.filterMap_cons_none (if_neg hne)
      rw [if_neg hk, hnone, List.append_nil]
      exact h.executions k
  attempts := by
    have hnone : sent [(.newSpeculativeExecution id index, time)] = [] := rfl
    rw [attemptEnded_concat fun _ => rfl, sent_append, hnone, List.append_nil]
    exact h.attempts

/-- The start of an attempt. -/
theorem send (h : Reads c l)
    (coherent : Coherent (l ++ [(.newAttempt attempt id index address, time)])) :
    Reads (c.add (.newAttempt attempt id index address, time))
      (l ++ [(.newAttempt attempt id index address, time)]) where
  requests := by
    have hnone : starts [(.newAttempt attempt id index address, time)] = [] := rfl
    rw [requestOpened_concat fun _ => rfl, starts_append, hnone, List.append_nil]
    exact h.requests
  executions k := by
    have hnone : speculations [(.newAttempt attempt id index address, time)] ⟨k⟩ = [] := rfl
    rw [speculations_append, hnone, List.append_nil]
    exact h.executions k
  attempts := by
    have hfresh : l.attemptResult attempt = none := by
      apply attemptResult_eq_none
      intro a ha hsubject
      exact ((coherent.led a ha).2 attempt hsubject rfl).1
    have hgreater : ∀ k ∈ c.attempts.map Prod.fst, k < attempt.value := by
      intro k hk
      have hascending := coherent.attempts
      rw [Ascending, sent_append, List.map_append] at hascending
      rw [h.attempts, List.map_map] at hk
      exact (List.pairwise_append.mp hascending).2.2 k hk attempt.value List.mem_cons_self
    have hended : l.attemptEnded (attempt.value, { sendTime := time, address }) =
        { sendTime := time, address } := by
      rw [attemptEnded]
      show AttemptHistory.mk _ _ (l.attemptResult attempt) = _
      rw [hfresh]
    rw [attemptEnded_concat fun _ => rfl, sent_append, List.map_append, ← h.attempts,
      Collected.add, putAt_of_lt _ hgreater]
    show _ = _ ++ [(attempt.value, l.attemptEnded (attempt.value, { sendTime := time, address }))]
    rw [hended]

/-- The end of an attempt. -/
theorem finishAttempt {r : AttemptResult} (h : Reads c l)
    (running : l.attemptResult attempt = none) (unstarted : EventLog.starts [entry] = [])
    (silent : ∀ k, result [entry] k = none)
    (executions : ∀ k, EventLog.speculations [entry] k = []) (unsent : EventLog.sent [entry] = [])
    (results : ∀ k, attemptResult [entry] k = if attempt = k then some r else none)
    (remarks : List String) :
    Reads { c.finishAttempt attempt r with remarks } (l ++ [entry]) where
  requests := by
    rw [requestOpened_concat silent, starts_append, unstarted, List.append_nil]
    exact h.requests
  executions k := by
    rw [speculations_append, executions, List.append_nil]
    exact h.executions k
  attempts := by
    show (c.finishAttempt attempt r).attempts = _
    rw [Collected.finishAttempt, changeAt, h.attempts, sent_append, unsent, List.append_nil,
      List.map_map]
    apply List.map_congr_left
    intro x hx
    rw [attemptEnded, attemptResult_append, results, Function.comp_apply]
    by_cases hid : attempt = ⟨x.1⟩
    · rw [if_pos hid, if_pos (congrArg AttemptId.value hid).symm, ← hid, running]
      rfl
    · have hne : x.1 ≠ attempt.value := fun heq => hid (heq ▸ rfl)
      rw [if_neg hid, if_neg hne, Option.or_none]
      rfl

/-- Every event adds to what is collected what it says. -/
theorem add (h : Reads c l) (coherent : Coherent (l ++ [entry])) :
    Reads (c.add entry) (l ++ [entry]) := by
  have hled := coherent.led
  obtain ⟨event, time⟩ := entry
  cases event with
  | newRequest id => exact h.begin coherent
  | requestSuccess id | requestError id | requestCancelled id =>
    exact h.finish rfl (by simp [result]) (fun _ => rfl) rfl fun _ => rfl
  | newSpeculativeExecution id index => exact h.speculate
  | newAttempt attempt id index address => exact h.send coherent
  | attemptSuccess attempt | attemptError attempt error decision =>
    have hrunning : l.attemptResult attempt = none := by
      apply attemptResult_eq_none
      intro a ha hsubject
      exact ((hled a ha).2 attempt hsubject rfl).1
    exact h.finishAttempt hrunning rfl (fun _ => rfl) (fun _ => rfl) rfl
      (by simp [attemptResult]) _

end Reads

theorem reads_all (coherent : l.Coherent) : Reads (l.foldl Collected.add {}) l := by
  induction l using List.reverseRecOn with
  | nil => exact ⟨rfl, fun _ => rfl, rfl⟩
  | append_singleton l entry ih =>
    rw [List.foldl_append]
    exact (ih (coherent.sublist (List.sublist_append_left l [entry]))).add coherent

end Collected

-- ============================================================================
-- The second reading
-- ============================================================================

/-- An execution with more attempts at its end. -/
def ExecutionHistory.grown (e : ExecutionHistory) (more : List AttemptHistory) :
    ExecutionHistory :=
  { e with attempts := e.attempts ++ more }

/-- A request with more attempts of its initial execution. -/
def RequestHistory.grown (r : RequestHistory) (more : List AttemptHistory) : RequestHistory :=
  { r with main := r.main.grown more }

theorem ExecutionHistory.grown_grown (e : ExecutionHistory) (more last : List AttemptHistory) :
    (e.grown more).grown last = e.grown (more ++ last) := by
  rw [grown, grown, grown, List.append_assoc]

theorem RequestHistory.grown_grown (r : RequestHistory) (more last : List AttemptHistory) :
    (r.grown more).grown last = r.grown (more ++ last) := by
  rw [grown, grown, grown, ExecutionHistory.grown_grown]

@[simp] theorem ExecutionHistory.grown_nil (e : ExecutionHistory) : e.grown [] = e := by
  rw [grown, List.append_nil]

@[simp] theorem RequestHistory.grown_nil (r : RequestHistory) : r.grown [] = r := by
  rw [grown, ExecutionHistory.grown_nil]

namespace EventLog

theorem attemptsWithin_append (l part rest : EventLog) (id : RequestId) (index : Nat) :
    l.attemptsWithin (part ++ rest) id index =
      l.attemptsWithin part id index ++ l.attemptsWithin rest id index :=
  List.filterMap_append

theorem attemptsWithin_one (l : EventLog) (attempt : AttemptId) (id : RequestId) (index : Nat)
    (address : Address) (time : Instant) (id' : RequestId) (index' : Nat) :
    l.attemptsWithin [(.newAttempt attempt id index address, time)] id' index' =
      if id = id' ∧ index = index' then
        [{ sendTime := time, address, result := l.attemptResult attempt }] else [] :=
  Collected.attemptsWithin_concat l [] attempt id index address time id' index'

theorem speculativeWithin_append (l part rest : EventLog) (id : RequestId) (index : Nat) :
    l.speculativeWithin (part ++ rest) id index =
      l.speculativeWithin part id index ++ l.speculativeWithin rest id index := by
  unfold speculativeWithin
  split
  · rfl
  · exact attemptsWithin_append ..

end EventLog

namespace Collected

open EventLog

variable {c d : Collected} {l part rest : EventLog} {entry : HistoryEvent × Instant}

/-- What putting the attempts of a part of a log into their executions makes of what was
    collected. -/
structure Puts (c : Collected) (l part : EventLog) (d : Collected) : Prop where
  requests : d.requests = c.requests.map fun e =>
    (e.1, e.2.grown (l.attemptsWithin part ⟨e.1⟩ 0))
  executions : ∀ k, d.executionsOf k = (c.executionsOf k).map fun e =>
    (e.1, e.2.grown (l.speculativeWithin part ⟨k⟩ e.1))

theorem Puts.nil (c : Collected) (l : EventLog) : Puts c l [] c := by
  constructor
  · simp [attemptsWithin]
  · simp [speculativeWithin, attemptsWithin]

theorem Puts.trans {b : Collected} (first : Puts b l part c) (second : Puts c l rest d) :
    Puts b l (part ++ rest) d where
  requests := by
    rw [second.requests, first.requests, List.map_map]
    apply List.map_congr_left
    intro e he
    rw [Function.comp_apply, RequestHistory.grown_grown, attemptsWithin_append]
  executions k := by
    rw [second.executions, first.executions, List.map_map]
    apply List.map_congr_left
    intro e he
    rw [Function.comp_apply, ExecutionHistory.grown_grown, speculativeWithin_append]

/-- An event that sends no attempt puts nothing anywhere. -/
theorem Puts.silent (silent : ∀ id index, l.attemptsWithin [entry] id index = []) :
    Puts c l [entry] c := by
  constructor
  · simp [silent]
  · simp [speculativeWithin, silent]

/-- Executions to which nothing is put stay as they are. -/
theorem eq_map_grown {entries : List (Nat × ExecutionHistory)} {more : Nat → List AttemptHistory}
    (none : ∀ e ∈ entries, more e.1 = []) :
    entries = entries.map fun e => (e.1, e.2.grown (more e.1)) := by
  have hall : ∀ e ∈ entries, (e.1, e.2.grown (more e.1)) = e := by
    intro e he
    rw [none e he, ExecutionHistory.grown_nil]
  rw [List.map_congr_left hall, List.map_id']

section Attempts

variable {attempt : AttemptId} {id : RequestId} {index : Nat} {address : Address} {time : Instant}

/-- An attempt of the initial execution is put at its end. -/
theorem Puts.placeMain (found : c.attempts.lookup attempt.value =
      some { sendTime := time, address, result := l.attemptResult attempt }) :
    Puts c l [(.newAttempt attempt id 0 address, time)]
      (c.place (.newAttempt attempt id 0 address, time)) := by
  have hwithin := attemptsWithin_one l attempt id 0 address time
  rw [Collected.place, found]
  dsimp only
  rw [if_pos rfl]
  constructor
  · rw [changeAt]
    apply List.map_congr_left
    intro e he
    by_cases hid : e.1 = id.value
    · have heq : id = ⟨e.1⟩ := by rw [hid]
      rw [if_pos hid, hwithin, if_pos ⟨heq, rfl⟩]
      rfl
    · have hne : id ≠ ⟨e.1⟩ := fun heq => hid (heq ▸ rfl)
      rw [if_neg hid, hwithin, if_neg fun h => hne h.1, RequestHistory.grown_nil]
  · intro k
    apply eq_map_grown
    intro e he
    by_cases hindex : e.1 = 0
    · exact if_pos hindex
    · rw [speculativeWithin, hwithin, if_neg hindex, if_neg fun h => hindex h.2.symm]

/-- An attempt of a speculative execution is put at its end. -/
theorem Puts.placeSpeculative (speculative : index ≠ 0)
    (found : c.attempts.lookup attempt.value =
      some { sendTime := time, address, result := l.attemptResult attempt }) :
    Puts c l [(.newAttempt attempt id index address, time)]
      (c.place (.newAttempt attempt id index address, time)) := by
  have hwithin := attemptsWithin_one l attempt id index address time
  rw [Collected.place, found]
  dsimp only
  rw [if_neg speculative]
  constructor
  · show c.requests = _
    have hall : ∀ e ∈ c.requests,
        (e.1, e.2.grown (l.attemptsWithin [(.newAttempt attempt id index address, time)]
          ⟨e.1⟩ 0)) = e := by
      intro e he
      rw [hwithin, if_neg fun h => speculative h.2, RequestHistory.grown_nil]
    rw [List.map_congr_left hall, List.map_id']
  · intro k
    rw [executionsOf_change]
    by_cases hk : k = id.value
    · have heq : id = ⟨k⟩ := by rw [hk]
      rw [if_pos hk, changeAt]
      apply List.map_congr_left
      intro e he
      by_cases hindex : e.1 = index
      · rw [if_pos hindex, speculativeWithin, hwithin, if_neg (by omega),
          if_pos ⟨heq, hindex.symm⟩]
        rfl
      · have hnone := hwithin ⟨k⟩ e.1
        rw [if_neg fun h => hindex h.2.symm] at hnone
        rw [if_neg hindex, speculativeWithin, hnone, ite_self, ExecutionHistory.grown_nil]
    · have hne : id ≠ ⟨k⟩ := fun heq => hk (heq ▸ rfl)
      rw [if_neg hk]
      apply eq_map_grown
      intro e he
      have hnone := hwithin ⟨k⟩ e.1
      rw [if_neg fun h => hne h.1] at hnone
      rw [speculativeWithin, hnone, ite_self]

/-- A coherent log sends each attempt once. -/
theorem unsent_of_coherent (coherent : l.Coherent)
    (whole : l = part ++ (.newAttempt attempt id index address, time) :: rest) :
    attempt.value ∉ part.sent.map Prod.fst := by
  have hascending := coherent.attempts
  have hsent : l.sent = part.sent ++
      (attempt.value, { sendTime := time, address }) :: rest.sent := by
    rw [whole, sent_append]
    rfl
  rw [Ascending, hsent, List.map_append] at hascending
  intro hmem
  have hlt := (List.pairwise_append.mp hascending).2.2 _ hmem attempt.value List.mem_cons_self
  exact Nat.lt_irrefl _ hlt

end Attempts

/-- An event that is read for the second time puts its attempt into its execution, if it sends
    one, and leaves the attempts that are yet to be put. -/
theorem puts_place (coherent : l.Coherent)
    (attempts : ∀ k, c.attempts.lookup k = l.attemptRead part k)
    (whole : l = part ++ entry :: rest) :
    Puts c l [entry] (c.place entry) ∧
      ∀ k, (c.place entry).attempts.lookup k = l.attemptRead (part ++ [entry]) k := by
  obtain ⟨event, time⟩ := entry
  cases event with
  | newAttempt attempt id index address =>
    have hfound := lookup_attempt attempts whole (unsent_of_coherent coherent whole)
    have hputs : Puts c l [(.newAttempt attempt id index address, time)]
        (c.place (.newAttempt attempt id index address, time)) := by
      by_cases hmain : index = 0
      · subst hmain
        exact .placeMain hfound
      · exact .placeSpeculative hmain hfound
    refine ⟨hputs, ?_⟩
    intro k
    rw [← lookup_filter_attempt attempts k, Collected.place, hfound]
    dsimp only
    split <;> rfl
  | _ =>
    refine ⟨Puts.silent fun _ _ => rfl, ?_⟩
    intro k
    rw [attemptRead, sent_append]
    show c.attempts.lookup k = if k ∈ (part.sent ++ []).map Prod.fst then none else _
    rw [List.append_nil]
    exact attempts k

/-- The second reading puts every attempt into its execution. -/
theorem puts_all (coherent : l.Coherent)
    (attempts : ∀ k, c.attempts.lookup k = l.attemptRead part k) (whole : l = part ++ rest) :
    Puts c l rest (rest.foldl Collected.place c) := by
  induction rest generalizing part c with
  | nil => exact .nil c l
  | cons entry rest ih =>
    obtain ⟨hputs, hattempts⟩ := puts_place coherent attempts whole
    have hwhole : l = part ++ [entry] ++ rest := by
      rw [whole, List.append_assoc]
      rfl
    exact hputs.trans (ih hattempts hwhole)

end Collected

-- ============================================================================
-- The whole arrangement
-- ============================================================================

namespace EventLog

open Collected

variable {l : EventLog}

/-- The arrangement of a coherent log can be read off the log. -/
theorem Coherent.recounted (coherent : l.Coherent) :
    (RequestHistory.ofEvents l).1 = l.recounted := by
  have hreads := reads_all coherent
  have hattempts : ∀ k, (l.foldl Collected.add {}).attempts.lookup k = l.attemptRead [] k := by
    intro k
    rw [hreads.attempts, lookup_map_snd, attemptRead_nil]
    rfl
  have hputs := puts_all coherent hattempts rfl
  rw [RequestHistory.ofEvents]
  dsimp only
  rw [assemble, hputs.requests, hreads.requests, List.map_map, List.map_map, EventLog.recounted]
  apply List.map_congr_left
  intro x hx
  simp only [Function.comp_apply]
  rw [hputs.executions, hreads.executions, List.map_map, List.map_map]
  rfl

-- ============================================================================
-- What is of no account
-- ============================================================================

/-- An event about a request or an attempt that the log does not start. -/
def Foreign (l : EventLog) (event : HistoryEvent) : Prop :=
  (∃ id, event.request? = some id ∧ id.value ∉ l.starts.map Prod.fst) ∨
    ∃ attempt, event.attempt? = some attempt ∧ attempt.value ∉ l.sent.map Prod.fst

section Without

variable {keep : HistoryEvent × Instant → Bool} {id : RequestId} {attempt : AttemptId}

theorem mem_starts {id : RequestId} {time : Instant} (mem : (.newRequest id, time) ∈ l) :
    id.value ∈ l.starts.map Prod.fst :=
  List.mem_map.mpr ⟨(id.value, time), List.mem_filterMap.mpr ⟨_, mem, rfl⟩, rfl⟩

theorem mem_sent {index : Nat} {address : Address} {time : Instant}
    (mem : (.newAttempt attempt id index address, time) ∈ l) :
    attempt.value ∈ l.sent.map Prod.fst :=
  List.mem_map.mpr ⟨_, List.mem_filterMap.mpr ⟨_, mem, rfl⟩, rfl⟩

/-- Only what is foreign to a log is left out of it. -/
def LeavesOut (l : EventLog) (keep : HistoryEvent × Instant → Bool) : Prop :=
  ∀ entry ∈ l, keep entry = false → l.Foreign entry.1

theorem LeavesOut.keeps (leaves : l.LeavesOut keep) {entry : HistoryEvent × Instant}
    (mem : entry ∈ l)
    (requests : ∀ id, entry.1.request? = some id → id.value ∈ l.starts.map Prod.fst)
    (attempts : ∀ a, entry.1.attempt? = some a → a.value ∈ l.sent.map Prod.fst) :
    keep entry = true := by
  cases hkeep : keep entry with
  | true => rfl
  | false =>
    rcases leaves entry mem hkeep with ⟨id, hid, hnone⟩ | ⟨a, ha, hnone⟩
    · exact absurd (requests id hid) hnone
    · exact absurd (attempts a ha) hnone

variable (leaves : l.LeavesOut keep)

include leaves

theorem starts_filter : starts (l.filter keep) = l.starts := by
  apply filterMap_filter_of
  rintro ⟨event, time⟩ hentry hf
  cases event with
  | newRequest id =>
    apply leaves.keeps hentry
    · rintro _ ⟨⟩
      exact mem_starts hentry
    · rintro _ ⟨⟩
  | _ => exact absurd rfl hf

theorem speculations_filter (started : id.value ∈ l.starts.map Prod.fst) :
    speculations (l.filter keep) id = l.speculations id := by
  apply speculations_filter_of
  rintro ⟨event, time⟩ hentry index hsubject
  cases event <;> cases hsubject
  apply leaves.keeps hentry
  · rintro _ ⟨⟩
    exact started
  · rintro _ ⟨⟩

theorem result_filter (started : id.value ∈ l.starts.map Prod.fst) :
    result (l.filter keep).reverse id = result l.reverse id := by
  rw [← List.filter_reverse]
  apply result_filter_of
  rintro ⟨event, time⟩ hentry hsubject -
  have hmem := List.mem_reverse.mp hentry
  cases event with
  | newRequest | requestSuccess | requestError | requestCancelled =>
    cases hsubject
    apply leaves.keeps hmem
    · rintro _ ⟨⟩
      exact started
    · rintro _ ⟨⟩
  | _ => cases hsubject

theorem attemptResult_filter (sent : attempt.value ∈ l.sent.map Prod.fst) :
    attemptResult (l.filter keep) attempt = l.attemptResult attempt := by
  apply attemptResult_filter_of
  rintro ⟨event, time⟩ hentry hsubject ends
  cases event with
  | attemptSuccess | attemptError =>
    cases hsubject
    apply leaves.keeps hentry
    · rintro _ ⟨⟩
    · rintro _ ⟨⟩
      exact sent
  | newAttempt => cases ends
  | _ => cases hsubject

theorem attemptsWithin_filter (started : id.value ∈ l.starts.map Prod.fst) (index : Nat) :
    attemptsWithin (l.filter keep) (l.filter keep) id index = l.attemptsWithin l id index := by
  apply attemptsWithin_filter_of
  intro attempt address time hmem
  refine ⟨leaves.keeps hmem ?_ ?_, attemptResult_filter leaves (mem_sent hmem)⟩
  · rintro _ ⟨⟩
    exact started
  · rintro _ ⟨⟩
    exact mem_sent hmem

theorem recounted_filter : recounted (l.filter keep) = l.recounted := by
  rw [EventLog.recounted, starts_filter leaves, EventLog.recounted]
  apply List.map_congr_left
  intro x hx
  have hstarted : (⟨x.1⟩ : RequestId).value ∈ l.starts.map Prod.fst := List.mem_map_of_mem hx
  have hexecutions : recountedExecution (l.filter keep) ⟨x.1⟩ = l.recountedExecution ⟨x.1⟩ := by
    funext y
    rw [recountedExecution, speculativeWithin, attemptsWithin_filter leaves hstarted]
    rfl
  rw [recountedRequest, execution, attemptsWithin_filter leaves hstarted,
    speculations_filter leaves hstarted, result_filter leaves hstarted, hexecutions]
  rfl

omit leaves in
/-- What a coherent log says of requests and attempts that it does not start can be left out. -/
theorem Coherent.without (coherent : l.Coherent) (leaves : l.LeavesOut keep) :
    (RequestHistory.ofEvents (l.filter keep)).1 = (RequestHistory.ofEvents l).1 := by
  rw [coherent.recounted, (coherent.sublist List.filter_sublist).recounted]
  exact recounted_filter leaves

end Without

end EventLog

end RequestEngine
