/-
  RequestEngine.Proofs.Observation.Arrangement

  What the arrangement of a log by requests contains.  A log is sound if nothing
  in it starts twice, ends twice, or ends before it starts.  The arrangement of a
  sound log can be read off the log itself (`EventLog.arranged`), and it depends
  on nothing but what the log says of each request.

    * `EventLog.arranged`       — one entry for each start of a request, each
      attempt under its request and execution, each result where it belongs;
    * `EventLog.Sound`          — logs without clashes;
    * `Collected.Shows`         — what was collected of a log, after the first reading
      (`shows_read`) and in the course of the second one (`shows_placed`);
    * `EventLog.Sound.arranged` — the arrangement of a sound log;
    * `EventLog.Sound.reordered` — events of different requests may change places.
-/
import Mathlib.Data.List.Basic
import Mathlib.Data.List.Induction
import RequestEngine.Observation.History.Structured

namespace RequestEngine

-- ============================================================================
-- Entries in order of their keys
-- ============================================================================

section Entries

variable {α : Type} {entries entries' : List (Nat × α)} {key : Nat} {value : α}

/-- Every key occurs once, in ascending order. -/
def Ascending (entries : List (Nat × α)) : Prop :=
  (entries.map Prod.fst).Pairwise (· < ·)

theorem lookup_putAt (key : Nat) (value : α) (entries : List (Nat × α)) (k : Nat) :
    (putAt key value entries).lookup k = if k = key then some value else entries.lookup k := by
  induction entries with
  | nil => by_cases h : k = key <;> simp [putAt, List.lookup_cons, h, beq_false_of_ne]
  | cons head rest ih =>
    obtain ⟨j, v⟩ := head
    rw [putAt]
    split
    · by_cases h : k = key <;> simp [List.lookup_cons, h, beq_false_of_ne]
    · split
      · rename_i heq
        subst heq
        by_cases h : k = key <;> simp [List.lookup_cons, h, beq_false_of_ne]
      · rename_i hne
        rw [List.lookup_cons, List.lookup_cons, ih]
        by_cases h : k = j
        · subst h
          simp [Ne.symm hne]
        · simp [beq_false_of_ne h]

theorem lookup_changeAt (key : Nat) (f : α → α) (entries : List (Nat × α)) (k : Nat) :
    (changeAt key f entries).lookup k =
      if k = key then (entries.lookup k).map f else entries.lookup k := by
  rw [changeAt]
  induction entries with
  | nil => simp
  | cons head rest ih =>
    obtain ⟨j, v⟩ := head
    rw [List.map_cons, List.lookup_cons, List.lookup_cons, ih]
    by_cases hj : j = key
    · subst hj
      by_cases h : k = j
      · simp [h]
      · simp [h, beq_false_of_ne h]
    · by_cases h : k = j
      · subst h
        simp [hj]
      · simp [hj, beq_false_of_ne h]

theorem mem_keys_putAt {k : Nat} (h : k ∈ (putAt key value entries).map Prod.fst) :
    k = key ∨ k ∈ entries.map Prod.fst := by
  induction entries with
  | nil => simpa [putAt] using h
  | cons head rest ih =>
    obtain ⟨j, v⟩ := head
    rw [putAt] at h
    split at h
    · simpa using h
    · split at h
      · simpa using Or.imp_right Or.inr (List.mem_cons.mp h)
      · rcases List.mem_cons.mp h with rfl | h
        · exact .inr List.mem_cons_self
        · exact (ih h).imp_right (List.mem_cons_of_mem _)

theorem Ascending.putAt (h : Ascending entries) (key : Nat) (value : α) :
    Ascending (putAt key value entries) := by
  induction entries with
  | nil => simp [RequestEngine.putAt, Ascending]
  | cons head rest ih =>
    obtain ⟨j, v⟩ := head
    rw [Ascending, List.map_cons, List.pairwise_cons] at h
    obtain ⟨hfirst, hrest⟩ := h
    rw [RequestEngine.putAt]
    split
    · rename_i hlt
      refine List.pairwise_cons.mpr ⟨fun k hk => ?_, List.pairwise_cons.mpr ⟨hfirst, hrest⟩⟩
      rcases List.mem_cons.mp hk with rfl | hk
      · exact hlt
      · exact Nat.lt_trans hlt (hfirst k hk)
    · split
      · rename_i heq
        exact heq ▸ List.pairwise_cons.mpr ⟨hfirst, hrest⟩
      · refine List.pairwise_cons.mpr ⟨fun k hk => ?_, ih hrest⟩
        rcases mem_keys_putAt hk with rfl | hk
        · omega
        · exact hfirst k hk

theorem Ascending.changeAt (h : Ascending entries) (key : Nat) (f : α → α) :
    Ascending (changeAt key f entries) := by
  have hkeys : (RequestEngine.changeAt key f entries).map Prod.fst = entries.map Prod.fst := by
    rw [RequestEngine.changeAt, List.map_map]
    refine List.map_congr_left fun e _ => ?_
    by_cases he : e.1 = key <;> simp [he]
  rwa [Ascending, hkeys]

theorem lookup_eq_none_of_not_mem (h : key ∉ entries.map Prod.fst) :
    entries.lookup key = none := by
  rw [List.lookup_eq_none_iff]
  rintro ⟨j, v⟩ hmem
  have hne : key ≠ j := fun heq => h (heq ▸ List.mem_map_of_mem hmem)
  simp [hne]

theorem mem_of_lookup_eq_some (h : entries.lookup key = some value) : (key, value) ∈ entries := by
  obtain ⟨before, after, hsplit, -⟩ := List.lookup_eq_some_iff.mp h
  exact hsplit ▸ List.mem_append_right _ List.mem_cons_self

/-- Under keys that are distinct everything is found. -/
theorem lookup_of_mem (distinct : (entries.map Prod.fst).Nodup) (mem : (key, value) ∈ entries) :
    entries.lookup key = some value := by
  obtain ⟨before, after, rfl⟩ := List.append_of_mem mem
  rw [List.map_append, List.map_cons] at distinct
  have hnew : key ∉ before.map Prod.fst := fun hmem =>
    (List.nodup_append.mp distinct).2.2 key hmem key List.mem_cons_self rfl
  rw [List.lookup_append, lookup_eq_none_of_not_mem hnew]
  simp

theorem lookup_filter_ne {α : Type} (entries : List (Nat × α)) (key k : Nat) :
    (entries.filter (·.1 ≠ key)).lookup k = if k = key then none else entries.lookup k := by
  induction entries with
  | nil => simp
  | cons head rest ih =>
    obtain ⟨j, v⟩ := head
    by_cases hj : j = key
    · subst hj
      rw [List.filter_cons_of_neg (by simp), ih]
      by_cases hk : k = j
      · rw [if_pos hk, if_pos hk]
      · rw [if_neg hk, if_neg hk, List.lookup_cons, beq_false_of_ne hk]
    · rw [List.filter_cons_of_pos (by simpa using hj), List.lookup_cons, List.lookup_cons, ih]
      by_cases hk : k = j
      · subst hk
        simp [hj]
      · rw [beq_false_of_ne hk]

/-- In ascending order, entries are known by what is found under each key. -/
theorem Ascending.ext (h : Ascending entries) (h' : Ascending entries')
    (same : ∀ k, entries.lookup k = entries'.lookup k) : entries = entries' := by
  induction entries generalizing entries' with
  | nil =>
    cases entries' with
    | nil => rfl
    | cons head rest =>
      have hnone := same head.1
      rw [List.lookup_cons_self] at hnone
      cases hnone
  | cons head rest ih =>
    obtain ⟨k, v⟩ := head
    cases entries' with
    | nil =>
      have hnone := same k
      rw [List.lookup_cons_self] at hnone
      cases hnone
    | cons head' rest' =>
      obtain ⟨k', v'⟩ := head'
      rw [Ascending, List.map_cons, List.pairwise_cons] at h h'
      have hfound : ((k', v') :: rest').lookup k = some v := by
        rw [← same k, List.lookup_cons_self]
      have hfound' : ((k, v) :: rest).lookup k' = some v' := by
        rw [same k', List.lookup_cons_self]
      -- of two different first keys the smaller one would be found in one list only
      obtain rfl : k = k' := by
        by_contra hne
        rw [List.lookup_cons, beq_false_of_ne hne] at hfound
        rw [List.lookup_cons, beq_false_of_ne (Ne.symm hne)] at hfound'
        have hlt := h'.1 k (List.mem_map_of_mem (mem_of_lookup_eq_some hfound))
        have hlt' := h.1 k' (List.mem_map_of_mem (mem_of_lookup_eq_some hfound'))
        omega
      obtain rfl : v = v' := by simpa using hfound'
      have hrest : rest = rest' := by
        refine ih h.2 h'.2 fun j => ?_
        have hj := same j
        by_cases hjk : j = k
        · subst hjk
          rw [lookup_eq_none_of_not_mem fun hmem => Nat.lt_irrefl _ (h.1 _ hmem),
            lookup_eq_none_of_not_mem fun hmem => Nat.lt_irrefl _ (h'.1 _ hmem)]
        · simpa [List.lookup_cons, beq_false_of_ne hjk] using hj
      rw [hrest]

theorem lookup_map_snd {α β : Type} (entries : List (Nat × α)) (f : Nat × α → β) (k : Nat) :
    (entries.map fun x => (x.1, f x)).lookup k = (entries.lookup k).map fun a => f (k, a) := by
  induction entries with
  | nil => rfl
  | cons head rest ih =>
    obtain ⟨j, a⟩ := head
    rw [List.map_cons, List.lookup_cons, List.lookup_cons, ih]
    by_cases hk : k = j
    · subst hk
      simp
    · simp [beq_false_of_ne hk]

theorem Ascending.map_snd {α β : Type} {entries : List (Nat × α)} (h : Ascending entries)
    (f : Nat × α → β) : Ascending (entries.map fun x => (x.1, f x)) := by
  rw [Ascending, List.map_map]
  exact h

/-- Entries with distinct keys can be put in ascending order. -/
theorem ascending_mergeSort {α : Type} {entries : List (Nat × α)}
    (distinct : (entries.map Prod.fst).Nodup) :
    Ascending (entries.mergeSort fun a b => a.1 ≤ b.1) ∧
      ∀ k, (entries.mergeSort fun a b => a.1 ≤ b.1).lookup k = entries.lookup k := by
  have hperm := entries.mergeSort_perm fun a b => decide (a.1 ≤ b.1)
  have hdistinct := ((hperm.map Prod.fst).nodup_iff).mpr distinct
  constructor
  · have hsorted : (entries.mergeSort fun a b => a.1 ≤ b.1).Pairwise fun a b =>
        decide (a.1 ≤ b.1) = true :=
      entries.pairwise_mergeSort
        (fun a b c hab hbc => by simp only [decide_eq_true_eq] at *; omega)
        (fun a b => by simp only [Bool.or_eq_true, decide_eq_true_eq]; omega)
    rw [Ascending, List.pairwise_map]
    rw [List.Nodup, List.pairwise_map] at hdistinct
    refine (hsorted.and hdistinct).imp fun {a b} hab => ?_
    have hle := decide_eq_true_eq.mp hab.1
    exact Nat.lt_of_le_of_ne hle hab.2
  · intro k
    cases hfound : entries.lookup k with
    | some value =>
      exact lookup_of_mem hdistinct (hperm.mem_iff.mpr (mem_of_lookup_eq_some hfound))
    | none =>
      refine Option.eq_none_iff_forall_not_mem.mpr fun value hvalue => ?_
      have hmem := hperm.mem_iff.mp (mem_of_lookup_eq_some hvalue)
      rw [lookup_of_mem distinct hmem] at hfound
      cases hfound

end Entries

-- ============================================================================
-- What a log says
-- ============================================================================

/-- What an event is about: a request, one of its speculative executions, or an attempt. -/
inductive Subject where
  | request (id : RequestId)
  | execution (id : RequestId) (index : Nat)
  | attempt (id : AttemptId)
  deriving DecidableEq

namespace HistoryEvent

/-- What an event is about. -/
def subject : HistoryEvent → Subject
  | newRequest id | requestSuccess id | requestError id _ | requestCancelled id => .request id
  | newSpeculativeExecution id index => .execution id index
  | newAttempt attempt .. | attemptSuccess attempt | attemptError attempt .. => .attempt attempt

/-- Whether an event is the start of what it is about. -/
def isStart : HistoryEvent → Bool
  | newRequest _ | newSpeculativeExecution .. | newAttempt .. => true
  | _ => false

/-- Whether an event may come before another one: of two that are about the same, the first is
    the start and the second the end. -/
def MayPrecede (e e' : HistoryEvent) : Prop :=
  e.subject = e'.subject → e.isStart = true ∧ e'.isStart = false

end HistoryEvent

/-- A log of events with their times. -/
abbrev EventLog := List (HistoryEvent × Instant)

namespace EventLog

/-- The requests that were started, in order, with the times of their starts. -/
def starts (l : EventLog) : List (Nat × Instant) :=
  l.filterMap fun
    | (.newRequest id, time) => some (id.value, time)
    | _ => none

/-- The speculative executions of a request, in order, with the times of their starts. -/
def speculations (l : EventLog) (id : RequestId) : List (Nat × Instant) :=
  l.filterMap fun
    | (.newSpeculativeExecution id' index, time) => if id' = id then some (index, time) else none
    | _ => none

/-- The result of a request, if there is one. -/
def result (l : EventLog) (id : RequestId) : Option RequestResult :=
  l.findSome? fun
    | (.requestSuccess id', time) => if id' = id then some (.success time) else none
    | (.requestError id' error, time) => if id' = id then some (.error time error) else none
    | (.requestCancelled id', time) => if id' = id then some (.cancelled time) else none
    | _ => none

/-- The result of an attempt, if there is one. -/
def attemptResult (l : EventLog) (attempt : AttemptId) : Option AttemptResult :=
  l.findSome? fun
    | (.attemptSuccess attempt', time) => if attempt' = attempt then some (.success time) else none
    | (.attemptError attempt' error decision, time) =>
      if attempt' = attempt then some (.error time error decision) else none
    | _ => none

/-- The attempts of one execution among those of an earlier part of the log, in order, each with
    its result. -/
def attemptsWithin (l part : EventLog) (id : RequestId) (index : Nat) : List AttemptHistory :=
  part.filterMap fun
    | (.newAttempt attempt id' index' address, time) =>
      if id' = id ∧ index' = index then
        some { sendTime := time, address, result := l.attemptResult attempt }
      else none
    | _ => none

/-- An execution of a request with its attempts. -/
def execution (l : EventLog) (id : RequestId) (index : Nat) (start : Instant) :
    ExecutionHistory where
  startTime := start
  attempts := l.attemptsWithin l id index

/-- A request: its initial execution, the speculative ones ordered by index, and its result. -/
def request (l : EventLog) (id : RequestId) (start : Instant) : RequestHistory where
  startTime := start
  main := l.execution id 0 start
  speculative := ((l.speculations id).mergeSort fun a b => a.1 ≤ b.1).map fun x =>
    l.execution id x.1 x.2
  result := l.result id

/-- The requests that were started, in order. -/
def arranged (l : EventLog) : List RequestHistory :=
  l.starts.map fun x => l.request ⟨x.1⟩ x.2

/-- The attempts that were sent, in order, without their results. -/
def sent (l : EventLog) : List (Nat × AttemptHistory) :=
  l.filterMap fun
    | (.newAttempt attempt _ _ address, time) => some (attempt.value, { sendTime := time, address })
    | _ => none

/-- Nothing starts twice, ends twice or starts after it has ended, and no speculative execution
    has the index of the initial one. -/
structure Sound (l : EventLog) : Prop where
  order : l.Pairwise fun a b => a.1.MayPrecede b.1
  later : ∀ entry ∈ l, ∀ id index, entry.1 = .newSpeculativeExecution id index → index ≠ 0

section Views

variable {l part : EventLog} {id : RequestId} {attempt : AttemptId} {index : Nat}

@[simp] theorem sent_nil : sent [] = [] := rfl

@[simp] theorem starts_append : starts (l ++ part) = l.starts ++ part.starts :=
  List.filterMap_append

@[simp] theorem speculations_append :
    speculations (l ++ part) id = l.speculations id ++ part.speculations id :=
  List.filterMap_append

@[simp] theorem sent_append : sent (l ++ part) = l.sent ++ part.sent :=
  List.filterMap_append

@[simp] theorem result_append : result (l ++ part) id = (l.result id).or (part.result id) :=
  List.findSome?_append

@[simp] theorem attemptResult_append :
    attemptResult (l ++ part) attempt = (l.attemptResult attempt).or (part.attemptResult attempt) :=
  List.findSome?_append

/-- What was not started is not found. -/
theorem starts_eq_none (fresh : ∀ entry ∈ l, entry.1.subject ≠ .request id) :
    l.starts.lookup id.value = none := by
  refine lookup_eq_none_of_not_mem fun hmem => ?_
  obtain ⟨⟨k, time⟩, hstart, hk⟩ := List.mem_map.mp hmem
  obtain ⟨⟨event, time'⟩, hentry, hstarts⟩ := List.mem_filterMap.mp hstart
  cases event <;> cases hstarts
  obtain rfl : _ = id := congrArg RequestId.mk hk
  exact fresh _ hentry rfl

theorem speculations_eq_none (fresh : ∀ entry ∈ l, entry.1.subject ≠ .execution id index) :
    (l.speculations id).lookup index = none := by
  refine lookup_eq_none_of_not_mem fun hmem => ?_
  obtain ⟨⟨k, time⟩, hstart, rfl⟩ := List.mem_map.mp hmem
  obtain ⟨⟨event, time'⟩, hentry, hstarts⟩ := List.mem_filterMap.mp hstart
  cases event with
  | newSpeculativeExecution id' index' =>
    dsimp only at hstarts
    split at hstarts
    · rename_i same
      cases hstarts
      exact fresh _ hentry (same ▸ rfl)
    · cases hstarts
  | _ => cases hstarts

theorem not_mem_sent (fresh : ∀ entry ∈ l, entry.1.subject ≠ .attempt attempt) :
    attempt.value ∉ l.sent.map Prod.fst := by
  intro hmem
  obtain ⟨⟨k, sent⟩, hsent, hk⟩ := List.mem_map.mp hmem
  obtain ⟨⟨event, time'⟩, hentry, hsends⟩ := List.mem_filterMap.mp hsent
  cases event <;> cases hsends
  obtain rfl : _ = attempt := congrArg AttemptId.mk hk
  exact fresh _ hentry rfl

/-- What has not ended has no result. -/
theorem result_eq_none
    (running : ∀ entry ∈ l, entry.1.subject = .request id → entry.1.isStart = true) :
    l.result id = none := by
  rw [result, List.findSome?_eq_none_iff]
  rintro ⟨event, time⟩ hentry
  have hstart := running _ hentry
  cases event with
  | requestSuccess id' | requestError id' | requestCancelled id' =>
    exact if_neg fun heq : id' = id => Bool.false_ne_true (hstart (congrArg Subject.request heq))
  | _ => rfl

theorem attemptResult_eq_none
    (running : ∀ entry ∈ l, entry.1.subject = .attempt attempt → entry.1.isStart = true) :
    l.attemptResult attempt = none := by
  rw [attemptResult, List.findSome?_eq_none_iff]
  rintro ⟨event, time⟩ hentry
  have hstart := running _ hentry
  cases event with
  | attemptSuccess attempt' | attemptError attempt' =>
    exact if_neg fun heq : attempt' = attempt =>
      Bool.false_ne_true (hstart (congrArg Subject.attempt heq))
  | _ => rfl

/-! A part of a log says the same as the log of what it leaves nothing out about. -/

variable {keep : HistoryEvent × Instant → Bool}

/-- Leaving out what a function gives nothing for does not change what it gives. -/
theorem filterMap_filter_of {α : Type} {f : HistoryEvent × Instant → Option α}
    (kept : ∀ entry ∈ l, f entry ≠ none → keep entry = true) :
    (l.filter keep).filterMap f = l.filterMap f := by
  rw [List.filterMap_filter]
  apply List.filterMap_congr
  intro entry hentry
  by_cases hf : f entry = none
  · rw [hf, ite_self]
  · rw [if_pos (kept entry hentry hf)]

theorem speculations_filter_of
    (kept : ∀ entry ∈ l, ∀ index, entry.1.subject = .execution id index → keep entry = true) :
    speculations (l.filter keep) id = l.speculations id := by
  apply filterMap_filter_of
  rintro ⟨event, time⟩ hentry hf
  cases event with
  | newSpeculativeExecution id' index =>
    obtain rfl : id' = id := by_contra fun hne => hf (if_neg hne)
    exact kept _ hentry index rfl
  | _ => exact absurd rfl hf

theorem result_filter_of (kept : ∀ entry ∈ l, entry.1.subject = .request id →
    entry.1.isStart = false → keep entry = true) :
    result (l.filter keep) id = l.result id := by
  rw [result, result, ← List.head?_filterMap, ← List.head?_filterMap, filterMap_filter_of]
  rintro ⟨event, time⟩ hentry hf
  cases event with
  | requestSuccess id' | requestError id' error | requestCancelled id' =>
    obtain rfl : id' = id := by_contra fun hne => hf (if_neg hne)
    exact kept _ hentry rfl rfl
  | _ => exact absurd rfl hf

theorem attemptResult_filter_of (kept : ∀ entry ∈ l, entry.1.subject = .attempt attempt →
    entry.1.isStart = false → keep entry = true) :
    attemptResult (l.filter keep) attempt = l.attemptResult attempt := by
  rw [attemptResult, attemptResult, ← List.head?_filterMap, ← List.head?_filterMap,
    filterMap_filter_of]
  rintro ⟨event, time⟩ hentry hf
  cases event with
  | attemptSuccess attempt' | attemptError attempt' error decision =>
    obtain rfl : attempt' = attempt := by_contra fun hne => hf (if_neg hne)
    exact kept _ hentry rfl rfl
  | _ => exact absurd rfl hf

theorem attemptsWithin_filter_of
    (kept : ∀ attempt address time, (.newAttempt attempt id index address, time) ∈ l →
      keep (.newAttempt attempt id index address, time) = true ∧
        attemptResult (l.filter keep) attempt = l.attemptResult attempt) :
    attemptsWithin (l.filter keep) (l.filter keep) id index = l.attemptsWithin l id index := by
  rw [attemptsWithin, filterMap_filter_of, attemptsWithin]
  · apply List.filterMap_congr
    rintro ⟨event, time⟩ hentry
    cases event with
    | newAttempt attempt id' index' address =>
      dsimp only
      split
      · rename_i hsame
        obtain ⟨rfl, rfl⟩ := hsame
        rw [(kept attempt address time hentry).2]
      · rfl
    | _ => rfl
  · rintro ⟨event, time⟩ hentry hf
    cases event with
    | newAttempt attempt id' index' address =>
      have hsame : id' = id ∧ index' = index := by_contra fun hne => hf (if_neg hne)
      obtain ⟨rfl, rfl⟩ := hsame
      exact (kept attempt address time hentry).1
    | _ => exact absurd rfl hf

end Views

/-- What was allowed in a log is allowed in an earlier part of it, and its last event may come
    after all others. -/
theorem Sound.of_concat {l : EventLog} {entry : HistoryEvent × Instant}
    (h : Sound (l ++ [entry])) : Sound l ∧ ∀ a ∈ l, a.1.MayPrecede entry.1 := by
  obtain ⟨horder, -, hlast⟩ := List.pairwise_append.mp h.order
  refine ⟨⟨horder, fun a ha => h.later a (List.mem_append_left _ ha)⟩, fun a ha => ?_⟩
  exact hlast a ha entry (List.mem_singleton_self _)

end EventLog

-- ============================================================================
-- The first reading
-- ============================================================================

namespace EventLog

/-- A request as it was read, once the attempts of an earlier part were put into executions. -/
def requestRead (l part : EventLog) (k : Nat) : Option RequestHistory :=
  (l.starts.lookup k).map fun time =>
    { startTime := time
      main := { startTime := time, attempts := l.attemptsWithin part ⟨k⟩ 0 }
      result := l.result ⟨k⟩ }

/-- A speculative execution as it was read. -/
def executionRead (l part : EventLog) (k index : Nat) : Option ExecutionHistory :=
  ((l.speculations ⟨k⟩).lookup index).map fun time =>
    { startTime := time, attempts := l.attemptsWithin part ⟨k⟩ index }

/-- An attempt as it was read, unless it was put into its execution. -/
def attemptRead (l part : EventLog) (k : Nat) : Option AttemptHistory :=
  if k ∈ part.sent.map Prod.fst then none
  else (l.sent.lookup k).map fun a => { a with result := l.attemptResult ⟨k⟩ }

variable {l : EventLog} {entry : HistoryEvent × Instant}

theorem attemptRead_nil (l : EventLog) (k : Nat) : l.attemptRead [] k =
    (l.sent.lookup k).map fun a => { a with result := l.attemptResult ⟨k⟩ } :=
  if_neg List.not_mem_nil

theorem requestRead_concat (starts : EventLog.starts [entry] = [])
    (unended : ∀ id, EventLog.result [entry] id = none) (k : Nat) :
    requestRead (l ++ [entry]) [] k = l.requestRead [] k := by
  rw [requestRead, starts_append, starts, List.append_nil, result_append, unended, Option.or_none]
  rfl

theorem executionRead_concat (speculations : ∀ id, EventLog.speculations [entry] id = [])
    (k index : Nat) : executionRead (l ++ [entry]) [] k index = l.executionRead [] k index := by
  rw [executionRead, speculations_append, speculations, List.append_nil]
  rfl

theorem attemptRead_concat (sent : EventLog.sent [entry] = [])
    (unended : ∀ attempt, EventLog.attemptResult [entry] attempt = none) (k : Nat) :
    attemptRead (l ++ [entry]) [] k = l.attemptRead [] k := by
  rw [attemptRead, sent_append, sent, List.append_nil, attemptResult_append, unended,
    Option.or_none]
  rfl

end EventLog

namespace Collected

/-- What is collected of a log, once the attempts of an earlier part of it were put into their
    executions. -/
structure Shows (c : Collected) (l part : EventLog) : Prop where
  ascending : Ascending c.requests
  ordered : ∀ k, Ascending (c.executionsOf k)
  requests : ∀ k, c.requests.lookup k = l.requestRead part k
  executions : ∀ k index, (c.executionsOf k).lookup index = l.executionRead part k index
  attempts : ∀ k, c.attempts.lookup k = l.attemptRead part k

variable {c : Collected} {l : EventLog} {entry : HistoryEvent × Instant}

/-- The speculative executions of a request after one of them was stored. -/
theorem executionsOf_put (c : Collected) (request : Nat)
    (executions : List (Nat × ExecutionHistory)) (k : Nat) :
    executionsOf { c with executions := putAt request executions c.executions } k =
      if k = request then executions else c.executionsOf k := by
  rw [executionsOf, lookup_putAt]
  split <;> rfl

/-- The end of a request is set where the request is. -/
theorem Shows.finish {id : RequestId} {r : RequestResult} (h : Shows c l [])
    (unfinished : l.result id = none) (starts : EventLog.starts [entry] = [])
    (results : ∀ k, EventLog.result [entry] k = if id = k then some r else none)
    (executions : ∀ k index, EventLog.executionRead (l ++ [entry]) [] k index =
      l.executionRead [] k index)
    (attempts : ∀ k, EventLog.attemptRead (l ++ [entry]) [] k = l.attemptRead [] k) :
    Shows (c.finish id r) (l ++ [entry]) [] where
  ascending := h.ascending.changeAt id.value fun x => { x with result := some r }
  ordered := h.ordered
  requests k := by
    rw [Collected.finish, lookup_changeAt, h.requests, EventLog.requestRead, EventLog.requestRead,
      EventLog.starts_append, starts, List.append_nil, EventLog.result_append, results]
    by_cases hk : k = id.value
    · subst hk
      rw [if_pos rfl, if_pos rfl, unfinished, Option.map_map]
      rfl
    · have hne : id ≠ ⟨k⟩ := fun heq => hk (heq ▸ rfl)
      rw [if_neg hk, if_neg hne, Option.or_none]
      rfl
  executions k index := (h.executions k index).trans (executions k index).symm
  attempts k := (h.attempts k).trans (attempts k).symm

/-- The end of an attempt is set where the attempt is. -/
theorem Shows.finishAttempt {attempt : AttemptId} {r : AttemptResult} (h : Shows c l [])
    (unfinished : l.attemptResult attempt = none) (sent : EventLog.sent [entry] = [])
    (results : ∀ k, EventLog.attemptResult [entry] k = if attempt = k then some r else none)
    (requests : ∀ k, EventLog.requestRead (l ++ [entry]) [] k = l.requestRead [] k)
    (executions : ∀ k index, EventLog.executionRead (l ++ [entry]) [] k index =
      l.executionRead [] k index) (remarks : List String) :
    Shows { c.finishAttempt attempt r with remarks } (l ++ [entry]) [] where
  ascending := h.ascending
  ordered := h.ordered
  requests k := (h.requests k).trans (requests k).symm
  executions k index := (h.executions k index).trans (executions k index).symm
  attempts k := by
    rw [Collected.finishAttempt, lookup_changeAt, h.attempts, EventLog.attemptRead_nil,
      EventLog.attemptRead_nil, EventLog.sent_append, sent,
      List.append_nil, EventLog.attemptResult_append, results]
    by_cases hk : k = attempt.value
    · subst hk
      rw [if_pos rfl, if_pos rfl, unfinished, Option.map_map]
      rfl
    · have hne : attempt ≠ ⟨k⟩ := fun heq => hk (heq ▸ rfl)
      rw [if_neg hk, if_neg hne, Option.or_none]

/-- A request that starts is stored under its number. -/
theorem Shows.begin {id : RequestId} {time : Instant} (h : Shows c l [])
    (unstarted : ∀ a ∈ l, a.1.subject ≠ .request id) :
    Shows (c.add (.newRequest id, time)) (l ++ [(.newRequest id, time)]) [] where
  ascending := h.ascending.putAt id.value _
  ordered := h.ordered
  requests k := by
    have running : ∀ a ∈ l, a.1.subject = .request id → a.1.isStart = true :=
      fun a ha heq => absurd heq (unstarted a ha)
    rw [Collected.add, lookup_putAt, h.requests, EventLog.requestRead, EventLog.requestRead,
      EventLog.starts_append, List.lookup_append, EventLog.result_append]
    by_cases hk : k = id.value
    · subst hk
      rw [if_pos rfl, EventLog.starts_eq_none unstarted, EventLog.result_eq_none running]
      simp [EventLog.starts, EventLog.result, EventLog.attemptsWithin]
    · have hnone : (EventLog.starts [(.newRequest id, time)]).lookup k = none := by
        simp [EventLog.starts, List.lookup_cons, beq_false_of_ne hk]
      have hopen : EventLog.result [(.newRequest id, time)] ⟨k⟩ = none := rfl
      rw [if_neg hk, hnone, Option.or_none, hopen, Option.or_none]
      rfl
  executions k index :=
    (h.executions k index).trans (EventLog.executionRead_concat (fun _ => rfl) k index).symm
  attempts k := (h.attempts k).trans (EventLog.attemptRead_concat rfl (fun _ => rfl) k).symm

/-- A speculative execution that starts is stored under its request and its index. -/
theorem Shows.speculate {id : RequestId} {index : Nat} {time : Instant} (h : Shows c l [])
    (unstarted : ∀ a ∈ l, a.1.subject ≠ .execution id index) :
    Shows (c.add (.newSpeculativeExecution id index, time))
      (l ++ [(.newSpeculativeExecution id index, time)]) [] := by
  have hput (k : Nat) : executionsOf (c.add (.newSpeculativeExecution id index, time)) k =
      if k = id.value then putAt index { startTime := time } (c.executionsOf id.value)
      else c.executionsOf k := executionsOf_put ..
  constructor
  case ascending => exact h.ascending
  case ordered =>
    intro k
    rw [hput]
    split
    · exact (h.ordered id.value).putAt index _
    · exact h.ordered k
  case requests =>
    exact fun k => (h.requests k).trans (EventLog.requestRead_concat rfl (fun _ => rfl) k).symm
  case executions =>
    intro k x
    rw [hput, EventLog.executionRead, EventLog.speculations_append, List.lookup_append]
    by_cases hk : k = id.value
    · subst hk
      rw [if_pos rfl, lookup_putAt, h.executions, EventLog.executionRead]
      by_cases hx : x = index
      · subst hx
        rw [if_pos rfl, EventLog.speculations_eq_none unstarted]
        simp [EventLog.speculations, EventLog.attemptsWithin]
      · have hnone : (EventLog.speculations [(.newSpeculativeExecution id index, time)]
            ⟨id.value⟩).lookup x = none := by
          simp [EventLog.speculations, List.lookup_cons, beq_false_of_ne hx]
        rw [if_neg hx, hnone, Option.or_none]
        rfl
    · have hne : id ≠ ⟨k⟩ := fun heq => hk (heq ▸ rfl)
      have hnone :
          EventLog.speculations [(.newSpeculativeExecution id index, time)] ⟨k⟩ = [] := by
        simp [EventLog.speculations, hne]
      rw [if_neg hk, h.executions, EventLog.executionRead, hnone, List.lookup_nil, Option.or_none]
      rfl
  case attempts =>
    exact fun k => (h.attempts k).trans (EventLog.attemptRead_concat rfl (fun _ => rfl) k).symm

/-- An attempt that is sent is stored under its number. -/
theorem Shows.send {attempt : AttemptId} {id : RequestId} {index : Nat} {address : Address}
    {time : Instant} (h : Shows c l []) (unsent : ∀ a ∈ l, a.1.subject ≠ .attempt attempt) :
    Shows (c.add (.newAttempt attempt id index address, time))
      (l ++ [(.newAttempt attempt id index address, time)]) [] where
  ascending := h.ascending
  ordered := h.ordered
  requests k := (h.requests k).trans (EventLog.requestRead_concat rfl (fun _ => rfl) k).symm
  executions k x :=
    (h.executions k x).trans (EventLog.executionRead_concat (fun _ => rfl) k x).symm
  attempts k := by
    have running : ∀ a ∈ l, a.1.subject = .attempt attempt → a.1.isStart = true :=
      fun a ha heq => absurd heq (unsent a ha)
    rw [Collected.add, lookup_putAt, h.attempts, EventLog.attemptRead_nil, EventLog.attemptRead_nil,
      EventLog.sent_append, List.lookup_append, EventLog.attemptResult_append]
    by_cases hk : k = attempt.value
    · subst hk
      rw [if_pos rfl, lookup_eq_none_of_not_mem (EventLog.not_mem_sent unsent),
        EventLog.attemptResult_eq_none running]
      simp [EventLog.sent, EventLog.attemptResult]
    · have hnone :
          (EventLog.sent [(.newAttempt attempt id index address, time)]).lookup k = none := by
        simp [EventLog.sent, List.lookup_cons, beq_false_of_ne hk]
      have hopen :
          EventLog.attemptResult [(.newAttempt attempt id index address, time)] ⟨k⟩ = none := rfl
      rw [if_neg hk, hnone, Option.or_none, hopen, Option.or_none]

/-- Every event adds to what is collected what it says. -/
theorem Shows.add (h : Shows c l []) (fresh : ∀ a ∈ l, a.1.MayPrecede entry.1) :
    Shows (c.add entry) (l ++ [entry]) [] := by
  have unstarted (start : entry.1.isStart = true) : ∀ a ∈ l, a.1.subject ≠ entry.1.subject := by
    intro a ha heq
    exact Bool.false_ne_true ((fresh a ha heq).2.symm.trans start)
  have running : ∀ a ∈ l, a.1.subject = entry.1.subject → a.1.isStart = true :=
    fun a ha heq => (fresh a ha heq).1
  obtain ⟨event, time⟩ := entry
  cases event with
  | newRequest id => exact h.begin (unstarted rfl)
  | requestSuccess id | requestError id | requestCancelled id =>
    exact h.finish (EventLog.result_eq_none running) rfl (by simp [EventLog.result])
      (EventLog.executionRead_concat fun _ => rfl) (EventLog.attemptRead_concat rfl fun _ => rfl)
  | newSpeculativeExecution id index => exact h.speculate (unstarted rfl)
  | newAttempt attempt id index address => exact h.send (unstarted rfl)
  | attemptSuccess attempt | attemptError attempt error decision =>
    exact h.finishAttempt (EventLog.attemptResult_eq_none running) rfl
      (by simp [EventLog.attemptResult]) (EventLog.requestRead_concat rfl fun _ => rfl)
      (EventLog.executionRead_concat fun _ => rfl) _

theorem shows_read {l : EventLog} (sound : l.Sound) : Shows (l.foldl Collected.add {}) l [] := by
  induction l using List.reverseRecOn with
  | nil =>
    have hnothing : Shows {} [] [] := by
      constructor <;> intros <;> first | rfl | exact List.Pairwise.nil
    exact hnothing
  | append_singleton l entry ih =>
    obtain ⟨hsound, hfresh⟩ := sound.of_concat
    rw [List.foldl_append]
    exact (ih hsound).add hfresh

-- ============================================================================
-- The second reading
-- ============================================================================

section Placing

variable {part rest : EventLog}

/-- The speculative executions of a request after one of them was changed. -/
theorem executionsOf_change (c : Collected) (attempts : List (Nat × AttemptHistory))
    (request index : Nat) (f : ExecutionHistory → ExecutionHistory) (k : Nat) :
    executionsOf
        { c with executions := changeAt request (changeAt index f) c.executions, attempts } k =
      if k = request then changeAt index f (c.executionsOf k) else c.executionsOf k := by
  rw [executionsOf, lookup_changeAt]
  split
  · rw [executionsOf]
    cases c.executions.lookup k <;> rfl
  · rfl

/-- No speculative execution has the index of the initial one. -/
theorem executionRead_zero (sound : l.Sound) (part : EventLog) (k : Nat) :
    l.executionRead part k 0 = none := by
  rw [EventLog.executionRead, EventLog.speculations_eq_none, Option.map_none]
  rintro ⟨event, time⟩ hentry heq
  cases event <;> cases heq
  exact sound.later _ hentry _ _ rfl rfl

theorem attemptsWithin_concat (l part : EventLog) (attempt : AttemptId) (id : RequestId)
    (index : Nat) (address : Address) (time : Instant) (id' : RequestId) (index' : Nat) :
    l.attemptsWithin (part ++ [(.newAttempt attempt id index address, time)]) id' index' =
      l.attemptsWithin part id' index' ++ if id = id' ∧ index = index' then
        [{ sendTime := time, address, result := l.attemptResult attempt }] else [] := by
  rw [EventLog.attemptsWithin, List.filterMap_append]
  by_cases h : id = id' ∧ index = index'
  · simp [EventLog.attemptsWithin, h]
  · rw [if_neg h]
    simp [EventLog.attemptsWithin, h]

/-- An event that sends no attempt is skipped. -/
theorem Shows.skip (h : Shows c l part)
    (silent : ∀ id index, l.attemptsWithin (part ++ [entry]) id index =
      l.attemptsWithin part id index)
    (unsent : EventLog.sent (part ++ [entry]) = EventLog.sent part) :
    Shows c l (part ++ [entry]) :=
  { h with
    requests := fun k => by simpa [EventLog.requestRead, silent] using h.requests k
    executions := fun k x => by simpa [EventLog.executionRead, silent] using h.executions k x
    attempts := fun k => by
      rw [EventLog.attemptRead, unsent]
      exact h.attempts k }

section Attempts

variable {attempt : AttemptId} {id : RequestId} {index : Nat} {address : Address} {time : Instant}

/-- An attempt is found as it was sent, with its result. -/
theorem lookup_attempt (attempts : ∀ k, c.attempts.lookup k = l.attemptRead part k)
    (whole : l = part ++ (.newAttempt attempt id index address, time) :: rest)
    (unsent : attempt.value ∉ part.sent.map Prod.fst) : c.attempts.lookup attempt.value =
      some { sendTime := time, address, result := l.attemptResult attempt } := by
  have hsent : l.sent.lookup attempt.value = some { sendTime := time, address } := by
    rw [whole, EventLog.sent_append, List.lookup_append, lookup_eq_none_of_not_mem unsent]
    exact List.lookup_cons_self
  rw [attempts, EventLog.attemptRead, if_neg unsent, hsent]
  rfl

/-- It is no longer found once it was put into its execution. -/
theorem lookup_filter_attempt (attempts : ∀ k, c.attempts.lookup k = l.attemptRead part k)
    (k : Nat) :
    (c.attempts.filter (·.1 ≠ attempt.value)).lookup k =
      l.attemptRead (part ++ [(.newAttempt attempt id index address, time)]) k := by
  have hkeys : (EventLog.sent (part ++ [(.newAttempt attempt id index address, time)])).map
      Prod.fst = part.sent.map Prod.fst ++ [attempt.value] := by
    rw [EventLog.sent_append, List.map_append]
    rfl
  rw [lookup_filter_ne, attempts, EventLog.attemptRead, EventLog.attemptRead, hkeys]
  by_cases hk : k = attempt.value
  · simp [hk]
  · have hmem : k ∈ part.sent.map Prod.fst ++ [attempt.value] ↔ k ∈ part.sent.map Prod.fst := by
      rw [List.mem_append, List.mem_singleton, or_iff_left hk]
    rw [if_neg hk]
    simp only [hmem]

/-- An attempt of the initial execution is put there. -/
theorem Shows.placeMain (h : Shows c l part) (sound : l.Sound)
    (found : c.attempts.lookup attempt.value =
      some { sendTime := time, address, result := l.attemptResult attempt }) :
    Shows (c.place (.newAttempt attempt id 0 address, time)) l
      (part ++ [(.newAttempt attempt id 0 address, time)]) := by
  have hwithin := attemptsWithin_concat l part attempt id 0 address time
  rw [Collected.place, found]
  dsimp only
  rw [if_pos rfl]
  refine ⟨?_, h.ordered, fun k => ?_, fun k x => ?_, lookup_filter_attempt h.attempts⟩
  · dsimp only
    exact h.ascending.changeAt _ _
  · rw [lookup_changeAt, h.requests, EventLog.requestRead, EventLog.requestRead, hwithin]
    by_cases hk : k = id.value
    · subst hk
      simp [Option.map_map, Function.comp_def]
    · have hne : id ≠ ⟨k⟩ := fun heq => hk (heq ▸ rfl)
      simp [hk, hne]
  · by_cases hx : x = 0
    · subst hx
      exact (h.executions k 0).trans ((executionRead_zero sound _ k).trans
        (executionRead_zero sound _ k).symm)
    · rw [EventLog.executionRead, hwithin, if_neg fun heq => hx heq.2.symm, List.append_nil]
      exact h.executions k x

/-- An attempt of a speculative execution is put into this one. -/
theorem Shows.placeSpeculative (h : Shows c l part) (speculative : index ≠ 0)
    (found : c.attempts.lookup attempt.value =
      some { sendTime := time, address, result := l.attemptResult attempt }) :
    Shows (c.place (.newAttempt attempt id index address, time)) l
      (part ++ [(.newAttempt attempt id index address, time)]) := by
  have hwithin := attemptsWithin_concat l part attempt id index address time
  rw [Collected.place, found]
  dsimp only
  rw [if_neg speculative]
  refine ⟨h.ascending, fun k => ?_, fun k => ?_, fun k x => ?_, lookup_filter_attempt h.attempts⟩
  · rw [executionsOf_change]
    split
    · exact (h.ordered k).changeAt _ _
    · exact h.ordered k
  · rw [EventLog.requestRead, hwithin, if_neg fun heq => speculative heq.2, List.append_nil]
    exact h.requests k
  · rw [executionsOf_change, EventLog.executionRead, hwithin]
    by_cases hk : k = id.value
    · subst hk
      rw [if_pos rfl, lookup_changeAt, h.executions, EventLog.executionRead]
      by_cases hx : x = index
      · subst hx
        simp [Option.map_map, Function.comp_def]
      · simp [hx, Ne.symm hx]
    · have hne : id ≠ ⟨k⟩ := fun heq => hk (heq ▸ rfl)
      rw [if_neg hk, h.executions, EventLog.executionRead]
      simp [hne]

end Attempts

/-- An attempt that is read for the second time is put into its execution. -/
theorem Shows.place (h : Shows c l part) (whole : l = part ++ entry :: rest) (sound : l.Sound) :
    Shows (c.place entry) l (part ++ [entry]) := by
  obtain ⟨event, time⟩ := entry
  cases event with
  | newAttempt attempt id index address =>
    -- nothing was said of the attempt before it was sent, so it has not been put anywhere yet
    have hbefore : ∀ a ∈ part, a.1.subject ≠ .attempt attempt := by
      intro a ha heq
      have horder := sound.order
      rw [whole] at horder
      have hmay := (List.pairwise_append.mp horder).2.2 a ha _ List.mem_cons_self heq
      exact Bool.false_ne_true hmay.2.symm
    have hfound := lookup_attempt h.attempts whole (EventLog.not_mem_sent hbefore)
    by_cases hindex : index = 0
    · exact hindex ▸ h.placeMain sound hfound
    · exact h.placeSpeculative hindex hfound
  | _ =>
    refine h.skip (fun id index => ?_) ?_
    · simp [EventLog.attemptsWithin]
    · simp [EventLog.sent]

theorem shows_placed (sound : l.Sound) :
    Shows (l.foldl Collected.place (l.foldl Collected.add {})) l l := by
  have hplaced (part rest : EventLog) (c : Collected) (whole : l = part ++ rest)
      (h : Shows c l part) : Shows (rest.foldl Collected.place c) l l := by
    induction rest generalizing part c with
    | nil =>
      rw [List.append_nil] at whole
      exact whole ▸ h
    | cons entry rest ih =>
      exact ih (part ++ [entry]) (c.place entry) (by simp [whole]) (h.place whole sound)
  exact hplaced [] l _ rfl (shows_read sound)

end Placing

-- ============================================================================
-- The whole arrangement
-- ============================================================================

/-- What was collected is the same if the same was read. -/
theorem Shows.assemble_congr {c c' : Collected} {l l' : EventLog} (h : Shows c l l)
    (h' : Shows c' l' l') (requests : ∀ k, l.requestRead l k = l'.requestRead l' k)
    (executions : ∀ k index, l.executionRead l k index = l'.executionRead l' k index) :
    c.assemble = c'.assemble := by
  have hrequests : c.requests = c'.requests :=
    h.ascending.ext h'.ascending fun k => by rw [h.requests, h'.requests, requests]
  have hexecutions (k : Nat) : c.executionsOf k = c'.executionsOf k :=
    (h.ordered k).ext (h'.ordered k) fun index => by
      rw [h.executions, h'.executions, executions]
  rw [assemble, assemble, hrequests]
  simp only [hexecutions]

end Collected

namespace EventLog

variable {l l' : EventLog}

/-- The indices of the speculative executions of a request are distinct. -/
theorem Sound.distinct (sound : l.Sound) (id : RequestId) :
    ((l.speculations id).map Prod.fst).Nodup := by
  rw [List.Nodup, List.pairwise_map, speculations, List.pairwise_filterMap]
  refine sound.order.imp ?_
  rintro ⟨event, time⟩ ⟨event', time'⟩ hmay x hx y hy heq
  cases event with
  | newSpeculativeExecution id₁ index =>
    cases event' with
    | newSpeculativeExecution id₂ index' =>
      simp only [Option.ite_none_right_eq_some, Option.some.injEq] at hx hy
      obtain ⟨rfl, rfl⟩ := hx
      obtain ⟨rfl, rfl⟩ := hy
      have hsame := hmay (congrArg (Subject.execution _) heq)
      exact Bool.false_ne_true hsame.2.symm
    | _ => cases hy
  | _ => cases hx

/-- The arrangement of a sound log, in which requests are numbered in the order of their starts. -/
theorem Sound.arranged (sound : l.Sound) (ascending : Ascending l.starts) :
    (RequestHistory.ofEvents l).1 = l.arranged := by
  have hshows := Collected.shows_placed sound
  rw [RequestHistory.ofEvents, EventLog.arranged]
  generalize l.foldl Collected.place (l.foldl Collected.add {}) = c at hshows
  have hrequests : c.requests = l.starts.map fun x =>
      (x.1, { startTime := x.2, main := l.execution ⟨x.1⟩ 0 x.2, result := l.result ⟨x.1⟩ }) := by
    refine hshows.ascending.ext ?_ fun k => ?_
    · exact ascending.map_snd _
    · rw [hshows.requests, lookup_map_snd]
      rfl
  have hexecutions (k : Nat) : c.executionsOf k =
      ((l.speculations ⟨k⟩).mergeSort fun a b => a.1 ≤ b.1).map fun x =>
        (x.1, l.execution ⟨k⟩ x.1 x.2) := by
    obtain ⟨hsorted, hlookup⟩ := ascending_mergeSort (sound.distinct ⟨k⟩)
    refine (hshows.ordered k).ext ?_ fun index => ?_
    · exact hsorted.map_snd _
    · rw [hshows.executions, lookup_map_snd, hlookup]
      rfl
  rw [Collected.assemble, hrequests, List.map_map]
  refine List.map_congr_left fun x _ => ?_
  simp only [Function.comp_apply, hexecutions, List.map_map, Function.comp_def]
  rfl

-- ============================================================================
-- Other orders
-- ============================================================================

/-- The request that an event belongs to, given to which request each attempt belongs. -/
def owner (attemptOwner : AttemptId → RequestId) (event : HistoryEvent) : RequestId :=
  match event.subject with
  | .request id | .execution id _ => id
  | .attempt attempt => attemptOwner attempt

/-- What a log says of one request. -/
def about (l : EventLog) (attemptOwner : AttemptId → RequestId) (id : RequestId) : EventLog :=
  l.filter fun entry => owner attemptOwner entry.1 = id

/-- Whether attempts belong to requests as a log says. -/
def Owns (attemptOwner : AttemptId → RequestId) (l : EventLog) : Prop :=
  ∀ entry ∈ l, ∀ attempt id index address,
    entry.1 = .newAttempt attempt id index address → attemptOwner attempt = id

section Orders

variable {attemptOwner : AttemptId → RequestId}

theorem mem_about {entry : HistoryEvent × Instant} {id : RequestId} :
    entry ∈ l.about attemptOwner id ↔ entry ∈ l ∧ owner attemptOwner entry.1 = id := by
  rw [about, List.mem_filter, decide_eq_true_eq]

/-- Logs that say the same of each request say the same altogether, in some order. -/
theorem mem_of_about (same : ∀ id, l.about attemptOwner id = l'.about attemptOwner id)
    {entry : HistoryEvent × Instant} (mem : entry ∈ l') : entry ∈ l := by
  have habout := mem_about.mpr ⟨mem, (rfl : owner attemptOwner entry.1 = _)⟩
  rw [← same] at habout
  exact (mem_about.mp habout).1

/-- Events of different requests are about different things. -/
theorem mayPrecede_of_owner_ne {e e' : HistoryEvent}
    (other : owner attemptOwner e ≠ owner attemptOwner e') : e.MayPrecede e' := by
  intro heq
  rw [owner, owner, heq] at other
  exact absurd rfl other

/-- Whether a log is sound does not depend on how the events of different requests are
    interleaved. -/
theorem Sound.reordered (sound : l.Sound)
    (same : ∀ id, l.about attemptOwner id = l'.about attemptOwner id) : l'.Sound := by
  refine ⟨List.pairwise_iff_forall_sublist.mpr fun {a b} hsub => ?_,
    fun entry hmem => sound.later entry (mem_of_about same hmem)⟩
  -- two events of one request stand in the same order in what either log says of it
  by_cases howner : owner attemptOwner a.1 = owner attemptOwner b.1
  · have habout := hsub.filter fun entry =>
      decide (owner attemptOwner entry.1 = owner attemptOwner b.1)
    simp only [List.filter_cons, howner, decide_true, if_true, List.filter_nil] at habout
    have hsame := same (owner attemptOwner b.1)
    rw [about, about] at hsame
    rw [← hsame] at habout
    exact List.pairwise_iff_forall_sublist.mp sound.order (habout.trans List.filter_sublist)
  · exact mayPrecede_of_owner_ne howner

/-! What a log says of a request can be read off the part of it that is about that request. -/

theorem starts_about (l : EventLog) (k : Nat) :
    (l.about attemptOwner ⟨k⟩).starts.lookup k = l.starts.lookup k := by
  induction l with
  | nil => rfl
  | cons entry rest ih =>
    have hcons (rest : EventLog) : starts (entry :: rest) = starts [entry] ++ rest.starts :=
      starts_append (l := [entry])
    rw [about, List.filter_cons]
    split
    · rw [hcons, List.lookup_append, hcons rest, List.lookup_append, ← ih]
      rfl
    · rename_i hother
      have hfresh : ∀ a ∈ [entry], a.1.subject ≠ .request ⟨k⟩ := by
        intro a ha heq
        refine hother ?_
        rw [List.mem_singleton.mp ha] at heq
        simp [owner, heq]
      have hunstarted : (starts [entry]).lookup k = none := starts_eq_none hfresh
      rw [hcons, List.lookup_append, hunstarted, ← ih]
      rfl

theorem speculations_about (l : EventLog) (id : RequestId) :
    (l.about attemptOwner id).speculations id = l.speculations id := by
  apply speculations_filter_of
  intro entry _ index hsubject
  simp [owner, hsubject]

theorem result_about (l : EventLog) (id : RequestId) :
    (l.about attemptOwner id).result id = l.result id := by
  apply result_filter_of
  intro entry _ hsubject _
  simp [owner, hsubject]

theorem attemptResult_about (l : EventLog) (attempt : AttemptId) :
    (l.about attemptOwner (attemptOwner attempt)).attemptResult attempt =
      l.attemptResult attempt := by
  apply attemptResult_filter_of
  intro entry _ hsubject _
  simp [owner, hsubject]

theorem attemptsWithin_about (owns : Owns attemptOwner l) (id : RequestId) (index : Nat) :
    (l.about attemptOwner id).attemptsWithin (l.about attemptOwner id) id index =
      l.attemptsWithin l id index := by
  apply attemptsWithin_filter_of
  intro attempt address time hmem
  obtain rfl : attemptOwner attempt = id := owns _ hmem attempt id index address rfl
  exact ⟨decide_eq_true rfl, attemptResult_about l attempt⟩

/-- The arrangement of a sound log does not depend on how the events of different requests are
    interleaved. -/
theorem Sound.arrangement_reordered (sound : l.Sound) (owns : Owns attemptOwner l)
    (same : ∀ id, l.about attemptOwner id = l'.about attemptOwner id) :
    (RequestHistory.ofEvents l').1 = (RequestHistory.ofEvents l).1 := by
  have hmem (entry : HistoryEvent × Instant) (h : entry ∈ l') : entry ∈ l := mem_of_about same h
  have howns : Owns attemptOwner l' := fun entry hentry => owns entry (hmem entry hentry)
  have hattempts (k index : Nat) :
      l'.attemptsWithin l' ⟨k⟩ index = l.attemptsWithin l ⟨k⟩ index := by
    rw [← attemptsWithin_about howns, ← same, attemptsWithin_about owns]
  have hstarts (k : Nat) : l'.starts.lookup k = l.starts.lookup k :=
    calc l'.starts.lookup k
        = (l'.about attemptOwner ⟨k⟩).starts.lookup k := (starts_about l' k).symm
      _ = (l.about attemptOwner ⟨k⟩).starts.lookup k := by rw [same]
      _ = l.starts.lookup k := starts_about l k
  have hresult (id : RequestId) : l'.result id = l.result id :=
    calc l'.result id
        = (l'.about attemptOwner id).result id := (result_about l' id).symm
      _ = (l.about attemptOwner id).result id := by rw [same]
      _ = l.result id := result_about l id
  have hspeculations (id : RequestId) : l'.speculations id = l.speculations id :=
    calc l'.speculations id
        = (l'.about attemptOwner id).speculations id := (speculations_about l' id).symm
      _ = (l.about attemptOwner id).speculations id := by rw [same]
      _ = l.speculations id := speculations_about l id
  refine Collected.Shows.assemble_congr (Collected.shows_placed (sound.reordered same))
    (Collected.shows_placed sound) (fun k => ?_) fun k index => ?_
  · rw [requestRead, requestRead, hattempts, hstarts, hresult]
  · rw [executionRead, executionRead, hattempts, hspeculations]

end Orders

end EventLog

end RequestEngine
