/-
  RequestEngine.Proofs.Observation.Archive

  A history collector whose log is copied and taken out at any time.  It is told
  whatever anyone tells it, of any requests and in any order.  Each time it gives
  out exactly what it was told since its log was taken out for the last time.
  What is taken out, one piece after the other, and what is left make up the log
  that it would hold if nothing had been taken, with the same numbers and the same
  items; so a piece can be arranged by itself, and it contains what was started in
  it.

    * `Handling`, `Archive`   — what happens to a collector, and what has become of
      its log;
    * `Archive.due`           — what a collector has to hold;
    * `Archive.whole`         — the ledger with all pieces put together again;
    * `Ledger.Entered`        — what is recorded of whatever is told;
    * `Archive.Kept`          — all that is kept whenever the log is copied or taken;
    * `Archive.kept_after`    — it is.
-/
import Mathlib.Data.List.DropRight
import RequestEngine.Proofs.Observation.Recount

namespace RequestEngine

-- ============================================================================
-- What anyone may tell
-- ============================================================================

namespace History

variable {h : History} {t : Tracking} {now : Instant} {n : Notification}

/-- What is recorded does not depend on what was recorded before, and comes after it. -/
theorem after_onto (h : History) (log : EventLog) (t : Tracking) (now : Instant)
    (n : Notification) : ({ h with events := log } : History).after t now n =
      { h.after t now n with events := log ++ ((h.recorded? t n).map (·, now)).toList } := by
  have hrecorded : ({ h with events := log } : History).recorded? t n = h.recorded? t n := by
    cases n <;> rfl
  rw [after, hrecorded, after]
  cases h.recorded? t n with
  | none => simp
  | some event => cases n <;> rfl

theorem after_prepend (h : History) (before : EventLog) (t : Tracking) (now : Instant)
    (n : Notification) : ({ h with events := before ++ h.events } : History).after t now n =
      { h.after t now n with events := before ++ (h.after t now n).events } := by
  rw [after_onto, after_events, List.append_assoc]

theorem leaves_prepend (h : History) (before : EventLog) (t : Tracking) (n : Notification) :
    ({ h with events := before ++ h.events } : History).leaves t n = h.leaves t n := by
  cases n <;> rfl

/-- The numbers of requests are given one after the other. -/
theorem range_nextRequest (h : History) (t : Tracking) (now : Instant) (n : Notification) :
    List.range (h.after t now n).nextRequest.value = List.range h.nextRequest.value ++
      (EventLog.starts ((h.recorded? t n).map (·, now)).toList).map Prod.fst := by
  rw [after]
  cases n with
  | requestStarted => exact List.range_succ
  | nodeFailed host | nodeSucceeded host =>
    rw [recorded?]
    cases attemptId? t host <;> exact (List.append_nil _).symm
  | nodeStarted | speculated | requestSucceeded | requestFailed | requestCancelled =>
    rw [recorded?]
    cases requestId? t <;> exact (List.append_nil _).symm

/-- The numbers of attempts are given one after the other. -/
theorem range_nextAttempt (h : History) (t : Tracking) (now : Instant) (n : Notification) :
    List.range (h.after t now n).nextAttempt.value = List.range h.nextAttempt.value ++
      (EventLog.sent ((h.recorded? t n).map (·, now)).toList).map Prod.fst := by
  rw [after]
  cases n with
  | requestStarted => exact (List.append_nil _).symm
  | nodeStarted host =>
    rw [recorded?]
    cases requestId? t with
    | none => exact (List.append_nil _).symm
    | some id => exact List.range_succ
  | nodeFailed host | nodeSucceeded host =>
    rw [recorded?]
    cases attemptId? t host <;> exact (List.append_nil _).symm
  | speculated | requestSucceeded | requestFailed | requestCancelled =>
    rw [recorded?]
    cases requestId? t <;> exact (List.append_nil _).symm

end History

namespace Ledger

/-- What is recorded of whatever was told since a ledger was empty. -/
structure Entered (l₀ : Ledger) (incidents : List Incident) : Prop where
  numbered : (l₀.undergoAll incidents).Numbered
  /-- Requests that are named have numbers. -/
  named : ∀ x ∈ l₀.account incidents, ∀ id, x.2.request? = some id →
    id.value < (l₀.undergoAll incidents).history.nextRequest.value
  /-- Attempts that have ended are known no more. -/
  ended : ∀ x ∈ l₀.account incidents, ∀ a, x.2.attempt? = some a →
    a.value < (l₀.undergoAll incidents).history.nextAttempt.value ∧
      (x.2.isStart = false → ∀ i host,
        History.attemptId? ((l₀.undergoAll incidents).tracking i) host ≠ some a)
  order : (l₀.account incidents).Pairwise fun x y => x.2.MayLead y.2
  requests : (l₀.written incidents).starts.map Prod.fst =
    List.range (l₀.undergoAll incidents).history.nextRequest.value
  attempts : (l₀.written incidents).sent.map Prod.fst =
    List.range (l₀.undergoAll incidents).history.nextAttempt.value

variable {l₀ : Ledger} {incidents : List Incident} {c : Telling} {event : HistoryEvent}

/-- Whatever was recorded before may come before what is recorded now. -/
theorem Entered.mayLead (h : l₀.Entered incidents)
    (recorded : (l₀.undergoAll incidents).noted? c = some event) :
    ∀ x ∈ l₀.account incidents, x.2.MayLead event := by
  intro x hx
  refine ⟨?_, ?_⟩
  · -- the number of a request that starts was not given before
    rintro id rfl hnames
    have honce := ((History.once_of_recorded recorded).1 id rfl).2
    rw [noted?, Notification.started_of_once honce] at recorded
    cases recorded
    exact Nat.lt_irrefl _ (h.named x hx _ hnames)
  · intro a hsubject hsubject'
    have hnames : x.2.attempt? = some a := by
      cases hevent : x.2 <;> rw [hevent] at hsubject <;> cases hsubject <;> rfl
    have hnames' : event.attempt? = some a := by
      cases event <;> cases hsubject' <;> rfl
    obtain ⟨hlt, hended⟩ := h.ended x hx a hnames
    rcases History.attemptId?_of_recorded recorded hnames' with
      ⟨-, rfl, -⟩ | ⟨hend, host, -, hknown⟩
    · exact absurd hlt (Nat.lt_irrefl _)
    · refine ⟨?_, hend⟩
      cases hstart : x.2.isStart with
      | true => rfl
      | false => exact absurd hknown (hended hstart _ host)

theorem Entered.hear (h : l₀.Entered incidents) (c : Telling) :
    l₀.Entered (incidents ++ [.told c]) := by
  have hafter : l₀.undergoAll (incidents ++ [.told c]) = (l₀.undergoAll incidents).hear c :=
    undergoAll_concat ..
  constructor
  case numbered => exact hafter ▸ h.numbered.hear c
  case named =>
    intro x hx id names
    rw [hafter]
    rcases mem_account_told.mp hx with hx | ⟨rfl, hentry⟩
    · rw [hear_nextRequest]
      exact Nat.lt_add_right _ (h.named x hx id names)
    · apply (h.numbered.hear x.1).request x.1.request
      rw [hear_tracking, if_pos rfl]
      exact History.requestId?_of_recorded hentry names
  case ended =>
    rw [hafter]
    exact h.numbered.closes_told h.ended
  case order => exact pairwise_account_told h.order fun _ => h.mayLead
  case requests =>
    rw [hafter, hear_eq, written_told, EventLog.starts_append, List.map_append, h.requests]
    exact (History.range_nextRequest ..).symm
  case attempts =>
    rw [hafter, hear_eq, written_told, EventLog.sent_append, List.map_append, h.attempts]
    exact (History.range_nextAttempt ..).symm

/-- Whatever is told, of any requests and in any order. -/
theorem entered (statement : Nat → Option TrackedStatement) (tellings : List Telling) :
    (start statement).Entered (tellings.map .told) := by
  induction tellings using List.reverseRecOn with
  | nil =>
    exact ⟨numbered_start statement, by simp [account], by simp [account], .nil, rfl, rfl⟩
  | append_singleton tellings c ih =>
    rw [List.map_append]
    exact ih.hear c

/-- The log that is written is coherent. -/
theorem Entered.coherent (h : l₀.Entered incidents) : (l₀.written incidents).Coherent where
  order := List.pairwise_map.mpr h.order
  requests := by
    rw [Ascending, h.requests]
    exact List.pairwise_lt_range
  attempts := by
    rw [Ascending, h.attempts]
    exact List.pairwise_lt_range

end Ledger

-- ============================================================================
-- Copies and pieces
-- ============================================================================

/-- A collector is told something, or its log is copied or taken out. -/
inductive Handling where
  | told (telling : Telling)
  | copied
  | taken

namespace Handling

/-- What was told. -/
def tellings (handlings : List Handling) : List Telling :=
  handlings.filterMap fun
    | .told c => some c
    | _ => none

/-- Whether the log is copied. -/
def isCopy : Handling → Bool
  | .copied => true
  | _ => false

/-- Whether the log is taken out. -/
def isTake : Handling → Bool
  | .taken => true
  | _ => false

end Handling

/-- A ledger, and what was taken out of it and copied so far. -/
structure Archive where
  ledger : Ledger
  taken : List History := []
  copies : List History := []

namespace Archive

/-- What becomes of an archive. -/
def handle (a : Archive) : Handling → Archive
  | .told c => { a with ledger := a.ledger.hear c }
  | .copied =>
    let (copy, history) := History.copy.run a.ledger.history
    { a with ledger := { a.ledger with history }, copies := a.copies ++ [copy] }
  | .taken =>
    let (collected, history) := History.take.run a.ledger.history
    { a with ledger := { a.ledger with history }, taken := a.taken ++ [collected] }

/-- An archive of nothing, and what becomes of it. -/
def after (statement : Nat → Option TrackedStatement) (handlings : List Handling) : Archive :=
  handlings.foldl handle { ledger := .start statement }

/-- All pieces of the log: those that were taken out, and what is left. -/
def pieces (a : Archive) : List EventLog :=
  a.taken.map History.events ++ [a.ledger.history.events]

/-- The ledger with all pieces put together again. -/
def whole (a : Archive) : Ledger :=
  { a.ledger with history := { a.ledger.history with events := a.pieces.flatten } }

/-! ## What has to be held -/

/-- A ledger out of which nothing is ever taken. -/
def untaken (statement : Nat → Option TrackedStatement) (handlings : List Handling) : Ledger :=
  (Ledger.start statement).undergoAll ((Handling.tellings handlings).map .told)

/-- What is recorded of what was told since the log was taken out for the last time. -/
def collected (statement : Nat → Option TrackedStatement) (handlings : List Handling) :
    EventLog :=
  (untaken statement (handlings.rdropWhile (!·.isTake))).written
    ((Handling.tellings (handlings.rtakeWhile (!·.isTake))).map .told)

/-- What a collector has to hold: this log, and the numbers that are next when nothing was ever
    taken out. -/
def due (statement : Nat → Option TrackedStatement) (handlings : List Handling) : History :=
  { (untaken statement handlings).history with events := collected statement handlings }

variable {a : Archive} {statement : Nat → Option TrackedStatement}
  {handlings before after : List Handling}

theorem flatten_pieces (a : Archive) :
    a.pieces.flatten = (a.taken.map History.events).flatten ++ a.ledger.history.events := by
  simp [pieces]

theorem after_concat (statement : Nat → Option TrackedStatement) (handlings : List Handling)
    (handling : Handling) : Archive.after statement (handlings ++ [handling]) =
      (Archive.after statement handlings).handle handling := by
  rw [Archive.after, List.foldl_append]
  rfl

/-! ## The pieces together -/

/-- What is told is recorded as if nothing had been taken. -/
theorem whole_told (a : Archive) (c : Telling) :
    (a.handle (.told c)).whole = a.whole.hear c := by
  have hevents : ∀ l : Ledger, ({ a with ledger := l } : Archive).whole =
      { l with history := { l.history with
          events := (a.taken.map History.events).flatten ++ l.history.events } } := by
    intro l
    rw [whole, flatten_pieces]
  rw [handle, hevents, whole, flatten_pieces, Ledger.hear_eq, Ledger.hear_eq]
  dsimp only
  rw [History.after_prepend, History.leaves_prepend]

/-- Copying leaves the ledger as it was. -/
theorem ledger_copied (a : Archive) : (a.handle .copied).ledger = a.ledger := rfl

theorem whole_copied (a : Archive) : (a.handle .copied).whole = a.whole := rfl

theorem whole_taken (a : Archive) : (a.handle .taken).whole = a.whole := by
  have hpieces : (a.handle .taken).pieces.flatten = a.pieces.flatten := by
    rw [flatten_pieces, flatten_pieces, handle]
    change ((a.taken ++ [a.ledger.history]).map History.events).flatten ++ [] = _
    simp
  rw [whole, hpieces]
  rfl

theorem untaken_told (statement : Nat → Option TrackedStatement) (handlings : List Handling)
    (c : Telling) :
    untaken statement (handlings ++ [.told c]) = (untaken statement handlings).hear c := by
  rw [untaken, Handling.tellings, List.filterMap_append, List.map_append]
  exact Ledger.undergoAll_concat _ _ (.told c)

theorem untaken_copied (statement : Nat → Option TrackedStatement) (handlings : List Handling) :
    untaken statement (handlings ++ [.copied]) = untaken statement handlings := by
  rw [untaken, Handling.tellings, List.filterMap_append]
  exact congrArg _ (congrArg _ (List.append_nil _))

theorem untaken_taken (statement : Nat → Option TrackedStatement) (handlings : List Handling) :
    untaken statement (handlings ++ [.taken]) = untaken statement handlings := by
  rw [untaken, Handling.tellings, List.filterMap_append]
  exact congrArg _ (congrArg _ (List.append_nil _))

/-- Put together, the pieces are what a ledger holds out of which nothing was taken. -/
theorem whole_after (statement : Nat → Option TrackedStatement) (handlings : List Handling) :
    (Archive.after statement handlings).whole = untaken statement handlings := by
  induction handlings using List.reverseRecOn with
  | nil => rfl
  | append_singleton handlings handling ih =>
    rw [after_concat]
    cases handling with
    | told c => rw [whole_told, ih, untaken_told]
    | copied => rw [whole_copied, ih, untaken_copied]
    | taken => rw [whole_taken, ih, untaken_taken]

/-! ## Each piece -/

theorem untaken_append (statement : Nat → Option TrackedStatement)
    (handlings more : List Handling) : untaken statement (handlings ++ more) =
      (untaken statement handlings).undergoAll ((Handling.tellings more).map .told) := by
  rw [untaken, Handling.tellings, List.filterMap_append, List.map_append]
  exact List.foldl_append

/-- What is told is added to what was collected. -/
theorem collected_told (statement : Nat → Option TrackedStatement) (handlings : List Handling)
    (c : Telling) : collected statement (handlings ++ [.told c]) =
      collected statement handlings ++
        (((untaken statement handlings).noted? c).map (·, c.time)).toList := by
  have hledger : (untaken statement (handlings.rdropWhile (!·.isTake))).undergoAll
      ((Handling.tellings (handlings.rtakeWhile (!·.isTake))).map .told) =
        untaken statement handlings := by
    rw [← untaken_append, List.rdropWhile_append_rtakeWhile]
  have htellings (since : List Handling) : Handling.tellings (since ++ [.told c]) =
      Handling.tellings since ++ [c] := List.filterMap_append
  rw [collected, List.rdropWhile_concat_pos _ _ _ rfl, List.rtakeWhile_concat_pos _ _ _ rfl,
    htellings, List.map_append, List.map_singleton, Ledger.written_told, hledger]
  rfl

theorem collected_copied (statement : Nat → Option TrackedStatement) (handlings : List Handling) :
    collected statement (handlings ++ [.copied]) = collected statement handlings := by
  have htellings (since : List Handling) : Handling.tellings (since ++ [.copied]) =
      Handling.tellings since := List.filterMap_append.trans (List.append_nil _)
  rw [collected, List.rdropWhile_concat_pos _ _ _ rfl, List.rtakeWhile_concat_pos _ _ _ rfl,
    htellings, collected]

/-- Once the log was taken out, nothing is collected. -/
theorem collected_taken (statement : Nat → Option TrackedStatement) (handlings : List Handling) :
    collected statement (handlings ++ [.taken]) = [] := by
  rw [collected, List.rtakeWhile_concat_neg _ _ _ (by simp [Handling.isTake])]
  rfl

theorem due_copied (statement : Nat → Option TrackedStatement) (handlings : List Handling) :
    due statement (handlings ++ [.copied]) = due statement handlings := by
  rw [due, collected_copied, untaken_copied, due]

theorem due_taken (statement : Nat → Option TrackedStatement) (handlings : List Handling) :
    due statement (handlings ++ [.taken]) = { due statement handlings with events := [] } := by
  rw [due, collected_taken, untaken_taken, due]

/-- A collector holds what it has to hold. -/
theorem history_after (statement : Nat → Option TrackedStatement) (handlings : List Handling) :
    (Archive.after statement handlings).ledger.history = due statement handlings := by
  induction handlings using List.reverseRecOn with
  | nil => rfl
  | append_singleton handlings handling ih =>
    rw [after_concat]
    cases handling with
    | told c =>
      -- the items are those of the ledger out of which nothing was taken
      have htracking : (Archive.after statement handlings).ledger.tracking =
          (untaken statement handlings).tracking :=
        congrArg (fun l => l.tracking) (whole_after statement handlings)
      rw [handle, Ledger.hear_eq, ih, htracking, due, due, History.after_onto, untaken_told,
        collected_told, Ledger.hear_eq]
      rfl
    | copied =>
      rw [ledger_copied, ih, due_copied]
    | taken =>
      rw [due_taken, ← ih]
      rfl

/-- What was taken out and what was copied stays as it is. -/
theorem after_grows (statement : Nat → Option TrackedStatement) (before later : List Handling) :
    (Archive.after statement before).taken <+: (Archive.after statement (before ++ later)).taken ∧
      (Archive.after statement before).copies <+:
        (Archive.after statement (before ++ later)).copies := by
  induction later using List.reverseRecOn with
  | nil =>
    rw [List.append_nil]
    exact ⟨List.prefix_rfl, List.prefix_rfl⟩
  | append_singleton later handling ih =>
    obtain ⟨htaken, hcopies⟩ := ih
    rw [← List.append_assoc, after_concat]
    cases handling with
    | told c => exact ⟨htaken, hcopies⟩
    | copied => exact ⟨htaken, hcopies.trans (List.prefix_append _ _)⟩
    | taken => exact ⟨htaken.trans (List.prefix_append _ _), hcopies⟩

/-- Something is given out each time that the log is taken out or copied, and at no other time. -/
theorem length_after (statement : Nat → Option TrackedStatement) (handlings : List Handling) :
    (Archive.after statement handlings).taken.length = handlings.countP (·.isTake) ∧
      (Archive.after statement handlings).copies.length = handlings.countP (·.isCopy) := by
  induction handlings using List.reverseRecOn with
  | nil => exact ⟨rfl, rfl⟩
  | append_singleton handlings handling ih =>
    obtain ⟨htaken, hcopies⟩ := ih
    rw [after_concat, List.countP_append, List.countP_append, ← htaken, ← hcopies]
    cases handling with
    | told c => exact ⟨rfl, rfl⟩
    | copied => exact ⟨rfl, List.length_append⟩
    | taken => exact ⟨List.length_append, rfl⟩

/-- The collector gives what it has to hold when its log is taken out. -/
theorem taken_after (statement : Nat → Option TrackedStatement) (now later : List Handling) :
    (Archive.after statement (now ++ .taken :: later)).taken[now.countP (·.isTake)]? =
      some (due statement now) := by
  obtain ⟨more, hmore⟩ := (after_grows statement (now ++ [.taken]) later).1
  have hnow : (Archive.after statement (now ++ [.taken])).taken =
      (Archive.after statement now).taken ++ [due statement now] := by
    rw [after_concat, ← history_after]
    rfl
  rw [List.append_cons, ← hmore, hnow, ← (length_after statement now).1, List.append_assoc,
    List.getElem?_append_right (Nat.le_refl _), Nat.sub_self]
  rfl

/-- So it does when it is copied. -/
theorem copy_after (statement : Nat → Option TrackedStatement) (now later : List Handling) :
    (Archive.after statement (now ++ .copied :: later)).copies[now.countP (·.isCopy)]? =
      some (due statement now) := by
  obtain ⟨more, hmore⟩ := (after_grows statement (now ++ [.copied]) later).2
  have hnow : (Archive.after statement (now ++ [.copied])).copies =
      (Archive.after statement now).copies ++ [due statement now] := by
    rw [after_concat, ← history_after]
    rfl
  rw [List.append_cons, ← hmore, hnow, ← (length_after statement now).2, List.append_assoc,
    List.getElem?_append_right (Nat.le_refl _), Nat.sub_self]
  rfl

/-- Copies have no part in what becomes of the ledger and of its pieces. -/
theorem after_uncopied (statement : Nat → Option TrackedStatement) (handlings : List Handling) :
    (Archive.after statement (handlings.filter (!·.isCopy))).ledger =
        (Archive.after statement handlings).ledger ∧
      (Archive.after statement (handlings.filter (!·.isCopy))).taken =
        (Archive.after statement handlings).taken := by
  induction handlings using List.reverseRecOn with
  | nil => exact ⟨rfl, rfl⟩
  | append_singleton handlings handling ih =>
    obtain ⟨hledger, htaken⟩ := ih
    rw [List.filter_append, after_concat]
    cases handling with
    | told c =>
      have hone : [Handling.told c].filter (!·.isCopy) = [.told c] := rfl
      rw [hone, after_concat]
      exact ⟨congrArg (·.hear c) hledger, htaken⟩
    | copied =>
      have hnone : [Handling.copied].filter (!·.isCopy) = [] := rfl
      rw [hnone, List.append_nil, ledger_copied]
      exact ⟨hledger, htaken⟩
    | taken =>
      have hone : [Handling.taken].filter (!·.isCopy) = [.taken] := rfl
      rw [hone, after_concat, handle, handle, hledger, htaken]
      exact ⟨rfl, rfl⟩

-- ============================================================================
-- Pieces by themselves
-- ============================================================================

/-- What a ledger holds out of which nothing was taken is all that was written. -/
theorem flatten_pieces_after (statement : Nat → Option TrackedStatement)
    (handlings : List Handling) : (Archive.after statement handlings).pieces.flatten =
      (Ledger.start statement).written ((Handling.tellings handlings).map .told) := by
  have hevents := congrArg (fun l => l.history.events) (whole_after statement handlings)
  rw [untaken, Ledger.events_of_told] at hevents
  exact hevents

theorem coherent_pieces (statement : Nat → Option TrackedStatement) (handlings : List Handling) :
    EventLog.Coherent (Archive.after statement handlings).pieces.flatten := by
  rw [flatten_pieces_after]
  exact (Ledger.entered statement (Handling.tellings handlings)).coherent

/-- What is about requests and attempts of earlier pieces is foreign to a piece. -/
theorem foreign_of_earlier {earlier later : List EventLog} {piece : EventLog} {event : HistoryEvent}
    (coherent : EventLog.Coherent (earlier ++ piece :: later).flatten)
    (about : (∃ id, event.request? = some id ∧
        id.value ∈ (EventLog.starts earlier.flatten).map Prod.fst) ∨
      ∃ attempt, event.attempt? = some attempt ∧
        attempt.value ∈ (EventLog.sent earlier.flatten).map Prod.fst) :
    piece.Foreign event := by
  have hsub : (earlier.flatten ++ piece).Sublist (earlier ++ piece :: later).flatten := by
    rw [List.flatten_append, List.flatten_cons, ← List.append_assoc]
    exact List.sublist_append_left _ _
  obtain ⟨-, hrequests, hattempts⟩ := coherent.sublist hsub
  rw [Ascending, EventLog.starts_append, List.map_append] at hrequests
  rw [Ascending, EventLog.sent_append, List.map_append] at hattempts
  rcases about with ⟨id, hnames, hearlier⟩ | ⟨attempt, hnames, hearlier⟩
  · refine .inl ⟨id, hnames, ?_⟩
    intro hmem
    exact Nat.lt_irrefl _ ((List.pairwise_append.mp hrequests).2.2 _ hearlier _ hmem)
  · refine .inr ⟨attempt, hnames, ?_⟩
    intro hmem
    exact Nat.lt_irrefl _ ((List.pairwise_append.mp hattempts).2.2 _ hearlier _ hmem)

-- ============================================================================
-- All that is kept
-- ============================================================================

/-- What is refused changes neither the history nor the items. -/
theorem unchanged_of_refused {h h' : History} {t t' : Tracking} {now : Instant} {n : Notification}
    {refusal : History.Refusal} (refused : h.record t now n = (h', t', some refusal)) :
    h' = h ∧ t' = t := by
  rw [History.record_spec, Prod.mk.injEq, Prod.mk.injEq] at refused
  obtain ⟨rfl, rfl, hrefused⟩ := refused
  exact ⟨History.after_of_refused hrefused, History.leaves_of_refused hrefused⟩

/-- A callback that returns an error leaves the items of its request and the scene. -/
theorem unchanged_of_failed {place : Nat} {n : Notification} {t t' : Tracking} {s s' : Scene}
    {reason : String} (failed : (Observer.history place).react n t s = (t', s', .failed reason)) :
    t' = t ∧ s' = s := by
  simp only [Observer.history] at failed
  split at failed
  · cases failed
  · rename_i h found
    obtain ⟨hlt, hplace⟩ := List.getElem?_eq_some_iff.mp found
    split at failed
    · cases failed
    · rename_i refusal refused
      have hrecord : h.record t s.now n =
          ((h.record t s.now n).1, (h.record t s.now n).2.1, some refusal) := by rw [← refused]
      obtain ⟨hhistory, htracking⟩ := unchanged_of_refused hrecord
      cases failed
      refine ⟨htracking, ?_⟩
      rw [hhistory, ← hplace, List.set_getElem_self]

/-- All that is kept of whatever a collector is told, whenever its log is copied or taken. -/
structure Kept (statement : Nat → Option TrackedStatement) (handlings : List Handling)
    (a : Archive) : Prop where
  /-- The pieces make up the log that would be held if nothing had been taken, with the same
      numbers to give next and the same items. -/
  whole : a.whole = untaken statement handlings
  /-- Requests are numbered from 0 in the order of their starts. -/
  requests : (EventLog.starts a.pieces.flatten).map Prod.fst =
    List.range a.ledger.history.nextRequest.value
  /-- So are attempts. -/
  attempts : (EventLog.sent a.pieces.flatten).map Prod.fst =
    List.range a.ledger.history.nextAttempt.value
  /-- What is left is what was told since the log was taken out for the last time. -/
  left : a.ledger.history = due statement handlings
  /-- So is what is taken out, each time; then the log is empty, and the numbering goes on. -/
  taken : ∀ now later, handlings = now ++ .taken :: later →
    a.taken[now.countP (·.isTake)]? = some (due statement now) ∧
      (Archive.after statement (now ++ [.taken])).ledger.history =
        { due statement now with events := [] }
  /-- A copy shows the same. -/
  copies : ∀ now later, handlings = now ++ .copied :: later →
    a.copies[now.countP (·.isCopy)]? = some (due statement now)
  /-- Nothing else is given out. -/
  counts : a.taken.length = handlings.countP (·.isTake) ∧
    a.copies.length = handlings.countP (·.isCopy)
  /-- Copies have no part in what is held and taken out. -/
  uncopied : (Archive.after statement (handlings.filter (!·.isCopy))).ledger = a.ledger ∧
    (Archive.after statement (handlings.filter (!·.isCopy))).taken = a.taken
  /-- What is refused leaves no trace: no event, no number and no change of the items. -/
  refused : ∀ (c : Telling) history tracking refusal,
    a.ledger.history.record (a.ledger.tracking c.request) c.time c.notification =
        (history, tracking, some refusal) →
      history = a.ledger.history ∧ tracking = a.ledger.tracking c.request ∧
        a.handle (.told c) = a
  /-- A callback that returns an error has changed nothing. -/
  failed : ∀ place n t s t' s' reason,
    (Observer.history place).react n t s = (t', s', .failed reason) → t' = t ∧ s' = s
  /-- A piece is arranged as what it says of the requests that it starts. -/
  arranged : ∀ piece ∈ a.pieces, (RequestHistory.ofEvents piece).1 = EventLog.recounted piece
  /-- What it says of requests and attempts of earlier pieces is of no account. -/
  late : ∀ earlier piece later, a.pieces = earlier ++ piece :: later →
    ∀ keep : HistoryEvent × Instant → Bool,
    (∀ entry ∈ piece, keep entry = false →
      (∃ id, entry.1.request? = some id ∧
        id.value ∈ (EventLog.starts earlier.flatten).map Prod.fst) ∨
      ∃ attempt, entry.1.attempt? = some attempt ∧
        attempt.value ∈ (EventLog.sent earlier.flatten).map Prod.fst) →
    (RequestHistory.ofEvents (piece.filter keep)).1 = (RequestHistory.ofEvents piece).1

/-- Whatever is told to a collector, and whenever its log is copied or taken out. -/
theorem kept_after (statement : Nat → Option TrackedStatement) (handlings : List Handling) :
    Kept statement handlings (Archive.after statement handlings) where
  whole := whole_after statement handlings
  requests := by
    rw [flatten_pieces_after, (Ledger.entered statement _).requests, history_after]
    rfl
  attempts := by
    rw [flatten_pieces_after, (Ledger.entered statement _).attempts, history_after]
    rfl
  left := history_after statement handlings
  taken now later heq := by
    rw [heq, history_after, due_taken]
    exact ⟨taken_after statement now later, rfl⟩
  copies now later heq := by
    rw [heq]
    exact copy_after statement now later
  counts := length_after statement handlings
  uncopied := after_uncopied statement handlings
  refused c history tracking refusal hrefused := by
    obtain ⟨rfl, rfl⟩ := unchanged_of_refused hrefused
    refine ⟨rfl, rfl, ?_⟩
    rw [handle, Ledger.hear, hrefused]
    dsimp only
    rw [Function.update_eq_self]
  failed place n t s t' s' reason := unchanged_of_failed
  arranged piece hpiece := by
    have hcoherent := coherent_pieces statement handlings
    exact (hcoherent.sublist (List.sublist_flatten_of_mem hpiece)).recounted
  late earlier piece later heq keep hkeep := by
    have hcoherent := coherent_pieces statement handlings
    rw [heq] at hcoherent
    have hpiece : EventLog.Coherent piece :=
      hcoherent.sublist (List.sublist_flatten_of_mem (List.mem_append_right _ List.mem_cons_self))
    apply hpiece.without
    intro entry hentry hdropped
    exact foreign_of_earlier hcoherent (hkeep entry hentry hdropped)

end Archive

end RequestEngine
