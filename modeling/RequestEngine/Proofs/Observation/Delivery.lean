/-
  RequestEngine.Proofs.Observation.Delivery

  Whom a delivery calls.  A walk along the observers of a session calls one
  after the other and stops at the first whose callback is suspended; the others
  are called when the delivery is resumed, if it ever is.

    * `Walks`            — a walk, with the observers that it calls;
    * `Delivery.called`  — these are the observers up to the first suspended one;
    * `Delivery.calls`   — the calls that this makes, by the position of each
      observer among all of them;
    * `heard i calls`    — what the observer at position `i` is told about its
      request as a whole.
-/
import RequestEngine.Observation.Observer

namespace RequestEngine

/-- Whether a notification is about the request as a whole: its start, its outcome, or that its
    caller left. -/
def Notification.isOverall : Notification → Bool
  | .requestStarted => true
  | n => n.isFinal

-- ============================================================================
-- Walks
-- ============================================================================

/-- A walk along observers, with those that it calls and what it comes to. -/
inductive Walks (n : Notification) : List Observer → Tracking → Scene → List Observer →
    Tracking × Scene × Option Delivery → Prop where
  | done {t : Tracking} {s : Scene} : Walks n [] t s [] (t, s, none)
  /-- The callback of an observer ends at once. -/
  | passes {o : Observer} {rest called : List Observer} {t t' : Tracking} {s s' : Scene}
      {verdict : Verdict} {result : Tracking × Scene × Option Delivery}
      (react : o.react n t s = (t', s', verdict)) (prompt : (o.pauseFor n).nanos = 0)
      (walk : Walks n rest t' (s'.guard n.callback verdict) called result) :
      Walks n (o :: rest) t s (o :: called) result
  /-- The callback of an observer is suspended. -/
  | stops {o : Observer} {rest : List Observer} {t t' : Tracking} {s s' : Scene}
      {verdict : Verdict} (react : o.react n t s = (t', s', verdict))
      (suspended : (o.pauseFor n).nanos ≠ 0) :
      Walks n (o :: rest) t s [o] (t', s', some ⟨n, s'.now.after (o.pauseFor n), verdict, rest⟩)

namespace Delivery

/-- The observers that a walk calls: those up to the first one whose callback is suspended. -/
def called (n : Notification) : List Observer → List Observer
  | [] => []
  | o :: rest => if (o.pauseFor n).nanos = 0 then o :: called n rest else [o]

variable {n : Notification} {observers rest : List Observer} {t : Tracking} {s : Scene}

/-- Every walk calls these observers, and each of them once. -/
theorem walk_walks (n : Notification) (observers : List Observer) (t : Tracking) (s : Scene) :
    Walks n observers t s (called n observers) (walk n observers t s) := by
  induction observers generalizing t s with
  | nil => exact .done
  | cons o rest ih =>
    rcases hreact : o.react n t s with ⟨t', s', verdict⟩
    simp only [walk, called, hreact]
    split
    · rename_i prompt
      exact .passes hreact prompt (ih ..)
    · rename_i suspended
      exact .stops hreact suspended

/-- A walk that is suspended leaves the observers that it has not called, to be told the same. -/
theorem walk_suspended {d : Delivery} (h : (walk n observers t s).2.2 = some d) :
    d.notification = n ∧ called n observers ++ d.remaining = observers := by
  have hwalk := walk_walks n observers t s
  generalize called n observers = reached, walk n observers t s = result at h hwalk
  induction hwalk with
  | done => cases h
  | passes _ _ _ ih =>
    obtain ⟨hnotification, hremaining⟩ := ih h
    exact ⟨hnotification, by rw [List.cons_append, hremaining]⟩
  | stops =>
    cases h
    exact ⟨rfl, rfl⟩

/-- A walk that is not suspended calls everybody. -/
theorem walk_done (h : (walk n observers t s).2.2 = none) : called n observers = observers := by
  have hwalk := walk_walks n observers t s
  generalize called n observers = reached, walk n observers t s = result at h hwalk
  induction hwalk with
  | done => rfl
  | passes _ _ _ ih => rw [ih h]
  | stops => cases h

theorem length_called_le (n : Notification) (observers : List Observer) :
    (called n observers).length ≤ observers.length := by
  induction observers with
  | nil => exact Nat.le_refl 0
  | cons o rest ih =>
    simp only [called]
    split
    · exact Nat.succ_le_succ ih
    · exact Nat.succ_le_succ (Nat.zero_le _)

theorem atOnce_cons (n : Notification) (o : Observer) (rest : List Observer) (t : Tracking)
    (s : Scene) :
    atOnce n (o :: rest) t s = atOnce n rest (o.notify n t s).1 (o.notify n t s).2 := rfl

theorem atOnce_append (n : Notification) (observers rest : List Observer) (t : Tracking)
    (s : Scene) : atOnce n (observers ++ rest) t s =
      atOnce n rest (atOnce n observers t s).1 (atOnce n observers t s).2 := by
  rw [atOnce, List.foldl_append]
  rfl

/-- A notification whose callbacks are not suspended reaches everybody at once. -/
theorem walk_of_unpaused (h : ∀ o ∈ observers, (o.pauseFor n).nanos = 0) (t : Tracking)
    (s : Scene) :
    walk n observers t s = ((atOnce n observers t s).1, (atOnce n observers t s).2, none) := by
  induction observers generalizing t s with
  | nil => rfl
  | cons o rest ih =>
    obtain ⟨hfirst, hrest⟩ := List.forall_mem_cons.mp h
    rcases hreact : o.react n t s with ⟨t', s', verdict⟩
    simp only [walk, hreact, if_pos hfirst, ih hrest, atOnce, List.foldl_cons, Observer.notify]

theorem called_of_unpaused (h : ∀ o ∈ observers, (o.pauseFor n).nanos = 0) :
    called n observers = observers :=
  walk_done (t := {}) (s := {}) (by rw [walk_of_unpaused h])

/-- Nobody is suspended by a notification that is delivered at once. -/
theorem unpaused_of_prompt (h : n.callback.suspends = false) (o : Observer) :
    (o.pauseFor n).nanos = 0 := by
  simp [Observer.pauseFor, h]

theorem called_of_prompt (h : n.callback.suspends = false) (observers : List Observer) :
    called n observers = observers :=
  called_of_unpaused fun o _ => unpaused_of_prompt h o

end Delivery

-- ============================================================================
-- Calls
-- ============================================================================

/-- A call of the observer at a given position. -/
structure Call where
  position : Nat
  notification : Notification
  deriving DecidableEq, Repr

/-- Calls of so many observers from a given position on. -/
def callsFrom (first count : Nat) (n : Notification) : List Call :=
  (List.range' first count).map (⟨·, n⟩)

/-- The calls that a delivery makes at once, along the rest of all observers. -/
def Delivery.calls (observers rest : List Observer) (n : Notification) : List Call :=
  callsFrom (observers.length - rest.length) (called n rest).length n

/-- The calls that tell of the request as a whole. -/
def overall (calls : List Call) : List Call :=
  calls.filter fun c => c.notification.isOverall

/-- What the observer at a given position is told about the request as a whole. -/
def heard (position : Nat) (calls : List Call) : List Notification :=
  ((overall calls).filter fun c => c.position = position).map Call.notification

section Calls

variable {first count more position : Nat} {n : Notification} {calls calls' : List Call}

theorem callsFrom_append :
    callsFrom first count n ++ callsFrom (first + count) more n =
      callsFrom first (count + more) n := by
  rw [callsFrom, callsFrom, callsFrom, ← List.map_append, List.range'_append_1]

theorem callsFrom_succ :
    callsFrom first (count + 1) n = callsFrom first count n ++ [⟨first + count, n⟩] := by
  rw [← callsFrom_append]
  rfl

@[simp] theorem overall_nil : overall [] = [] := rfl

@[simp] theorem overall_append : overall (calls ++ calls') = overall calls ++ overall calls' :=
  List.filter_append ..

theorem overall_callsFrom (about : n.isOverall = true) :
    overall (callsFrom first count n) = callsFrom first count n :=
  List.filter_eq_self.mpr fun c hc => by
    obtain ⟨i, -, rfl⟩ := List.mem_map.mp hc
    exact about

theorem overall_callsFrom_of_not (other : n.isOverall = false) :
    overall (callsFrom first count n) = [] :=
  List.filter_eq_nil_iff.mpr fun c hc => by
    obtain ⟨i, -, rfl⟩ := List.mem_map.mp hc
    simp [other]

/-- What is told from the first observer on, each observer that is reached hears once. -/
theorem filter_callsFrom : ((callsFrom 0 count n).filter fun c => c.position = position).map
    Call.notification = if position < count then [n] else [] := by
  -- the last one called stands at `count`
  induction count with
  | zero => rfl
  | succ count ih =>
    rw [callsFrom_succ, List.filter_append, List.map_append, ih, Nat.zero_add]
    rcases Nat.lt_trichotomy position count with hlt | rfl | hgt
    · simp [hlt, Nat.lt_succ_of_lt hlt, Nat.ne_of_gt hlt]
    · simp
    · simp [Nat.not_lt_of_gt hgt, Nat.not_lt.mpr hgt, Nat.ne_of_lt hgt]

theorem heard_of_one (h : overall calls = callsFrom 0 count n) (position : Nat) :
    heard position calls = if position < count then [n] else [] := by
  rw [heard, h, filter_callsFrom]

theorem heard_of_two {n' : Notification} {count' : Nat}
    (h : overall calls = callsFrom 0 count n ++ callsFrom 0 count' n') (position : Nat) :
    heard position calls =
      (if position < count then [n] else []) ++ if position < count' then [n'] else [] := by
  rw [heard, h, List.filter_append, List.map_append, filter_callsFrom, filter_callsFrom]

end Calls

end RequestEngine
