/-
  RequestEngine.Proofs.Observation.Independence

  What the provided observers record beside each other.  They keep their state in
  the items of the request, under keys that name their kind but not themselves.
  So those of different kinds do not get in each other's way, and the first one of
  each kind records what it would alone; but it removes the items of an attempt
  that ends, and those of its kind after it do not learn of that end.

    * `Telling`      — a notification that is delivered, and its surroundings;
    * `Records`      — what has been recorded, and the items of each request;
    * `Collector`    — a kind of observers that record, with the items of their own
      and what one of them misses after another;
    * `Independence` — what an observer records among others and what it would
      alone.
-/
import Mathlib.Logic.Function.Basic
import RequestEngine.Proofs.Observation.Delivery
import RequestEngine.Proofs.Observation.Items

namespace RequestEngine

open Tracking

-- ============================================================================
-- Observers of a session
-- ============================================================================

/-- The observers that are provided. -/
inductive Provided where
  | history
  | metrics
  | tracer (includeStatement : Bool)
  deriving DecidableEq, Repr

namespace Provided

/-- An observer of this kind that records at a given place. -/
def observer (place : Nat) : Provided → Observer
  | history => .history place
  | metrics => .metrics place
  | tracer includeStatement => .tracer includeStatement

/-- Observers of several kinds, each of which has a place of its own. -/
def observers (first : Nat) : List Provided → List Observer
  | [] => []
  | kind :: rest => kind.observer first :: observers (first + 1) rest

end Provided

/-- A notification that is delivered: the request that it is about, and the time and the
    diagnostics at that moment. -/
structure Telling where
  request : Nat
  notification : Notification
  time : Instant
  diagnostics : Diagnostics := {}

/-- What observers have written: the items of each request, and the scene. -/
structure Records where
  tracking : Nat → Tracking
  scene : Scene

namespace Records

/-- Nothing has been recorded at so many places, and no request has any items. -/
def start (places : Nat) (statement : Nat → Option TrackedStatement) : Records where
  tracking request := { statement := statement request }
  scene := { histories := List.replicate places {}, metrics := List.replicate places {} }

/-- The observers are notified, one after the other. -/
def told (observers : List Observer) (r : Records) (c : Telling) : Records :=
  let (t, s) := Delivery.atOnce c.notification observers (r.tracking c.request)
    { r.scene with now := c.time, diagnostics := c.diagnostics }
  ⟨Function.update r.tracking c.request t, s⟩

/-- The same for several notifications. -/
def toldAll (observers : List Observer) (r : Records) (tellings : List Telling) : Records :=
  tellings.foldl (told observers) r

end Records

-- ============================================================================
-- One notification of one observer
-- ============================================================================

namespace Scene

variable (s : Scene) (callback : Callback) (verdict : Verdict)

@[simp] theorem guard_now : (s.guard callback verdict).now = s.now := by
  cases verdict <;> rfl

@[simp] theorem guard_histories : (s.guard callback verdict).histories = s.histories := by
  cases verdict <;> rfl

@[simp] theorem guard_metrics : (s.guard callback verdict).metrics = s.metrics := by
  cases verdict <;> rfl

end Scene

namespace Tracer

theorem finish_items (key : String) (f : Nat → Diagnostics → Diagnostics) (t : Tracking)
    (d : Diagnostics) : (finish key f t d).1 = (t.take key .span).1 := by
  unfold finish takeSpan
  rcases t.take key .span with ⟨t', found⟩
  cases found with
  | none => rfl
  | some item => cases item <;> rfl

/-- A tracer touches no items but its own. -/
theorem trace_items {c : Char} (other : c ≠ 'r') (includeStatement : Bool) (t : Tracking)
    (d : Diagnostics) (n : Notification) :
    SameItems c (trace includeStatement t d n).1 t := by
  have hrequest : spanKey.toList.head? ≠ some c := fun heq => other (Option.some.inj heq).symm
  have hhost (host : HostInfo) : (host.itemKey spanKey).toList.head? ≠ some c := by
    rw [host.head?_itemKey (c := 'r') rfl]
    exact hrequest
  cases n with
  | requestStarted =>
    simp only [trace, start]
    split
    · exact .insert_other hrequest _
    · exact .refl _ _
  | speculated =>
    simp only [trace]
    split <;> exact .refl _ _
  | nodeStarted host =>
    simp only [trace, startAttempt]
    split
    · exact .refl _ _
    · split
      · exact .insert_other (hhost host) _
      · exact .refl _ _
  | nodeFailed host | nodeSucceeded host =>
    rw [trace, finish_items]
    exact .take_other (hhost host) _
  | requestSucceeded | requestFailed | requestCancelled =>
    rw [trace, finish_items]
    exact .take_other hrequest _

end Tracer

/-- A notification of the observer at a place leaves all other places as they were. -/
structure Scene.Elsewhere (place : Nat) (s s' : Scene) : Prop where
  now : s'.now = s.now
  metrics : ∀ j, j ≠ place → s'.metrics[j]? = s.metrics[j]?
  histories : ∀ j, j ≠ place → s'.histories[j]? = s.histories[j]?

namespace Provided

variable {kind : Provided} {place : Nat} {n : Notification} {t : Tracking} {s : Scene}
  {m : Metrics} {h : History}

/-- Metrics count at their place. -/
theorem notify_metrics (found : s.metrics[place]? = some m) :
    ((metrics.observer place).notify n t s).1 = Metrics.leaves t s.now n ∧
      ∃ verdict, ((metrics.observer place).notify n t s).2 =
        { s with metrics := s.metrics.set place (m.record t s.now n).1 }.guard n.callback
          verdict := by
  simp only [observer, Observer.metrics, Observer.notify, found]
  rw [← m.record_tracking]
  cases (m.record t s.now n).2.2 <;> exact ⟨rfl, _, rfl⟩

/-- A history records at its place. -/
theorem notify_history (found : s.histories[place]? = some h) :
    ((history.observer place).notify n t s).1 = h.leaves t n ∧
      ∃ verdict, ((history.observer place).notify n t s).2 =
        { s with histories := s.histories.set place (h.after t s.now n) }.guard n.callback
          verdict := by
  simp only [observer, Observer.history, Observer.notify, found, History.record_spec]
  cases History.refusal? t n <;> exact ⟨rfl, _, rfl⟩

/-- An observer without a place does nothing. -/
theorem notify_metrics_nowhere (absent : s.metrics[place]? = none) :
    (metrics.observer place).notify n t s = (t, s) := by
  simp [observer, Observer.metrics, Observer.notify, absent, Scene.guard]

theorem notify_history_nowhere (absent : s.histories[place]? = none) :
    (history.observer place).notify n t s = (t, s) := by
  simp [observer, Observer.history, Observer.notify, absent, Scene.guard]

/-- An observer records at its own place. -/
theorem notify_elsewhere (kind : Provided) (place : Nat) (n : Notification) (t : Tracking)
    (s : Scene) : s.Elsewhere place ((kind.observer place).notify n t s).2 := by
  have hset {α : Type} (l : List α) (a : α) (j : Nat) (other : j ≠ place) :
      (l.set place a)[j]? = l[j]? := by
    rw [List.getElem?_set_ne other.symm]
  cases kind with
  | history =>
    cases found : s.histories[place]? with
    | none =>
      rw [notify_history_nowhere found]
      exact ⟨rfl, fun _ _ => rfl, fun _ _ => rfl⟩
    | some h =>
      obtain ⟨-, verdict, hscene⟩ := notify_history (n := n) (t := t) found
      rw [hscene]
      refine ⟨by simp, by simp, fun j other => ?_⟩
      rw [Scene.guard_histories]
      exact hset _ _ j other
  | metrics =>
    cases found : s.metrics[place]? with
    | none =>
      rw [notify_metrics_nowhere found]
      exact ⟨rfl, fun _ _ => rfl, fun _ _ => rfl⟩
    | some m =>
      obtain ⟨-, verdict, hscene⟩ := notify_metrics (n := n) (t := t) found
      rw [hscene]
      refine ⟨by simp, fun j other => ?_, by simp⟩
      rw [Scene.guard_metrics]
      exact hset _ _ j other
  | tracer => exact ⟨rfl, fun _ _ => rfl, fun _ _ => rfl⟩

/-- Observers of other kinds are not seen by metrics. -/
theorem notify_items_of_ne_metrics (other : kind ≠ metrics) (place : Nat) (n : Notification)
    (t : Tracking) (s : Scene) : SameItems 'm' ((kind.observer place).notify n t s).1 t := by
  cases kind with
  | metrics => exact absurd rfl other
  | tracer => exact Tracer.trace_items (by decide) _ _ _ _
  | history =>
    cases found : s.histories[place]? with
    | none =>
      rw [notify_history_nowhere found]
      exact .refl _ _
    | some h =>
      rw [(notify_history found).1]
      exact History.leaves_other (by decide) _ _ _

/-- Observers of other kinds are not seen by histories. -/
theorem notify_items_of_ne_history (other : kind ≠ history) (place : Nat) (n : Notification)
    (t : Tracking) (s : Scene) : SameItems 'h' ((kind.observer place).notify n t s).1 t := by
  cases kind with
  | history => exact absurd rfl other
  | tracer => exact Tracer.trace_items (by decide) _ _ _ _
  | metrics =>
    cases found : s.metrics[place]? with
    | none =>
      rw [notify_metrics_nowhere found]
      exact .refl _ _
    | some m =>
      rw [(notify_metrics found).1]
      exact Metrics.leaves_other (by decide) _ _ _

end Provided

-- ============================================================================
-- Kinds of observers that collect
-- ============================================================================

/-- A kind of observers that collect records of some type. -/
structure Collector (α : Type) where
  kind : Provided
  /-- The first letter of the keys of its items. -/
  letter : Char
  /-- The records in a scene, by their places. -/
  records : Scene → List α
  /-- What a record becomes with a notification. -/
  next : α → Tracking → Instant → Notification → α
  /-- The items that are left then. -/
  leaves : α → Tracking → Instant → Notification → Tracking
  /-- What remains of a record if another of its kind is always notified earlier. -/
  late : α → α
  /-- Whether two records go on with the same numbers. -/
  agree : α → α → Prop

namespace Collector

/-- Metrics store no latencies if other metrics are notified earlier. -/
def metrics : Collector Metrics where
  kind := .metrics
  letter := 'm'
  records := Scene.metrics
  next m t now n := (m.record t now n).1
  leaves _ := Metrics.leaves
  late := Metrics.withoutLatencies
  agree _ _ := True

/-- A history lacks the ends of attempts if another history is notified earlier. -/
def history : Collector History where
  kind := .history
  letter := 'h'
  records := Scene.histories
  next := History.after
  leaves h t _ n := h.leaves t n
  late := History.withoutEnds
  agree := History.SameNumbers

variable {α : Type}

/-- What is known of one kind of observers among the others. -/
structure Lawful (C : Collector α) : Prop where
  records_eq : ∀ s now diagnostics, C.records { s with now, diagnostics } = C.records s
  /-- An observer of the kind records at its place. -/
  notify : ∀ {place n t s a}, (C.records s)[place]? = some a →
    ((C.kind.observer place).notify n t s).1 = C.leaves a t s.now n ∧
      (C.records ((C.kind.observer place).notify n t s).2)[place]? = some (C.next a t s.now n)
  /-- It records nowhere else, nor do others. -/
  elsewhere : ∀ (kind : Provided) place n t s j, j ≠ place →
    (C.records ((kind.observer place).notify n t s).2)[j]? = (C.records s)[j]?
  /-- The items of the kind are its own. -/
  others : ∀ {kind : Provided}, kind ≠ C.kind → ∀ place n t s,
    SameItems C.letter ((kind.observer place).notify n t s).1 t
  agree_refl : ∀ a, C.agree a a
  leaves_congr : ∀ {a b t t' now n}, SameItems C.letter t t' → C.agree a b →
    SameItems C.letter (C.leaves a t now n) (C.leaves b t' now n)
  leaves_again : ∀ a t now n,
    SameItems C.letter (C.leaves a (C.leaves a t now n) now n) (C.leaves a t now n)
  /-- What is recorded depends on the items of the kind alone. -/
  next_congr : ∀ {a t t' now n}, SameItems C.letter t t' → C.next a t now n = C.next a t' now n
  agree_congr : ∀ {a b t t' now n}, SameItems C.letter t t' → C.agree a b →
    C.agree (C.next a t now n) (C.next b t' now n)
  /-- Where one of the kind was notified, another one records what remains. -/
  next_late : ∀ {a t t' now n}, SameItems C.letter t' (C.leaves a t now n) →
    C.next (C.late a) t' now n = C.late (C.next a t now n)
  agree_late : ∀ {a b t t' now n}, SameItems C.letter t' (C.leaves a t now n) → C.agree a b →
    C.agree (C.next a t now n) (C.next b t' now n)

theorem metrics_lawful : metrics.Lawful where
  records_eq _ _ _ := rfl
  notify {place n t s m} found := by
    obtain ⟨hitems, verdict, hscene⟩ := Provided.notify_metrics (n := n) (t := t) found
    obtain ⟨hlt, -⟩ := List.getElem?_eq_some_iff.mp found
    refine ⟨hitems, ?_⟩
    change ((Provided.metrics.observer place).notify n t s).2.metrics[place]? = _
    rw [hscene, Scene.guard_metrics]
    exact List.getElem?_set_self hlt
  elsewhere kind place n t s := (Provided.notify_elsewhere kind place n t s).metrics
  others other := Provided.notify_items_of_ne_metrics other
  agree_refl _ := trivial
  leaves_congr same _ := Metrics.leaves_congr same
  leaves_again _ := Metrics.leaves_again
  next_congr same := Metrics.record_congr same
  agree_congr _ _ := trivial
  next_late same := Metrics.record_late same _ _
  agree_late _ _ := trivial

theorem history_lawful : history.Lawful where
  records_eq _ _ _ := rfl
  notify {place n t s h} found := by
    obtain ⟨hitems, verdict, hscene⟩ := Provided.notify_history (n := n) (t := t) found
    obtain ⟨hlt, -⟩ := List.getElem?_eq_some_iff.mp found
    refine ⟨hitems, ?_⟩
    change ((Provided.history.observer place).notify n t s).2.histories[place]? = _
    rw [hscene, Scene.guard_histories]
    exact List.getElem?_set_self hlt
  elsewhere kind place n t s := (Provided.notify_elsewhere kind place n t s).histories
  others other := Provided.notify_items_of_ne_history other
  agree_refl := History.SameNumbers.refl
  leaves_congr same numbers := History.leaves_congr same numbers
  leaves_again h _ _ _ := History.leaves_again (.refl h)
  next_congr same := History.after_congr same _ _ _
  agree_congr same numbers := History.after_numbers same numbers
  next_late same := History.after_late same
  agree_late same numbers := History.after_numbers_late same numbers

-- ============================================================================
-- One notification of several observers
-- ============================================================================

section Several

variable {C : Collector α} (lawful : C.Lawful) {n : Notification} {t t₁ : Tracking} {s : Scene}
  {a : α}

include lawful

/-- Observers after a place leave it as it was. -/
theorem atOnce_before (kinds : List Provided) {first j : Nat} (before : j < first)
    (t : Tracking) (s : Scene) :
    (C.records (Delivery.atOnce n (Provided.observers first kinds) t s).2)[j]? =
      (C.records s)[j]? := by
  induction kinds generalizing first t s with
  | nil => rfl
  | cons kind rest ih =>
    rw [Provided.observers, Delivery.atOnce_cons, ih (Nat.lt_succ_of_lt before)]
    exact lawful.elsewhere kind first n t s j (Nat.ne_of_lt before)

/-- What the observers of one kind leave, once one observer has been notified, is what the first
    of them leaves. -/
theorem left_cons {kind : Provided} {now : Instant}
    (step : SameItems C.letter t₁ (if kind = C.kind then C.leaves a t now n else t))
    (rest : List Provided) :
    SameItems C.letter (if C.kind ∈ rest then C.leaves a t₁ now n else t₁)
      (if C.kind ∈ kind :: rest then C.leaves a t now n else t) := by
  by_cases hkind : kind = C.kind
  · rw [if_pos hkind] at step
    rw [if_pos (List.mem_cons.mpr (.inl hkind.symm))]
    split
    · exact (lawful.leaves_congr step (lawful.agree_refl a)).trans (lawful.leaves_again a t now n)
    · exact step
  · rw [if_neg hkind] at step
    have hmem : C.kind ∈ kind :: rest ↔ C.kind ∈ rest := by
      rw [List.mem_cons, or_iff_right fun heq => hkind heq.symm]
    by_cases hrest : C.kind ∈ rest
    · rw [if_pos hrest, if_pos (hmem.mpr hrest)]
      exact lawful.leaves_congr step (lawful.agree_refl a)
    · rw [if_neg hrest, if_neg (mt hmem.mp hrest)]
      exact step

/-- Observers of one kind among others record, each at its place, with the items that were left by
    those before it, provided that all of them go on with the same numbers. -/
theorem records_atOnce (kinds : List Provided) (first : Nat) (n : Notification) (t : Tracking)
    (s : Scene) (agreeing : ∀ j, kinds[j]? = some C.kind →
      ∃ b, (C.records s)[first + j]? = some b ∧ C.agree a b) :
    SameItems C.letter (Delivery.atOnce n (Provided.observers first kinds) t s).1
      (if C.kind ∈ kinds then C.leaves a t s.now n else t) ∧
    ∀ j b, kinds[j]? = some C.kind → (C.records s)[first + j]? = some b → ∃ t',
      SameItems C.letter t' (if C.kind ∈ kinds.take j then C.leaves a t s.now n else t) ∧
        (C.records (Delivery.atOnce n (Provided.observers first kinds) t s).2)[first + j]? =
          some (C.next b t' s.now n) := by
  induction kinds generalizing first t s with
  | nil => exact ⟨.refl _ _, by simp⟩
  | cons kind rest ih =>
    have hnow := (Provided.notify_elsewhere kind first n t s).now
    have hplace (j : Nat) : first + (j + 1) = first + 1 + j := by omega
    have hrecords (j : Nat) :
        (C.records ((kind.observer first).notify n t s).2)[first + 1 + j]? =
          (C.records s)[first + (j + 1)]? := by
      rw [hplace j]
      exact lawful.elsewhere kind first n t s (first + 1 + j) (by omega)
    have hstep : SameItems C.letter ((kind.observer first).notify n t s).1
        (if kind = C.kind then C.leaves a t s.now n else t) := by
      by_cases hkind : kind = C.kind
      · subst hkind
        obtain ⟨b, hfound, hagree⟩ := agreeing 0 rfl
        rw [Nat.add_zero] at hfound
        rw [if_pos rfl, (lawful.notify hfound).1]
        exact (lawful.leaves_congr (.refl _ _) hagree).symm
      · rw [if_neg hkind]
        exact lawful.others hkind _ _ _ _
    have hagreeing (j : Nat) (hj : rest[j]? = some C.kind) :
        ∃ b, (C.records ((kind.observer first).notify n t s).2)[first + 1 + j]? = some b ∧
          C.agree a b := by
      rw [hrecords]
      exact agreeing (j + 1) (by simpa using hj)
    obtain ⟨hitems, hrest⟩ := ih (first + 1) _ _ hagreeing
    rw [hnow] at hitems hrest
    refine ⟨hitems.trans (left_cons lawful hstep rest), fun j b hj hb => ?_⟩
    cases j with
    | zero =>
      obtain rfl : kind = C.kind := by simpa using hj
      rw [Nat.add_zero] at hb ⊢
      refine ⟨t, .refl _ _, ?_⟩
      rw [Provided.observers, Delivery.atOnce_cons, atOnce_before lawful rest (Nat.lt_succ_self _)]
      exact (lawful.notify hb).2
    | succ j =>
      rw [← hrecords] at hb
      rw [hplace]
      obtain ⟨t', hsame, hrecorded⟩ := hrest j b (by simpa using hj) hb
      exact ⟨t', hsame.trans (left_cons lawful hstep (rest.take j)), hrecorded⟩

end Several

-- ============================================================================
-- Any notifications
-- ============================================================================

/-- An observer among others and the same observer alone, between two notifications. -/
structure Beside (C : Collector α) (kinds : List Provided) (i : Nat)
    (together alone : Records) : Prop where
  items : ∀ request, SameItems C.letter (together.tracking request) (alone.tracking request)
  /-- What it has recorded is the same, or what remains of it. All of its kind go on with the same
      numbers. -/
  recorded : ∃ a, (C.records alone.scene)[i]? = some a ∧
    (C.records together.scene)[i]? = some (if C.kind ∈ kinds.take i then C.late a else a) ∧
    ∀ j : Nat, kinds[j]? = some C.kind →
      ∃ b, (C.records together.scene)[j]? = some b ∧ C.agree a b

theorem sameItems_update {c : Char} {x y : Nat → Tracking} {t t' : Tracking}
    (items : ∀ request, SameItems c (x request) (y request)) (same : SameItems c t t')
    (about request : Nat) :
    SameItems c (Function.update x about t request) (Function.update y about t' request) := by
  by_cases h : request = about
  · subst h
    rw [Function.update_self, Function.update_self]
    exact same
  · rw [Function.update_of_ne h, Function.update_of_ne h]
    exact items request

section Step

variable {C : Collector α} {a b : α} {earlier : Prop} [Decidable earlier] {t₀ t t' : Tracking}
  {now : Instant} {n : Notification}

/-- An observer records what it would alone, or what remains of it if one of its kind is notified
    earlier. -/
theorem Lawful.next_beside (lawful : C.Lawful)
    (left : SameItems C.letter t (if earlier then C.leaves a t₀ now n else t₀))
    (before : SameItems C.letter t₀ t') :
    C.next (if earlier then C.late a else a) t now n =
      if earlier then C.late (C.next a t' now n) else C.next a t' now n := by
  by_cases hearlier : earlier
  · rw [if_pos hearlier] at left ⊢
    rw [if_pos hearlier]
    exact lawful.next_late (left.trans (lawful.leaves_congr before (lawful.agree_refl a)))
  · rw [if_neg hearlier] at left ⊢
    rw [if_neg hearlier]
    exact lawful.next_congr (left.trans before)

/-- All of one kind go on with the same numbers. -/
theorem Lawful.agree_beside (lawful : C.Lawful)
    (left : SameItems C.letter t (if earlier then C.leaves a t₀ now n else t₀))
    (before : SameItems C.letter t₀ t') (numbers : C.agree a b) :
    C.agree (C.next a t' now n) (C.next b t now n) := by
  by_cases hearlier : earlier
  · rw [if_pos hearlier] at left
    have hleft := left.trans (lawful.leaves_congr before (lawful.agree_refl a))
    exact lawful.agree_late hleft numbers
  · rw [if_neg hearlier] at left
    exact lawful.agree_congr (left.trans before).symm numbers

end Step

section Steps

variable {C : Collector α} {kinds : List Provided} {i : Nat} {together alone : Records}

/-- A notification keeps an observer among others beside the same observer alone. -/
theorem Beside.told (lawful : C.Lawful) (h : C.Beside kinds i together alone)
    (own : kinds[i]? = some C.kind) (c : Telling) :
    C.Beside kinds i (together.told (Provided.observers 0 kinds) c)
      (alone.told [C.kind.observer i] c) := by
  obtain ⟨a, halone, htogether, hagree⟩ := h.recorded
  have hbefore := h.items c.request
  have hmem : C.kind ∈ kinds := List.mem_of_getElem? own
  -- alone
  rw [← lawful.records_eq _ c.time c.diagnostics] at halone
  obtain ⟨hitems', hrecorded'⟩ := lawful.notify (n := c.notification)
    (t := alone.tracking c.request) halone
  -- among the others
  have hagreeing (j : Nat) (hj : kinds[j]? = some C.kind) : ∃ b,
      (C.records { together.scene with now := c.time, diagnostics := c.diagnostics })[0 + j]? =
        some b ∧ C.agree a b := by
    rw [lawful.records_eq, Nat.zero_add]
    exact hagree j hj
  obtain ⟨hitems, hrecord⟩ := records_atOnce lawful kinds 0 c.notification
    (together.tracking c.request) _ hagreeing
  rw [if_pos hmem] at hitems
  have hat (j : Nat) (b : α) (hj : kinds[j]? = some C.kind)
      (hb : (C.records together.scene)[j]? = some b) : ∃ t',
      SameItems C.letter t' (if C.kind ∈ kinds.take j then
        C.leaves a (together.tracking c.request) c.time c.notification
        else together.tracking c.request) ∧
        (C.records (together.told (Provided.observers 0 kinds) c).scene)[j]? =
          some (C.next b t' c.time c.notification) := by
    have hfound := hrecord j b hj (by rwa [lawful.records_eq, Nat.zero_add])
    rwa [Nat.zero_add] at hfound
  refine ⟨?_, _, hrecorded', ?_, fun j hj => ?_⟩
  · have hsame : SameItems C.letter
        (C.leaves a (together.tracking c.request) c.time c.notification)
        (C.leaves a (alone.tracking c.request) c.time c.notification) :=
      lawful.leaves_congr hbefore (lawful.agree_refl a)
    exact sameItems_update h.items ((hitems.trans hsame).trans (hitems' ▸ .refl _ _)) c.request
  · obtain ⟨t', hearlier, htold⟩ := hat i _ own htogether
    rw [htold]
    exact congrArg some (lawful.next_beside hearlier hbefore)
  · obtain ⟨b, hb, hnumbers⟩ := hagree j hj
    obtain ⟨t', hearlier, htold⟩ := hat j b hj hb
    exact ⟨_, htold, lawful.agree_beside hearlier hbefore hnumbers⟩

theorem Beside.toldAll (lawful : C.Lawful) (h : C.Beside kinds i together alone)
    (own : kinds[i]? = some C.kind) (tellings : List Telling) :
    C.Beside kinds i (together.toldAll (Provided.observers 0 kinds) tellings)
      (alone.toldAll [C.kind.observer i] tellings) := by
  induction tellings generalizing together alone with
  | nil => exact h
  | cons c rest ih => exact ih (h.told lawful own c)

/-- Nothing has been recorded at first. -/
theorem Beside.start (lawful : C.Lawful) (statement : Nat → Option TrackedStatement) {a : α}
    (empty : C.records (Records.start kinds.length statement).scene =
      List.replicate kinds.length a) (late : C.late a = a) (here : i < kinds.length) :
    C.Beside kinds i (.start kinds.length statement) (.start kinds.length statement) := by
  have hplace {j : Nat} (hj : j < kinds.length) :
      (C.records (Records.start kinds.length statement).scene)[j]? = some a := by
    rw [empty, List.getElem?_replicate, if_pos hj]
  refine ⟨fun _ => .refl _ _, a, hplace here, ?_, fun j hj => ?_⟩
  · rw [hplace here, late, ite_self]
  · exact ⟨a, hplace (List.getElem?_eq_some_iff.mp hj).1, lawful.agree_refl a⟩

end Steps

end Collector

/-- What an observer has recorded among others and what it would have alone, where those in
    `before` are notified before it: the same, unless one of its kind is among them. Then metrics
    have stored no latency, and a history lacks the ends of attempts. -/
structure Independence (before : List Provided) (kind : Provided) (place : Nat)
    (together alone : Scene) : Prop where
  metrics : kind = Provided.metrics → ∃ m, alone.metrics[place]? = some m ∧
    together.metrics[place]? =
      some (if Provided.metrics ∈ before then m.withoutLatencies else m)
  history : kind = Provided.history → ∃ h, alone.histories[place]? = some h ∧
    together.histories[place]? =
      some (if Provided.history ∈ before then h.withoutEnds else h)

/-- Provided observers of any kinds are notified of anything that happens to any requests. Then
    the first history and the first metrics among them record what they would alone, metrics
    after the first record the same without any latencies, and histories after the first record
    the same without the ends of attempts. -/
theorem Provided.independence (kinds : List Provided)
    (statement : Nat → Option TrackedStatement) (tellings : List Telling)
    (i : Fin kinds.length) :
    Independence (kinds.take i) kinds[i] i
      ((Records.start kinds.length statement).toldAll (observers 0 kinds) tellings).scene
      ((Records.start kinds.length statement).toldAll [kinds[i].observer i] tellings).scene := by
  have hplace : kinds[(i : Nat)]? = some kinds[i] := List.getElem?_eq_getElem i.isLt
  constructor
  · intro hkind
    rw [hkind] at hplace ⊢
    have hstart : Collector.metrics.Beside kinds i (.start kinds.length statement)
        (.start kinds.length statement) :=
      .start Collector.metrics_lawful statement rfl rfl i.isLt
    obtain ⟨m, halone, htogether, -⟩ :=
      (hstart.toldAll Collector.metrics_lawful hplace tellings).recorded
    exact ⟨m, halone, htogether⟩
  · intro hkind
    rw [hkind] at hplace ⊢
    have hstart : Collector.history.Beside kinds i (.start kinds.length statement)
        (.start kinds.length statement) :=
      .start Collector.history_lawful statement rfl rfl i.isLt
    obtain ⟨h, halone, htogether, -⟩ :=
      (hstart.toldAll Collector.history_lawful hplace tellings).recorded
    exact ⟨h, halone, htogether⟩

/-- A request that succeeds at its first attempt, after 20 ms. -/
def soleAttempt : List Telling :=
  let host : HostInfo := ⟨⟨0, ⟨1, by decide⟩, default, none, none⟩, 0, 0⟩
  [⟨0, .requestStarted, .start, {}⟩, ⟨0, .nodeStarted host, .start, {}⟩,
    ⟨0, .nodeSucceeded host, Instant.start.after (.ofMillis 20), {}⟩]

/-- What observers record of it. -/
def soleRecord (observers : List Observer) : Scene :=
  ((Records.start 2 fun _ => none).toldAll observers soleAttempt).scene

/-- Of two metrics the second one stores no latency of it, though alone it would. -/
theorem Provided.dependence :
    (soleRecord (observers 0 [.metrics, .metrics])).metrics[1]?.map (·.latencies.size) = some 0 ∧
      (soleRecord [metrics.observer 1]).metrics[1]?.map (·.latencies.size) = some 1 := by
  decide +kernel

end RequestEngine
