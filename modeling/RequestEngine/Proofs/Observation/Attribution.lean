/-
  RequestEngine.Proofs.Observation.Attribution

  Whose results a history records.  It finds the number of an attempt that ends
  under the host of the attempt, whatever execution and attempt this was.  That it
  is the number of this very attempt, and that a number is found at all, rests on
  what requests tell, in which order.

    * `Coherent`            — what a history relies on, and `Run.coherent`;
    * `Tale`                — what a tracer relies on in addition, and `Run.tale`;
    * `Ledger.Given`        — the number that was given to an attempt at its start;
    * `Ledger.Attributed`   — everything that is told is recorded, results under the
      numbers of their own attempts;
    * `Ledger.Attributed.resolved_iff` — which attempts have a result.
-/
import Mathlib.Data.List.Pairwise
import RequestEngine.Proofs.Observation.Keys
import RequestEngine.Proofs.Observation.Ledger
import RequestEngine.Proofs.Request.Endings

namespace RequestEngine

open Tracking

-- ============================================================================
-- What requests tell
-- ============================================================================

/-- What is told of a request is told after its start. What is told of the end of an attempt is told
    while the latest that was told about its host is the start of the same attempt, and this is
    told once. -/
structure Coherent (ns : List Notification) : Prop where
  begun : EachAfter (fun before n => n ≠ .requestStarted → .requestStarted ∈ before) ns
  own : EachAfter (fun before n => ∀ host, n.report? = some host →
    latestOn host.node.host before = some (.nodeStarted host)) ns
  once : EachAfter (fun before n => ∀ host, n = .nodeStarted host → .nodeStarted host ∉ before) ns

theorem Coherent.of_append {ns more : List Notification} (h : Coherent (ns ++ more)) :
    Coherent ns :=
  ⟨h.begun.of_append, h.own.of_append, h.once.of_append⟩

theorem Coherent.nil : Coherent [] :=
  ⟨.nil, .nil, .nil⟩

/-- Elements neither of which may come before the other are the same. -/
theorem eq_of_pairwise {α : Type} {R : α → α → Prop} {l : List α} {a b : α} (h : l.Pairwise R)
    (ha : a ∈ l) (hb : b ∈ l) (hab : ¬ R a b) (hba : ¬ R b a) : a = b := by
  have : Std.Symm fun a b => R a b ∨ R b a := ⟨fun _ _ => Or.symm⟩
  have heither : l.Pairwise fun a b => R a b ∨ R b a := h.imp Or.inl
  by_contra hne
  exact (heither.forall ha hb hne).elim hab hba

/-- The start of an attempt is told once. -/
theorem Coherent.once_pairwise {ns : List Notification} (h : Coherent ns) :
    ns.Pairwise fun n n' => ∀ host, n' = .nodeStarted host → n ≠ .nodeStarted host :=
  EachAfter.pairwise fun before n after hsplit _ hn' host hstart hsame =>
    h.once before n after hsplit host hstart (hsame ▸ hn')

theorem mem_started {ns : List Notification} {host : HostInfo} :
    host ∈ ns.filterMap Notification.start? ↔ .nodeStarted host ∈ ns := by
  refine List.mem_filterMap.trans ⟨?_, fun hn => ⟨_, hn, rfl⟩⟩
  rintro ⟨n, hn, hstart⟩
  cases n <;> cases hstart
  exact hn

/-- The attempts that are told to start differ. -/
theorem Coherent.starts_nodup {ns : List Notification} (h : Coherent ns) :
    (ns.filterMap Notification.start?).Nodup := by
  rw [List.Nodup, List.pairwise_filterMap]
  refine h.once_pairwise.imp ?_
  rintro n n' hother host hn _ hn' rfl
  cases n <;> cases hn
  cases n' <;> cases hn'
  exact hother host rfl rfl

/-- What is told of an attempt last is told, of an attempt on this host. -/
theorem mem_of_latestOn {host : HostId} {ns : List Notification} {n : Notification}
    (latest : latestOn host ns = some n) : n ∈ ns ∧ n.attemptHost? = some host := by
  simpa using List.mem_filter.mp (List.mem_of_getLast? latest)

/-- An attempt that is reported was told to start. -/
theorem Coherent.started_of_reported {ns : List Notification} {host : HostInfo} (h : Coherent ns)
    (reported : Reported ns host) : .nodeStarted host ∈ ns := by
  obtain ⟨n, hn, hreport⟩ := reported
  obtain ⟨before, after, rfl⟩ := List.append_of_mem hn
  exact List.mem_append_left _ (mem_of_latestOn (h.own _ _ _ rfl host hreport)).1

/-- As long as the start of an attempt is the latest that was told about its host, the attempt is
    not reported. -/
theorem Coherent.unreported {ns : List Notification} {host : HostInfo} (h : Coherent ns)
    (latest : latestOn host.node.host ns = some (.nodeStarted host)) : ¬ Reported ns host := by
  induction ns using List.reverseRecOn with
  | nil => cases latest
  | append_singleton ns n ih =>
    rw [latestOn_concat] at latest
    rintro ⟨m, hm, hreport⟩
    split at latest
    · cases latest
      rcases List.mem_append.mp hm with hm | hm
      · exact (EachAfter.concat_iff.mp h.once).2 host rfl
          (h.of_append.started_of_reported ⟨m, hm, hreport⟩)
      · cases List.mem_singleton.mp hm
        cases hreport
    · rename_i hother
      rcases List.mem_append.mp hm with hm | hm
      · exact ih h.of_append latest ⟨m, hm, hreport⟩
      · cases List.mem_singleton.mp hm
        rw [Notification.attemptHost?, Notification.attempt?_of_report hreport] at hother
        exact hother rfl

theorem Request.Run.coherent {s : Settings} {ts : List Transition} {σ : State} (h : Run s ts σ) :
    Coherent (Deed.notices (log ts)) where
  begun := by
    obtain ⟨rest, hstart, -⟩ := h.starts_once
    rw [hstart]
    intro before n after hsplit later
    cases before with
    | nil => exact absurd (List.cons.inj hsplit).1.symm later
    | cons first before =>
      rw [(List.cons.inj hsplit).1]
      exact List.mem_cons_self
  own := h.reportsOwn
  once := h.startsOnce

/-- What a request tells from its start to its end: it is coherent, nothing comes before the start,
    and nothing after the end. -/
structure Tale (ns : List Notification) : Prop extends Coherent ns where
  first : EachAfter (fun before n => n = .requestStarted → before = []) ns
  last : EachAfter (fun before _ => ∀ n ∈ before, n.isFinal = false) ns

theorem Tale.of_append {ns more : List Notification} (h : Tale (ns ++ more)) : Tale ns :=
  ⟨h.toCoherent.of_append, h.first.of_append, h.last.of_append⟩

theorem Request.Run.tale {s : Settings} {ts : List Transition} {σ : State} (h : Run s ts σ) :
    Tale (Deed.notices (log ts)) where
  toCoherent := h.coherent
  first := by
    obtain ⟨rest, hstart, hnever⟩ := h.starts_once
    rw [hstart]
    rintro before n after hsplit rfl
    cases before with
    | nil => rfl
    | cons first before =>
      refine absurd ?_ hnever
      rw [(List.cons.inj hsplit).2]
      exact List.mem_append_right _ List.mem_cons_self
  last := h.last

-- ============================================================================
-- Single notifications
-- ============================================================================

namespace HistoryEvent

/-- What an event is the result of. -/
def result? (e : HistoryEvent) : Option Subject :=
  if e.isStart then none else some e.subject

theorem result?_eq_some {e : HistoryEvent} {what : Subject} :
    e.result? = some what ↔ e.isStart = false ∧ e.subject = what := by
  rw [result?]
  cases e.isStart <;> simp

end HistoryEvent

namespace History

variable {h : History} {t : Tracking} {n : Notification} {host : HostInfo} {a : AttemptId}
  {event : HistoryEvent}

/-- A notification is recorded if the number of its request is known and, where an attempt ends,
    that of the attempt, too. -/
theorem recorded?_isSome (request : n ≠ .requestStarted → (requestId? t).isSome = true)
    (attempt : ∀ host, n.report? = some host → (attemptId? t host).isSome = true) :
    (h.recorded? t n).isSome = true := by
  cases n with
  | requestStarted => rfl
  | nodeFailed host | nodeSucceeded host =>
    rw [recorded?, Option.isSome_map]
    exact attempt host rfl
  | speculated | nodeStarted | requestSucceeded | requestFailed | requestCancelled =>
    rw [recorded?, Option.isSome_map]
    exact request Notification.noConfusion

theorem requestId?_leaves_isSome (h : History) {t : Tracking} (n : Notification)
    (known : (requestId? t).isSome = true) : (requestId? (h.leaves t n)).isSome = true := by
  by_cases hstart : n = .requestStarted
  · rw [hstart, requestId?_started]
    rfl
  · rwa [requestId?_leaves h t hstart]

/-- What is told about attempts on other hosts does not affect the number of an attempt. -/
theorem attemptId?_leaves_other (h : History) (t : Tracking)
    (other : n.attemptHost? ≠ some host.node.host) :
    attemptId? (h.leaves t n) host = attemptId? t host := by
  have hkey (h' : HostInfo) (about : n.attempt? = some h') :
      host.itemKey attemptKey ≠ h'.itemKey attemptKey := by
    intro same
    rw [Notification.attemptHost?, about, HostInfo.itemKey_inj same] at other
    exact other rfl
  cases n with
  | requestStarted =>
    exact attemptId?_eq (by rw [leaves, item?_insert, if_neg (requestKey_ne host).symm])
  | nodeStarted h' =>
    rw [leaves]
    split
    · rw [attemptId?_insert, if_neg (hkey h' rfl)]
    · rfl
  | nodeFailed h' | nodeSucceeded h' => exact attemptId?_take_of_ne (hkey h' rfl)
  | speculated | requestSucceeded | requestFailed | requestCancelled => rfl

/-- At its start an attempt is given the next number, under which it is found from then on. -/
theorem given_of_recorded (recorded : h.recorded? t (.nodeStarted host) = some event) :
    event.attempt? = some h.nextAttempt ∧
      attemptId? (h.leaves t (.nodeStarted host)) host = some h.nextAttempt := by
  obtain ⟨id, hid, rfl⟩ := Option.map_eq_some_iff.mp recorded
  refine ⟨rfl, ?_⟩
  rw [leaves, hid, attemptId?_insert, if_pos rfl]

/-- The result of an attempt is recorded under the number that is found. -/
theorem result_of_recorded (recorded : h.recorded? t n = some event)
    (report : n.report? = some host) :
    ∃ a, attemptId? t host = some a ∧ event.attempt? = some a ∧
      event.result? = some (.attempt a) := by
  cases n with
  | nodeFailed | nodeSucceeded =>
    cases report
    obtain ⟨a, ha, rfl⟩ := Option.map_eq_some_iff.mp recorded
    exact ⟨a, ha, rfl, rfl⟩
  | _ => cases report

/-- Only the ends of attempts are recorded as their results. -/
theorem report_of_result (recorded : h.recorded? t n = some event)
    (result : event.result? = some (.attempt a)) :
    event.attempt? = some a ∧ ∃ host, n.report? = some host := by
  cases n with
  | requestStarted =>
    cases recorded
    cases result
  | nodeFailed host | nodeSucceeded host =>
    obtain ⟨a', -, rfl⟩ := Option.map_eq_some_iff.mp recorded
    cases result
    exact ⟨rfl, host, rfl⟩
  | speculated | nodeStarted | requestSucceeded | requestFailed | requestCancelled =>
    obtain ⟨id, -, rfl⟩ := Option.map_eq_some_iff.mp recorded
    cases result

end History

-- ============================================================================
-- Results of attempts
-- ============================================================================

namespace Ledger

/-- The number that was given to an attempt of a request when its start was recorded. -/
def Given (account : List (Telling × HistoryEvent)) (request : Nat) (host : HostInfo)
    (a : AttemptId) : Prop :=
  ∃ x ∈ account, x.1.request = request ∧ x.1.notification = .nodeStarted host ∧
    x.2.attempt? = some a

/-- What is told, in order. -/
def tellings (incidents : List Incident) : List Telling :=
  incidents.filterMap fun
    | .told c => some c
    | .taken => none

theorem tellings_told (cs : List Telling) : tellings (cs.map .told) = cs := by
  rw [tellings, List.filterMap_map]
  exact List.filterMap_some

/-- Everything that is told is recorded, the results of attempts under the numbers that were given
    to these attempts. -/
structure Attributed (l₀ : Ledger) (incidents : List Incident) : Prop where
  known : ∀ i, .requestStarted ∈ Incident.heard i incidents →
    (History.requestId? ((l₀.undergoAll incidents).tracking i)).isSome = true
  current : ∀ i host,
    latestOn host.node.host (Incident.heard i incidents) = some (.nodeStarted host) →
    ∃ a, History.attemptId? ((l₀.undergoAll incidents).tracking i) host = some a ∧
      Given (l₀.account incidents) i host a
  complete : (l₀.account incidents).map Prod.fst = tellings incidents
  own : EachAfter (fun before x => ∀ host, x.1.notification.report? = some host →
    ∃ a, x.2.result? = some (.attempt a) ∧ Given before x.1.request host a) (l₀.account incidents)

section Attribution

variable {l₀ : Ledger} {incidents : List Incident} {c : Telling} {event : HistoryEvent}
  {i : Nat} {host : HostInfo} {a : AttemptId}

theorem Given.append {account : List (Telling × HistoryEvent)}
    (h : Given account i host a) (more : List (Telling × HistoryEvent)) :
    Given (account ++ more) i host a := by
  obtain ⟨x, hx, hgiven⟩ := h
  exact ⟨x, List.mem_append_left _ hx, hgiven⟩

/-- What is told now can be recorded. -/
theorem Attributed.noted?_eq_some (h : l₀.Attributed incidents)
    (coherent : Coherent (Incident.heard c.request (incidents ++ [.told c]))) :
    ∃ event, (l₀.undergoAll incidents).noted? c = some event := by
  rw [Incident.heard_append, Incident.heard_told, if_pos rfl] at coherent
  refine Option.isSome_iff_exists.mp (History.recorded?_isSome (fun hlater => ?_) ?_)
  · exact h.known _ ((EachAfter.concat_iff.mp coherent.begun).2 hlater)
  · intro host hreport
    obtain ⟨a, ha, -⟩ := h.current _ _ ((EachAfter.concat_iff.mp coherent.own).2 host hreport)
    exact Option.isSome_of_eq_some ha

/-- The attempt that is the latest on its host is known under the number that it was given, be it
    the one that starts now or an earlier one. -/
theorem Attributed.current_hear (h : l₀.Attributed incidents)
    (recorded : (l₀.undergoAll incidents).noted? c = some event)
    (latest : latestOn host.node.host
      (Incident.heard c.request incidents ++ [c.notification]) = some (.nodeStarted host)) :
    ∃ a, History.attemptId? (((l₀.undergoAll incidents).hear c).tracking c.request) host = some a ∧
      Given (l₀.account incidents ++ [(c, event)]) c.request host a := by
  rw [hear_tracking, if_pos rfl]
  rw [latestOn_concat] at latest
  split at latest
  · -- the attempt starts now
    rw [noted?, Option.some.inj latest] at recorded
    rw [Option.some.inj latest]
    obtain ⟨hnames, hknown⟩ := History.given_of_recorded recorded
    exact ⟨_, hknown, (c, event), List.mem_append_right _ (List.mem_singleton_self _), rfl,
      Option.some.inj latest, hnames⟩
  · rename_i hother
    obtain ⟨a, hknown, hgiven⟩ := h.current _ host latest
    exact ⟨a, (History.attemptId?_leaves_other _ _ hother).trans hknown, hgiven.append _⟩

theorem Attributed.hear (h : l₀.Attributed incidents)
    (coherent : Coherent (Incident.heard c.request (incidents ++ [.told c]))) :
    l₀.Attributed (incidents ++ [.told c]) := by
  obtain ⟨event, hentry⟩ := h.noted?_eq_some coherent
  have hafter : l₀.undergoAll (incidents ++ [.told c]) = (l₀.undergoAll incidents).hear c :=
    undergoAll_concat ..
  have haccount : l₀.account (incidents ++ [.told c]) = l₀.account incidents ++ [(c, event)] := by
    rw [account_told, hentry]
    rfl
  have hheard (i : Nat) : Incident.heard i (incidents ++ [.told c]) =
      Incident.heard i incidents ++ if c.request = i then [c.notification] else [] := by
    rw [Incident.heard_append, Incident.heard_told]
  constructor
  case known =>
    intro i hi
    rw [hheard] at hi
    rw [hafter, hear_tracking]
    by_cases hrequest : i = c.request
    · subst hrequest
      rw [if_pos rfl] at hi ⊢
      rcases List.mem_append.mp hi with hi | hi
      · exact History.requestId?_leaves_isSome _ _ (h.known _ hi)
      · rw [← List.mem_singleton.mp hi, History.requestId?_started]
        rfl
    · rw [if_neg (Ne.symm hrequest), List.append_nil] at hi
      rw [if_neg hrequest]
      exact h.known i hi
  case current =>
    intro i host hlatest
    rw [hheard] at hlatest
    rw [hafter, haccount]
    by_cases hrequest : i = c.request
    · subst hrequest
      rw [if_pos rfl] at hlatest
      exact h.current_hear hentry hlatest
    · rw [if_neg (Ne.symm hrequest), List.append_nil] at hlatest
      obtain ⟨a, hknown, hgiven⟩ := h.current i host hlatest
      rw [hear_tracking, if_neg hrequest]
      exact ⟨a, hknown, hgiven.append _⟩
  case complete =>
    rw [haccount, List.map_append, h.complete, tellings, tellings, List.filterMap_append]
    rfl
  case own =>
    rw [haccount]
    refine h.own.concat ?_
    intro host hreport
    obtain ⟨a, hfound, -, hresult⟩ := History.result_of_recorded hentry hreport
    rw [Incident.heard_append, Incident.heard_told, if_pos rfl] at coherent
    obtain ⟨a', hknown, hgiven⟩ :=
      h.current _ _ ((EachAfter.concat_iff.mp coherent.own).2 host hreport)
    obtain rfl : a = a' := Option.some.inj (hfound.symm.trans hknown)
    exact ⟨a, hresult, hgiven⟩

theorem Attributed.take (h : l₀.Attributed incidents) :
    l₀.Attributed (incidents ++ [.taken]) := by
  have htellings : tellings (incidents ++ [.taken]) = tellings incidents := by
    rw [tellings, tellings, List.filterMap_append]
    exact List.append_nil _
  constructor
  all_goals
    simp only [account_taken, Incident.heard_taken, htellings, undergoAll_concat]
  case known => exact h.known
  case current => exact h.current
  case complete => exact h.complete
  case own => exact h.own

/-- What requests tell coherently is recorded and attributed, whenever the log is taken out. -/
theorem attributed (statement : Nat → Option TrackedStatement) (incidents : List Incident)
    (coherent : ∀ i, Coherent (Incident.heard i incidents)) :
    (start statement).Attributed incidents := by
  induction incidents using List.reverseRecOn with
  | nil =>
    refine ⟨fun i hi => absurd hi List.not_mem_nil, fun i host hlatest => ?_, rfl, .nil⟩
    cases hlatest
  | append_singleton incidents incident ih =>
    have hcoherent (i : Nat) : Coherent (Incident.heard i incidents) := by
      have hi := coherent i
      rw [Incident.heard_append] at hi
      exact hi.of_append
    cases incident with
    | told c => exact (ih hcoherent).hear (coherent c.request)
    | taken => exact (ih hcoherent).take

end Attribution

section Results

variable {l₀ : Ledger} {incidents : List Incident} {x y : Telling × HistoryEvent}
  {i : Nat} {host : HostInfo} {a : AttemptId}

/-- Nothing has two results. -/
theorem Books.results_nodup (h : l₀.Books incidents) :
    ((l₀.account incidents).filterMap fun x => x.2.result?).Nodup := by
  rw [List.Nodup, List.pairwise_filterMap]
  refine h.order.imp ?_
  rintro x y hprecede what hx what' hy rfl
  rw [HistoryEvent.result?_eq_some] at hx hy
  have hstart := (hprecede (hx.2.trans hy.2.symm)).1
  exact absurd (hx.1.symm.trans hstart) Bool.false_ne_true

/-- Nothing starts twice. -/
theorem Books.start_unique (h : l₀.Books incidents) (hx : x ∈ l₀.account incidents)
    (hy : y ∈ l₀.account incidents) (starts : x.2.isStart = true) (starts' : y.2.isStart = true)
    (same : x.2.subject = y.2.subject) : x = y := by
  refine eq_of_pairwise h.order hx hy (fun hprecede => ?_) (fun hprecede => ?_)
  · exact absurd ((hprecede same).2.symm.trans starts') Bool.false_ne_true
  · exact absurd ((hprecede same.symm).2.symm.trans starts) Bool.false_ne_true

/-- The start of an attempt is recorded as its start. -/
theorem Books.isStart_of_started (h : l₀.Books incidents) (hx : x ∈ l₀.account incidents)
    (started : x.1.notification = .nodeStarted host) (names : x.2.attempt? = some a) :
    x.2.isStart = true ∧ x.2.subject = .attempt a := by
  obtain ⟨-, h', t', hrecorded⟩ := h.recorded x hx
  rw [started] at hrecorded
  obtain ⟨id, -, hevent⟩ := Option.map_eq_some_iff.mp hrecorded
  rw [← hevent] at names ⊢
  cases names
  exact ⟨rfl, rfl⟩

theorem heard_eq (i : Nat) (incidents : List Incident) : Incident.heard i incidents =
    ((tellings incidents).filter (·.request = i)).map Telling.notification := by
  induction incidents with
  | nil => rfl
  | cons incident rest ih =>
    cases incident with
    | taken => exact ih
    | told c =>
      by_cases hi : c.request = i <;>
        simp_all [Incident.heard, tellings]

/-- What is heard of a request is what is recorded of it. -/
theorem Attributed.heard_eq (h : l₀.Attributed incidents) (i : Nat) : Incident.heard i incidents =
    ((l₀.account incidents).filter (·.1.request = i)).map (·.1.notification) := by
  rw [Ledger.heard_eq, ← h.complete, List.filter_map, List.map_map]
  rfl

/-- The start of an attempt is recorded once. -/
theorem Attributed.started_unique (h : l₀.Attributed incidents)
    (coherent : Coherent (Incident.heard i incidents)) (hx : x ∈ l₀.account incidents)
    (hy : y ∈ l₀.account incidents) (own : x.1.request = i) (own' : y.1.request = i)
    (started : x.1.notification = .nodeStarted host)
    (started' : y.1.notification = .nodeStarted host) : x = y := by
  have honce := coherent.once_pairwise
  rw [h.heard_eq, List.pairwise_map] at honce
  refine eq_of_pairwise honce (List.mem_filter.mpr ⟨hx, by simpa using own⟩)
    (List.mem_filter.mpr ⟨hy, by simpa using own'⟩) (fun hother => ?_) (fun hother => ?_)
  · exact hother host started' started
  · exact hother host started started'

/-- An attempt has a result exactly if its end was told. -/
theorem Attributed.resolved_iff (h : l₀.Attributed incidents) (books : l₀.Books incidents)
    (coherent : Coherent (Incident.heard x.1.request incidents)) (hx : x ∈ l₀.account incidents)
    (started : x.1.notification = .nodeStarted host) (names : x.2.attempt? = some a) :
    (∃ y ∈ l₀.account incidents, y.2.result? = some (.attempt a)) ↔
      Reported (Incident.heard x.1.request incidents) host := by
  obtain ⟨hstart, hsubject⟩ := books.isStart_of_started hx started names
  constructor
  · rintro ⟨y, hy, hresult⟩
    obtain ⟨hheard, h', t', hrecorded⟩ := books.recorded y hy
    obtain ⟨-, host', hreport⟩ := History.report_of_result hrecorded hresult
    obtain ⟨before, after, hsplit⟩ := List.append_of_mem hy
    obtain ⟨a', hresult', z, hz, hrequest, hstarted, hnames⟩ :=
      h.own before y after hsplit _ hreport
    obtain rfl : a = a' := by
      rw [hresult] at hresult'
      exact Subject.attempt.inj (Option.some.inj hresult')
    -- the attempt that ended was given the same number, so it is this one
    have hmem : z ∈ l₀.account incidents := hsplit ▸ List.mem_append_left _ hz
    obtain ⟨hstart', hsubject'⟩ := books.isStart_of_started hmem hstarted hnames
    obtain rfl : x = z := books.start_unique hx hmem hstart hstart' (hsubject.trans hsubject'.symm)
    obtain rfl : host = host' := Notification.nodeStarted.inj (started.symm.trans hstarted)
    exact ⟨_, hrequest ▸ hheard, hreport⟩
  · rintro ⟨n, hn, hreport⟩
    rw [h.heard_eq] at hn
    obtain ⟨y, hy, rfl⟩ := List.mem_map.mp hn
    obtain ⟨hmem, hrequest⟩ := List.mem_filter.mp hy
    obtain ⟨before, after, hsplit⟩ := List.append_of_mem hmem
    obtain ⟨a', hresult, z, hz, hrequest', hstarted, hnames⟩ :=
      h.own before y after hsplit _ hreport
    have hmem' : z ∈ l₀.account incidents := hsplit ▸ List.mem_append_left _ hz
    have hrequests : z.1.request = x.1.request := hrequest'.trans (of_decide_eq_true hrequest)
    obtain rfl : x = z := h.started_unique coherent hx hmem' rfl hrequests started hstarted
    obtain rfl : a = a' := Option.some.inj (names.symm.trans hnames)
    exact ⟨y, hmem, hresult⟩

end Results

end Ledger

end RequestEngine
