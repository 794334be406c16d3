/-
  RequestEngine.Proofs.Observation.Spans

  The spans of a request.  A tracer hands an open span from one callback to the next
  with the items of the request, that of an attempt under the key of its host, while
  the attempts of several executions interleave and some of them are never reported.
  Others act between its callbacks: they write to the items and to the log, and only
  leave the tracer's keys and its spans alone.

    * `Tracer.marks`, `trace_of_ends` — what a notification adds to the span that it
      ends, which is found under `ends?`;
    * `Tracer.Traced`   — what may come of the notifications of a request;
    * `Tracer.Holds`    — the spans that are stored with the request;
    * `Tracer.Shows`    — what the spans show of it and of the attempts that started;
    * `Traced.accords`  — both of them hold of every tale, if spans are kept;
    * `Traced.dark`     — nothing is left if the span of the request is not kept.
-/
import RequestEngine.Proofs.Observation.Attribution
import RequestEngine.Proofs.Observation.Guarding

namespace RequestEngine

open Tracking

-- ============================================================================
-- Spans
-- ============================================================================

namespace Span

/-- Several fields are recorded, one after another. -/
def mark (span : Span) (fields : Fields) : Span :=
  fields.foldl (fun s f => s.record f.1 f.2) span

/-- Fields that a span does not have are added to it. -/
theorem mark_of_new {span : Span} {fields : Fields}
    (new : ((span.fields ++ fields).map Prod.fst).Nodup) :
    span.mark fields = { span with fields := span.fields ++ fields } := by
  induction fields generalizing span with
  | nil => simp [mark]
  | cons f rest ih =>
    have hrecord : span.record f.1 f.2 = { span with fields := span.fields ++ [f] } := by
      have hnew : ∀ g ∈ span.fields, g.1 ≠ f.1 := by
        rw [List.map_append, List.nodup_append] at new
        intro g hg
        exact new.2.2 g.1 (List.mem_map_of_mem hg) f.1 (by simp)
      rw [record, List.filter_eq_self.mpr (by simpa using hnew)]
    rw [mark, List.foldl_cons, ← mark, hrecord, ih (by simpa using new)]
    simp

end Span

namespace Diagnostics

/-- The spans that were opened since an earlier state of the log. -/
def openedSince (earlier d : Diagnostics) : List Nat :=
  List.range' earlier.spans.length (d.spans.length - earlier.spans.length)

variable {d d' : Diagnostics}

theorem Alike.spans (h : d.Alike d') : d.spans = d'.spans := by
  obtain ⟨lines, rfl⟩ := h.lines
  rfl

theorem Alike.verbosity (h : d.Alike d') : d.verbosity = d'.verbosity := by
  obtain ⟨lines, rfl⟩ := h.lines
  rfl

theorem spans_logIn (d : Diagnostics) (span : Option Nat) (severity : Severity) (message : String)
    (fields : Fields) : (d.logIn span severity message fields).spans = d.spans :=
  (alike_logIn ..).spans

theorem keeps_congr (h : d.verbosity = d'.verbosity) (severity : Severity) :
    d.keeps severity = d'.keeps severity := by
  rw [keeps, keeps, h]

theorem openedSince_of_concat {span : Span} (h : d'.spans = d.spans ++ [span]) :
    d.openedSince d' = [d.spans.length] := by
  simp [openedSince, h]

theorem openedSince_of_length (h : d'.spans.length = d.spans.length) : d.openedSince d' = [] := by
  simp [openedSince, h]

end Diagnostics

-- ============================================================================
-- What a tracer does
-- ============================================================================

namespace Tracer

/-- The keys of tracers: that of the span of a request, and those of its attempts' spans. -/
def IsKey (key : String) : Prop :=
  key = spanKey ∨ ∃ host : HostInfo, key = host.itemKey spanKey

theorem isKey_attempt (host : HostInfo) : IsKey (host.itemKey spanKey) :=
  .inr ⟨host, rfl⟩

/-- The span of a request is kept apart from those of its attempts. -/
theorem spanKey_ne (host : HostInfo) : spanKey ≠ host.itemKey spanKey := by
  intro heq
  have hlength := congrArg (fun key => key.toList.length) heq
  simp [HostInfo.itemKey, String.toList_append] at hlength

/-- What the span of a request shows of its statement. -/
def statementFields (s : TrackedStatement) : Fields :=
  [("db.namespace", s.keyspace.getD "<None>"), ("db.query.text", s.contents)]

/-- The statement is shown if it is known and to be included. -/
def shown (includeStatement : Bool) (statement : Option TrackedStatement) : Fields :=
  if includeStatement then statement.elim [] statementFields else []

/-- What the span of an attempt shows of it from its start on. -/
def attemptFields (host : HostInfo) : Fields :=
  [("server.address", host.node.address.text), ("host_id", host.node.host.text),
    ("execution", toString host.execution), ("attempt", toString host.attempt)]

/-- The error status of a span. -/
def errorStatus (message : String) : Fields :=
  [("otel.status_code", "ERROR"), ("otel.status_message", message)]

/-- What a notification adds to the span that it ends. -/
def marks : Notification → Fields
  | .nodeFailed _ _ decision error =>
    ("retry_decision", decision.text) :: errorStatus error.message
  | .requestFailed error => errorStatus error.message
  | _ => []

/-- The key of the span that a notification ends. -/
def ends? : Notification → Option String
  | .nodeFailed host .. | .nodeSucceeded host => some (host.itemKey spanKey)
  | .requestSucceeded _ | .requestFailed _ | .requestCancelled => some spanKey
  | _ => none

theorem ends?_of_report {n : Notification} {host : HostInfo} (h : n.report? = some host) :
    ends? n = some (host.itemKey spanKey) := by
  cases n <;> cases h <;> rfl

theorem ends?_of_isFinal {n : Notification} (h : n.isFinal = true) : ends? n = some spanKey := by
  cases n <;> first | rfl | cases h

/-- What is added to the span of an attempt is new to it. -/
theorem attempt_marks_nodup (host : HostInfo) (n : Notification) :
    ((attemptFields host ++ marks n).map Prod.fst).Nodup := by
  rw [List.map_append]
  cases n <;> simp [attemptFields, marks, errorStatus]

/-- What is added to the span of a request is new to it. -/
theorem shown_marks_nodup {n : Notification} (final : n.isFinal = true) (includeStatement : Bool)
    (statement : Option TrackedStatement) :
    ((shown includeStatement statement ++ marks n).map Prod.fst).Nodup := by
  rw [List.map_append]
  cases n with
  | requestSucceeded | requestFailed | requestCancelled =>
    cases includeStatement <;> cases statement <;>
      simp [shown, statementFields, marks, errorStatus]
  | _ => cases final

variable {includeStatement : Bool} {t : Tracking} {d : Diagnostics} {n : Notification}
  {host : HostInfo} {key : String} {i : Nat}

theorem start_eq (keeps : d.keeps .trace = true) : start includeStatement t d =
    ((t.insert spanKey (.span d.spans.length)).1, { d with
      spans := d.spans ++ [⟨"Request", d.entered, shown includeStatement t.statement⟩] }) := by
  unfold start
  cases t.statement <;>
    simp [Diagnostics.openSpan, keeps, shown, statementFields]

theorem get_span (found : t.item? key = some (.span i)) : t.get key .span = some (.span i) := by
  rw [Tracking.get, found]
  rfl

theorem startAttempt_eq (keeps : d.keeps .trace = true)
    (within : t.item? spanKey = some (.span i)) : startAttempt host t d =
    ((t.insert (host.itemKey spanKey) (.span d.spans.length)).1,
      { d with spans := d.spans ++ [⟨"Attempt", some i, attemptFields host⟩] }) := by
  simp [startAttempt, span?, get_span within, Diagnostics.openSpan, keeps, attemptFields]

theorem finish_eq {f : Nat → Diagnostics → Diagnostics}
    (found : t.item? key = some (.span i)) : finish key f t d = (t.drop key, f i d) := by
  simp [finish, takeSpan, Tracking.take, get_span found]

/-- The open span that a notification ends is marked, and its item is removed. -/
theorem trace_of_ends (ends : ends? n = some key) (found : t.item? key = some (.span i)) :
    (trace includeStatement t d n).1 = t.drop key ∧
      (trace includeStatement t d n).2.spans = d.spans.modify i (·.mark (marks n)) := by
  cases n <;> cases ends <;> rw [trace, finish_eq found] <;> refine ⟨rfl, ?_⟩
  case nodeFailed | requestFailed =>
    simp only [recordError, Diagnostics.spans_logIn, Diagnostics.recordField,
      List.modify_modify_eq]
    rfl
  all_goals
    rw [Diagnostics.spans_logIn]
    exact (List.modify_id _ _).symm

/-- Nothing becomes of the announcement of an execution but a line of the log. -/
theorem trace_speculated (host : HostInfo) (delay : Duration) :
    (trace includeStatement t d (.speculated host delay)).1 = t ∧
      (trace includeStatement t d (.speculated host delay)).2.spans = d.spans := by
  rw [trace]
  split
  · exact ⟨rfl, rfl⟩
  · exact ⟨rfl, Diagnostics.spans_logIn ..⟩

-- ============================================================================
-- Notifications among other things
-- ============================================================================

/-- What happens beside a tracer leaves some items, the statement, and the spans that it has opened
    as they were. -/
structure Spares (own : String → Prop) (opened : List Nat) (t t' : Tracking) (s s' : Scene) :
    Prop where
  items : SameUnder own t' t
  statement : t'.statement = t.statement
  spans : ∀ i ∈ opened, s'.diagnostics.spans[i]? = s.diagnostics.spans[i]?

/-- A tracer is notified of a request, from when nothing is stored under some keys on, and other
    things happen in between: the notifications, the spans that the tracer has opened, and what it
    all comes to. Spans are kept or not as each notification arrives. -/
inductive Traced (includeStatement : Bool) (kept : Notification → Bool) (own : String → Prop)
    (statement : Option TrackedStatement) :
    List Notification → List Nat → Tracking → Scene → Prop where
  | fresh {t s} (known : t.statement = statement) (nothing : ∀ key, own key → t.item? key = none) :
      Traced includeStatement kept own statement [] [] t s
  | told {ns opened t s} (n : Notification)
      (before : Traced includeStatement kept own statement ns opened t s)
      (keeps : s.diagnostics.keeps .trace = kept n) :
      Traced includeStatement kept own statement (ns ++ [n])
        (opened ++ s.diagnostics.openedSince
          ((Observer.tracer includeStatement).notify n t s).2.diagnostics)
        ((Observer.tracer includeStatement).notify n t s).1
        ((Observer.tracer includeStatement).notify n t s).2
  | beside {ns opened t t' s s'}
      (before : Traced includeStatement kept own statement ns opened t s)
      (spares : Spares own opened t t' s s') :
      Traced includeStatement kept own statement ns opened t' s'

-- ============================================================================
-- What the spans show
-- ============================================================================

/-- What was added to a span when it ended, which certain notifications do. -/
structure Marked (ends : Notification → Prop) (ns : List Notification) (fields : Fields) :
    Prop where
  ended : ∀ n ∈ ns, ends n → fields = marks n
  unended : (∀ n ∈ ns, ¬ ends n) → fields = []

section Marking

variable {ends : Notification → Prop} {ns : List Notification} {n : Notification} {fields : Fields}

/-- A span that is open shows nothing of an end. -/
theorem marked_nil (unended : ∀ n ∈ ns, ¬ ends n) : Marked ends ns [] :=
  ⟨fun n hn hends => absurd hends (unended n hn), fun _ => rfl⟩

/-- A span shows nothing if no notification that ends it has anything to add. -/
theorem Marked.eq_nil (h : Marked ends ns fields) (bare : ∀ n ∈ ns, ends n → marks n = []) :
    fields = [] := by
  by_cases hended : ∃ n ∈ ns, ends n
  · obtain ⟨n, hn, hends⟩ := hended
    exact (h.ended n hn hends).trans (bare n hn hends)
  · exact h.unended fun n hn hends => hended ⟨n, hn, hends⟩

/-- Other notifications add nothing. -/
theorem Marked.skip (h : Marked ends ns fields) (other : ¬ ends n) :
    Marked ends (ns ++ [n]) fields where
  ended := List.forall_mem_append.mpr
    ⟨h.ended, List.forall_mem_singleton.mpr fun hends => absurd hends other⟩
  unended unended := h.unended (List.forall_mem_append.mp unended).1

/-- The notification that ends a span is the only one that adds something. -/
theorem marked_of_ends (unended : ∀ n ∈ ns, ¬ ends n) (last : ends n) :
    Marked ends (ns ++ [n]) (marks n) where
  ended := List.forall_mem_append.mpr ⟨fun m hm hends => absurd hends (unended m hm),
    List.forall_mem_singleton.mpr fun _ => rfl⟩
  unended unended := absurd last (unended n (List.mem_append_right _ (List.mem_singleton_self _)))

/-- The span of a request shows the error that the request failed with. -/
theorem Marked.of_request (h : Marked (fun n => n.isFinal = true) ns fields) :
    (∀ error, .requestFailed error ∈ ns → fields = errorStatus error.message) ∧
      ((∀ error, .requestFailed error ∉ ns) → fields = []) := by
  refine ⟨fun error failed => h.ended _ failed rfl, fun never => h.eq_nil fun n hn final => ?_⟩
  cases n with
  | requestFailed error => exact absurd hn (never error)
  | requestSucceeded | requestCancelled => rfl
  | _ => cases final

/-- That of an attempt shows the decision and the error that this attempt failed with. -/
theorem Marked.of_attempt {host : HostInfo}
    (h : Marked (fun n => n.report? = some host) ns fields) :
    (∀ errorType decision error, .nodeFailed host errorType decision error ∈ ns →
      fields = ("retry_decision", decision.text) :: errorStatus error.message) ∧
      ((∀ errorType decision error, .nodeFailed host errorType decision error ∉ ns) →
        fields = []) := by
  refine ⟨fun _ _ _ failed => h.ended _ failed rfl, fun never => h.eq_nil fun n hn report => ?_⟩
  cases n with
  | nodeFailed host errorType decision error =>
    cases report
    exact absurd hn (never errorType decision error)
  | nodeSucceeded => rfl
  | _ => cases report

end Marking

-- ============================================================================
-- The items of a request
-- ============================================================================

/-- The spans that are stored with a request: its own until its end, and under the key of a host
    that of an attempt, as long as its start is the latest that was told about this host. -/
structure Holds (own : String → Prop) (ns : List Notification) (t : Tracking) (request : Nat)
    (attempts : List (HostInfo × Nat)) : Prop where
  request : t.item? spanKey = if ns.any Notification.isFinal then none else some (.span request)
  attempt : ∀ (host : HostInfo) item, t.item? (host.itemKey spanKey) = some item ↔
    ∃ x ∈ attempts, latestOn host.node.host ns = some (.nodeStarted x.1) ∧ item = .span x.2
  nothingElse : ∀ key, own key → ¬ IsKey key → t.item? key = none

namespace Holds

variable {own : String → Prop} {ns : List Notification} {n : Notification} {t t' : Tracking}
  {request i : Nat} {host : HostInfo} {attempts : List (HostInfo × Nat)}

theorem agree (h : Holds own ns t request attempts) (keys : ∀ key, IsKey key → own key)
    (items : SameUnder own t' t) : Holds own ns t' request attempts where
  request := (items _ (keys _ (.inl rfl))).trans h.request
  attempt host item := by
    rw [items _ (keys _ (isKey_attempt host))]
    exact h.attempt host item
  nothingElse key hown hother := (items _ hown).trans (h.nothingElse key hown hother)

/-- The span of another attempt takes the place of what is stored about its host. -/
theorem start (h : Holds own ns t request attempts) (new : ∀ x ∈ attempts, x.1 ≠ host) :
    Holds own (ns ++ [.nodeStarted host]) (t.insert (host.itemKey spanKey) (.span i)).1 request
      (attempts ++ [(host, i)]) where
  request := by
    rw [item?_insert, if_neg (spanKey_ne host), List.any_append]
    simpa [Notification.isFinal] using h.request
  attempt host' item := by
    have hhost : (Notification.nodeStarted host).attemptHost? = some host.node.host := rfl
    rw [item?_insert, latestOn_concat, hhost]
    by_cases hsame : host'.node.host = host.node.host
    · rw [if_pos (HostInfo.itemKey_eq_iff.mpr ⟨rfl, hsame⟩), if_pos (congrArg some hsame.symm)]
      constructor
      · rintro ⟨⟩
        exact ⟨_, List.mem_append_right _ (List.mem_singleton_self _), rfl, rfl⟩
      · rintro ⟨x, hx, hstart, rfl⟩
        rcases List.mem_append.mp hx with hx | hx
        · exact absurd (Notification.nodeStarted.inj (Option.some.inj hstart)).symm (new x hx)
        · rw [List.mem_singleton.mp hx]
    · rw [if_neg fun heq => hsame (HostInfo.itemKey_inj heq),
        if_neg fun heq => hsame (Option.some.inj heq).symm, h.attempt]
      refine exists_congr fun x => ⟨fun hx => ⟨List.mem_append_left _ hx.1, hx.2⟩, fun hx => ?_⟩
      refine ⟨(List.mem_append.mp hx.1).resolve_right fun hlast => ?_, hx.2⟩
      rw [List.mem_singleton.mp hlast] at hx
      exact hsame (Option.some.inj (mem_of_latestOn hx.2.1).2).symm
  nothingElse key hown hother := by
    rw [item?_insert, if_neg (by rintro rfl; exact hother (isKey_attempt host))]
    exact h.nothingElse key hown hother

/-- The span of an attempt that is reported is removed. -/
theorem report (h : Holds own ns t request attempts) (report : n.report? = some host) :
    Holds own (ns ++ [n]) (t.drop (host.itemKey spanKey)) request attempts where
  request := by
    have hopen : n.isFinal = false := by cases n <;> first | rfl | cases report
    rw [item?_drop, if_neg (spanKey_ne host), List.any_append]
    simpa [hopen] using h.request
  attempt host' item := by
    have hhost : n.attemptHost? = some host.node.host := by
      rw [Notification.attemptHost?, Notification.attempt?_of_report report]
      rfl
    rw [item?_drop, latestOn_concat, hhost]
    by_cases hsame : host'.node.host = host.node.host
    · rw [if_pos (HostInfo.itemKey_eq_iff.mpr ⟨rfl, hsame⟩), if_pos (congrArg some hsame.symm)]
      constructor
      · rintro ⟨⟩
      · rintro ⟨x, -, hstart, -⟩
        rw [Option.some.inj hstart] at report
        cases report
    · rw [if_neg fun heq => hsame (HostInfo.itemKey_inj heq),
        if_neg fun heq => hsame (Option.some.inj heq).symm]
      exact h.attempt host' item
  nothingElse key hown hother := by
    rw [item?_drop, h.nothingElse key hown hother, ite_self]

/-- The span of a request that has ended is removed. -/
theorem conclude (h : Holds own ns t request attempts) (final : n.isFinal = true) :
    Holds own (ns ++ [n]) (t.drop spanKey) request attempts where
  request := by
    rw [item?_drop, if_pos rfl, List.any_append]
    simp [final]
  attempt host item := by
    have hhost : n.attemptHost? = none := by cases n <;> first | rfl | cases final
    rw [item?_drop, if_neg (spanKey_ne host).symm, latestOn_concat, hhost, if_neg (by simp)]
    exact h.attempt host item
  nothingElse key hown hother := by
    rw [item?_drop, h.nothingElse key hown hother, ite_self]

/-- The announcement of an execution leaves all spans where they are. -/
theorem speculate {delay : Duration} (h : Holds own ns t request attempts) :
    Holds own (ns ++ [.speculated host delay]) t request attempts where
  request := by
    rw [List.any_append]
    simpa [Notification.isFinal] using h.request
  attempt host' item := by
    rw [latestOn_concat, if_neg (by simp [Notification.attemptHost?, Notification.attempt?])]
    exact h.attempt host' item
  nothingElse := h.nothingElse

/-- The span of a request that starts is all that is stored. -/
theorem new (keys : ∀ key, IsKey key → own key) (nothing : ∀ key, own key → t.item? key = none) :
    Holds own [.requestStarted] (t.insert spanKey (.span request)).1 request [] where
  request := by
    rw [item?_insert, if_pos rfl]
    rfl
  attempt host item := by
    rw [item?_insert, if_neg (spanKey_ne host).symm, nothing _ (keys _ (isKey_attempt host))]
    simp
  nothingElse key hown hother := by
    rw [item?_insert, if_neg fun heq => hother (.inl heq)]
    exact nothing key hown

end Holds

-- ============================================================================
-- The spans of a request
-- ============================================================================

/-- What the spans show of a request that was started: `request` is its span, and `attempts` are the
    attempts that were started, with theirs. -/
structure Shows (includeStatement : Bool) (statement : Option TrackedStatement)
    (ns : List Notification) (opened : List Nat) (spans : List Span) (request : Nat)
    (attempts : List (HostInfo × Nat)) : Prop where
  begun : .requestStarted ∈ ns
  opened_eq : opened = request :: attempts.map Prod.snd
  distinct : opened.Nodup
  started : attempts.map Prod.fst = ns.filterMap Notification.start?
  requestSpan : ∃ parent fields, spans[request]? =
      some ⟨"Request", parent, shown includeStatement statement ++ fields⟩ ∧
    Marked (fun n => n.isFinal = true) ns fields
  attemptSpan : ∀ x ∈ attempts, ∃ fields, spans[x.2]? =
      some ⟨"Attempt", some request, attemptFields x.1 ++ fields⟩ ∧
    Marked (fun n => n.report? = some x.1) ns fields

section Showing

variable {includeStatement : Bool} {statement : Option TrackedStatement}
  {ns : List Notification} {n : Notification} {opened : List Nat} {spans spans' : List Span}
  {span : Span} {request i : Nat} {host : HostInfo} {attempts : List (HostInfo × Nat)}

namespace Shows

variable (h : Shows includeStatement statement ns opened spans request attempts)

include h

theorem request_mem : request ∈ opened :=
  h.opened_eq ▸ List.mem_cons_self

theorem attempt_mem {x : HostInfo × Nat} (hx : x ∈ attempts) : x.2 ∈ opened :=
  h.opened_eq ▸ List.mem_cons_of_mem _ (List.mem_map_of_mem hx)

/-- The spans that were opened exist. -/
theorem lt_length (hi : i ∈ opened) : i < spans.length := by
  rw [h.opened_eq] at hi
  rcases List.mem_cons.mp hi with rfl | hi
  · obtain ⟨parent, fields, hspan, -⟩ := h.requestSpan
    exact (List.getElem?_eq_some_iff.mp hspan).1
  · obtain ⟨x, hx, rfl⟩ := List.mem_map.mp hi
    obtain ⟨fields, hspan, -⟩ := h.attemptSpan x hx
    exact (List.getElem?_eq_some_iff.mp hspan).1

theorem attempt_ne_request {x : HostInfo × Nat} (hx : x ∈ attempts) : x.2 ≠ request := by
  have hdistinct := h.distinct
  rw [h.opened_eq, List.nodup_cons] at hdistinct
  exact fun heq => hdistinct.1 (heq ▸ List.mem_map_of_mem hx)

/-- A span is that of one attempt, -/
theorem eq_of_span {x y : HostInfo × Nat} (hx : x ∈ attempts) (hy : y ∈ attempts)
    (same : x.2 = y.2) : x = y := by
  have hdistinct := h.distinct
  rw [h.opened_eq, List.nodup_cons] at hdistinct
  exact List.inj_on_of_nodup_map hdistinct.2 hx hy same

/-- and an attempt has one span. -/
theorem eq_of_attempt (coherent : Coherent ns) {x y : HostInfo × Nat} (hx : x ∈ attempts)
    (hy : y ∈ attempts) (same : x.1 = y.1) : x = y :=
  List.inj_on_of_nodup_map (h.started ▸ coherent.starts_nodup) hx hy same

theorem agree (same : ∀ i ∈ opened, spans'[i]? = spans[i]?) :
    Shows includeStatement statement ns opened spans' request attempts where
  begun := h.begun
  opened_eq := h.opened_eq
  distinct := h.distinct
  started := h.started
  requestSpan := by
    rw [same _ h.request_mem]
    exact h.requestSpan
  attemptSpan x hx := by
    rw [same _ (h.attempt_mem hx)]
    exact h.attemptSpan x hx

/-- An attempt that starts is not among those that were started. -/
theorem new_of_tale (tale : Tale (ns ++ [.nodeStarted host])) : ∀ x ∈ attempts, x.1 ≠ host := by
  rintro x hx rfl
  have hstarted : x.1 ∈ ns.filterMap Notification.start? := h.started ▸ List.mem_map_of_mem hx
  exact (EachAfter.concat_iff.mp tale.once).2 _ rfl (mem_started.mp hstarted)

/-- Another span is opened for an attempt that starts. -/
theorem start (tale : Tale (ns ++ [.nodeStarted host])) :
    Shows includeStatement statement (ns ++ [.nodeStarted host]) (opened ++ [spans.length])
      (spans ++ [⟨"Attempt", some request, attemptFields host⟩]) request
      (attempts ++ [(host, spans.length)]) where
  begun := List.mem_append_left _ h.begun
  opened_eq := by
    rw [h.opened_eq, List.map_append]
    rfl
  distinct := by
    rw [List.nodup_append]
    refine ⟨h.distinct, List.nodup_singleton _, ?_⟩
    rintro i hi _ hlast rfl
    exact absurd (h.lt_length hi) (by simp [List.mem_singleton.mp hlast])
  started := by
    rw [List.map_append, h.started, List.filterMap_append]
    rfl
  requestSpan := by
    obtain ⟨parent, fields, hspan, hmarked⟩ := h.requestSpan
    refine ⟨parent, fields, ?_, hmarked.skip (by simp [Notification.isFinal])⟩
    rw [List.getElem?_append_left (h.lt_length h.request_mem), hspan]
  attemptSpan := by
    refine List.forall_mem_append.mpr ⟨fun x hx => ?_, List.forall_mem_singleton.mpr ?_⟩
    · obtain ⟨fields, hspan, hmarked⟩ := h.attemptSpan x hx
      refine ⟨fields, ?_, hmarked.skip (by simp [Notification.report?])⟩
      rw [List.getElem?_append_left (h.lt_length (h.attempt_mem hx)), hspan]
    · refine ⟨[], by simp, marked_nil (List.forall_mem_append.mpr ⟨fun n hn hreport => ?_, ?_⟩)⟩
      · exact (EachAfter.concat_iff.mp tale.once).2 _ rfl
          (tale.of_append.started_of_reported ⟨n, hn, hreport⟩)
      · simp [Notification.report?]

/-- The span of an attempt that is reported is marked. -/
theorem report (tale : Tale (ns ++ [n])) (report : n.report? = some host)
    (mem : (host, i) ∈ attempts) :
    Shows includeStatement statement (ns ++ [n]) opened (spans.modify i (·.mark (marks n))) request
      attempts where
  begun := List.mem_append_left _ h.begun
  opened_eq := h.opened_eq
  distinct := h.distinct
  started := by
    have hquiet : n.start? = none := by cases n <;> first | rfl | cases report
    rw [h.started, List.filterMap_append]
    simp [hquiet]
  requestSpan := by
    obtain ⟨parent, fields, hspan, hmarked⟩ := h.requestSpan
    have hopen : n.isFinal = false := by cases n <;> first | rfl | cases report
    refine ⟨parent, fields, ?_, hmarked.skip (by simp [hopen])⟩
    rw [List.getElem?_modify_ne _ _ (h.attempt_ne_request mem), hspan]
  attemptSpan := by
    intro x hx
    obtain ⟨fields, hspan, hmarked⟩ := h.attemptSpan x hx
    by_cases hsame : x.2 = i
    · obtain rfl : x = (host, i) := h.eq_of_span hx mem hsame
      have hunreported : ¬ Reported ns host :=
        tale.of_append.unreported ((EachAfter.concat_iff.mp tale.own).2 host report)
      have hopen : ∀ m ∈ ns, ¬ m.report? = some host := fun m hm hm' => hunreported ⟨m, hm, hm'⟩
      obtain rfl : fields = [] := hmarked.unended hopen
      refine ⟨marks n, ?_, marked_of_ends hopen report⟩
      rw [List.getElem?_modify_eq, hspan, List.append_nil]
      exact congrArg some (Span.mark_of_new (attempt_marks_nodup host n))
    · refine ⟨fields, ?_, hmarked.skip fun hreport => ?_⟩
      · rw [List.getElem?_modify_ne _ _ (Ne.symm hsame), hspan]
      · exact hsame (congrArg Prod.snd (h.eq_of_attempt tale.of_append.toCoherent hx mem
          (Option.some.inj (hreport.symm.trans report))))

/-- The span of a request that has ended is marked. -/
theorem conclude (tale : Tale (ns ++ [n])) (final : n.isFinal = true) :
    Shows includeStatement statement (ns ++ [n]) opened (spans.modify request (·.mark (marks n)))
      request attempts where
  begun := List.mem_append_left _ h.begun
  opened_eq := h.opened_eq
  distinct := h.distinct
  started := by
    have hquiet : n.start? = none := by cases n <;> first | rfl | cases final
    rw [h.started, List.filterMap_append]
    simp [hquiet]
  requestSpan := by
    obtain ⟨parent, fields, hspan, hmarked⟩ := h.requestSpan
    have hopen : ∀ m ∈ ns, ¬ m.isFinal = true := by
      simpa using (EachAfter.concat_iff.mp tale.last).2
    obtain rfl : fields = [] := hmarked.unended hopen
    refine ⟨parent, marks n, ?_, marked_of_ends hopen final⟩
    rw [List.append_nil] at hspan
    rw [List.getElem?_modify_eq, hspan]
    exact congrArg some (Span.mark_of_new (shown_marks_nodup final includeStatement statement))
  attemptSpan x hx := by
    obtain ⟨fields, hspan, hmarked⟩ := h.attemptSpan x hx
    have hquiet : n.report? = none := by cases n <;> first | rfl | cases final
    refine ⟨fields, ?_, hmarked.skip (by simp [hquiet])⟩
    rw [List.getElem?_modify_ne _ _ (h.attempt_ne_request hx).symm, hspan]

/-- The announcement of an execution leaves all spans as they are. -/
theorem speculate {delay : Duration} :
    Shows includeStatement statement (ns ++ [.speculated host delay]) opened spans request
      attempts where
  begun := List.mem_append_left _ h.begun
  opened_eq := h.opened_eq
  distinct := h.distinct
  started := by
    rw [h.started, List.filterMap_append]
    exact (List.append_nil _).symm
  requestSpan := by
    obtain ⟨parent, fields, hspan, hmarked⟩ := h.requestSpan
    exact ⟨parent, fields, hspan, hmarked.skip (by simp [Notification.isFinal])⟩
  attemptSpan x hx := by
    obtain ⟨fields, hspan, hmarked⟩ := h.attemptSpan x hx
    exact ⟨fields, hspan, hmarked.skip (by simp [Notification.report?])⟩

end Shows

/-- A request that starts is shown by its span. -/
theorem shows_start (parent : Option Nat) (opened : spans.length = request) :
    Shows includeStatement statement [.requestStarted] [request]
      (spans ++ [⟨"Request", parent, shown includeStatement statement⟩]) request [] where
  begun := List.mem_singleton_self _
  opened_eq := rfl
  distinct := List.nodup_singleton _
  started := rfl
  requestSpan := ⟨parent, [], by simp [← opened], marked_nil (by simp [Notification.isFinal])⟩
  attemptSpan := by simp

end Showing

-- ============================================================================
-- Everything that may come of the notifications
-- ============================================================================

section Tracing

variable {includeStatement : Bool} {kept : Notification → Bool} {own : String → Prop}
  {statement : Option TrackedStatement} {ns : List Notification} {n : Notification}
  {opened : List Nat} {t : Tracking} {d : Diagnostics} {s : Scene}

theorem trace_statement (includeStatement : Bool) (t : Tracking) (d : Diagnostics)
    (n : Notification) : (trace includeStatement t d n).1.statement = t.statement := by
  cases n with
  | requestStarted =>
    simp only [trace, start]
    split <;> rfl
  | speculated | nodeStarted =>
    simp only [trace, startAttempt]
    split
    · rfl
    · first | rfl | (split <;> rfl)
  | nodeFailed | nodeSucceeded | requestSucceeded | requestFailed | requestCancelled =>
    rw [trace, finish_items]
    exact statement_take ..

/-- As long as nothing is stored, nothing happens but the start of a request whose span is kept. -/
theorem trace_of_nothing (nothing : ∀ key, IsKey key → t.item? key = none)
    (dropped : n = .requestStarted → d.keeps .trace = false) :
    trace includeStatement t d n = (t, d) := by
  have hget (key : String) (hkey : IsKey key) : t.get key .span = none := by
    rw [Tracking.get, nothing key hkey]
    rfl
  have hspan : span? t spanKey = none := by rw [span?, hget _ (.inl rfl)]
  have hfinish {key : String} (hkey : IsKey key) (f : Nat → Diagnostics → Diagnostics) :
      finish key f t d = (t, d) := by
    simp [finish, takeSpan, Tracking.take, hget key hkey]
  cases n with
  | requestStarted => simp [trace, start, Diagnostics.openSpan, dropped rfl]
  | speculated => simp [trace, hspan]
  | nodeStarted => simp [trace, startAttempt, hspan]
  | nodeFailed host | nodeSucceeded host => rw [trace, hfinish (isKey_attempt host)]
  | requestSucceeded | requestFailed | requestCancelled => rw [trace, hfinish (.inl rfl)]

theorem Traced.statement_eq (h : Traced includeStatement kept own statement ns opened t s) :
    t.statement = statement := by
  induction h with
  | fresh known => exact known
  | told n before keeps ih => exact (trace_statement ..).trans ih
  | beside before spares ih => exact spares.statement.trans ih

/-- Before the start of a request nothing is opened or stored, and if its span is not kept, nothing
    ever is. -/
theorem Traced.dark (h : Traced includeStatement kept own statement ns opened t s)
    (keys : ∀ key, IsKey key → own key)
    (dropped : .requestStarted ∈ ns → kept .requestStarted = false) :
    opened = [] ∧ ∀ key, own key → t.item? key = none := by
  induction h with
  | fresh known nothing => exact ⟨rfl, nothing⟩
  | @told ns opened t s n before keeps ih =>
    obtain ⟨rfl, hnothing⟩ := ih fun hmem => dropped (List.mem_append_left _ hmem)
    have htrace : trace includeStatement t s.diagnostics n = (t, s.diagnostics) := by
      refine trace_of_nothing (fun key hkey => hnothing key (keys key hkey)) ?_
      rintro rfl
      rw [keeps]
      exact dropped (List.mem_append_right _ (List.mem_singleton_self _))
    have hnotify : (Observer.tracer includeStatement).notify n t s = (t, s) := by
      change ((trace includeStatement t s.diagnostics n).1,
        { s with diagnostics := (trace includeStatement t s.diagnostics n).2 }) = (t, s)
      rw [htrace]
    rw [hnotify]
    exact ⟨Diagnostics.openedSince_of_length rfl, hnothing⟩
  | beside before spares ih =>
    obtain ⟨hopened, hnothing⟩ := ih dropped
    exact ⟨hopened, fun key hown => (spares.items key hown).trans (hnothing key hown)⟩

/-- The spans and the items of a request that was started are in accordance with what was told. -/
def Accords (includeStatement : Bool) (statement : Option TrackedStatement) (own : String → Prop)
    (ns : List Notification) (opened : List Nat) (t : Tracking) (d : Diagnostics) : Prop :=
  ∃ request attempts, Shows includeStatement statement ns opened d.spans request attempts ∧
    Holds own ns t request attempts

/-- A request starts whose span is kept. -/
theorem accords_start (keys : ∀ key, IsKey key → own key)
    (nothing : ∀ key, own key → t.item? key = none) (keeps : d.keeps .trace = true) :
    Accords includeStatement t.statement own [.requestStarted]
      (d.openedSince (trace includeStatement t d .requestStarted).2)
      (trace includeStatement t d .requestStarted).1
      (trace includeStatement t d .requestStarted).2 := by
  rw [trace, start_eq keeps, Diagnostics.openedSince_of_concat rfl]
  exact ⟨d.spans.length, [], shows_start d.entered rfl, Holds.new keys nothing⟩

/-- What ends a span opens none. -/
theorem openedSince_of_ends {key : String} {i : Nat} (ends : ends? n = some key)
    (found : t.item? key = some (.span i)) :
    d.openedSince (trace includeStatement t d n).2 = [] := by
  refine Diagnostics.openedSince_of_length ?_
  rw [(trace_of_ends ends found).2, List.length_modify]

/-- Another notification arrives. -/
theorem Accords.next (h : Accords includeStatement statement own ns opened t d)
    (tale : Tale (ns ++ [n])) (keeps : d.keeps .trace = true) :
    Accords includeStatement statement own (ns ++ [n])
      (opened ++ d.openedSince (trace includeStatement t d n).2) (trace includeStatement t d n).1
      (trace includeStatement t d n).2 := by
  obtain ⟨request, attempts, hshows, hholds⟩ := h
  have hitem : t.item? spanKey = some (.span request) := by
    have hopen : ns.any Notification.isFinal = false :=
      List.any_eq_false.mpr (by simpa using (EachAfter.concat_iff.mp tale.last).2)
    rw [hholds.request, hopen]
    rfl
  -- an attempt that is reported is the one whose span is stored about its host
  have reported {host : HostInfo} (report : n.report? = some host) :
      Accords includeStatement statement own (ns ++ [n])
        (opened ++ d.openedSince (trace includeStatement t d n).2)
        (trace includeStatement t d n).1 (trace includeStatement t d n).2 := by
    have hlatest := (EachAfter.concat_iff.mp tale.own).2 host report
    obtain ⟨⟨host', i⟩, hmem, rfl⟩ := List.mem_map.mp
      (hshows.started.symm ▸ mem_started.mpr (mem_of_latestOn hlatest).1)
    have hfound := (hholds.attempt _ _).mpr ⟨_, hmem, hlatest, rfl⟩
    obtain ⟨ht, hspans⟩ := trace_of_ends (ends?_of_report report) hfound
    refine ⟨request, attempts, ?_, ht ▸ hholds.report report⟩
    rw [openedSince_of_ends (ends?_of_report report) hfound, List.append_nil, hspans]
    exact hshows.report tale report hmem
  have concluded (final : n.isFinal = true) :
      Accords includeStatement statement own (ns ++ [n])
        (opened ++ d.openedSince (trace includeStatement t d n).2)
        (trace includeStatement t d n).1 (trace includeStatement t d n).2 := by
    obtain ⟨ht, hspans⟩ := trace_of_ends (ends?_of_isFinal final) hitem
    refine ⟨request, attempts, ?_, ht ▸ hholds.conclude final⟩
    rw [openedSince_of_ends (ends?_of_isFinal final) hitem, List.append_nil, hspans]
    exact hshows.conclude tale final
  cases n with
  | requestStarted =>
    have hnil : ns = [] := (EachAfter.concat_iff.mp tale.first).2 rfl
    exact absurd hshows.begun (by simp [hnil])
  | speculated host delay =>
    obtain ⟨ht, hspans⟩ := trace_speculated host delay
    refine ⟨request, attempts, ?_, ht ▸ hholds.speculate⟩
    rw [Diagnostics.openedSince_of_length (congrArg List.length hspans), List.append_nil, hspans]
    exact hshows.speculate
  | nodeStarted host =>
    rw [trace, startAttempt_eq keeps hitem, Diagnostics.openedSince_of_concat rfl]
    exact ⟨request, _, hshows.start tale, hholds.start (hshows.new_of_tale tale)⟩
  | nodeFailed | nodeSucceeded => exact reported rfl
  | requestSucceeded | requestFailed | requestCancelled => exact concluded rfl

/-- If spans are kept, they and the items are in accordance with what was told. -/
theorem Traced.accords (h : Traced includeStatement kept own statement ns opened t s)
    (keys : ∀ key, IsKey key → own key) (keptAll : ∀ n, kept n = true) (tale : Tale ns)
    (begun : ns ≠ []) : Accords includeStatement statement own ns opened t s.diagnostics := by
  induction h with
  | fresh => exact absurd rfl begun
  | @told ns opened t s n before keeps ih =>
    rw [keptAll] at keeps
    by_cases hfirst : ns = []
    · subst hfirst
      obtain rfl : n = .requestStarted := by
        by_contra hlater
        exact List.not_mem_nil ((EachAfter.concat_iff.mp tale.begun).2 hlater)
      obtain ⟨rfl, hnothing⟩ := before.dark keys fun h => absurd h List.not_mem_nil
      exact before.statement_eq ▸ accords_start keys hnothing keeps
    · exact (ih tale.of_append hfirst).next tale keeps
  | beside before spares ih =>
    obtain ⟨request, attempts, hshows, hholds⟩ := ih tale begun
    exact ⟨request, attempts, hshows.agree spares.spans, hholds.agree keys spares.items⟩

end Tracing

end Tracer

end RequestEngine
