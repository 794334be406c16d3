/-
  RequestEngine.Proofs.Observation.SpanLaw

  The spans of every run.  If spans are kept, a tracer opens one for the request and
  below it one for each attempt that starts, which shows the decision and the error
  if this attempt fails; when all is told, only the spans of the attempts that were
  cancelled are still stored.

    * `Observer.SparesSpans` — observers that leave a tracer's things alone, among them
      those that are provided and of another kind;
    * `Tracer.traced_inTurn` — a tracer among such observers;
    * `SpanLaw`, `Run.spanLaw` — what the spans show of a run.
-/
import RequestEngine.Proofs.Observation.Spans
import RequestEngine.Proofs.Request.Hooks

namespace RequestEngine

open Tracking

-- ============================================================================
-- Other observers
-- ============================================================================

/-- An observer that leaves some items, the statement and all spans as they are. -/
structure Observer.SparesSpans (own : String → Prop) (o : Observer) : Prop where
  items : ∀ n t s, SameUnder own (o.notify n t s).1 t
  statement : ∀ n t s, (o.notify n t s).1.statement = t.statement
  log : ∀ n t s, (o.notify n t s).2.diagnostics.Alike s.diagnostics

namespace Provided

/-- Observers of other kinds leave the items and the spans of a tracer alone. -/
theorem sparesSpans {kind : Provided} (other : ∀ includeStatement, kind ≠ .tracer includeStatement)
    (place : Nat) : (kind.observer place).SparesSpans Tracer.IsKey := by
  have under {t t' : Tracking} (same : SameItems 'r' t' t) : SameUnder Tracer.IsKey t' t := by
    rintro _ (rfl | ⟨host, rfl⟩)
    · exact same _ rfl
    · exact same _ (host.head?_itemKey rfl)
  have guarded (s : Scene) (callback : Callback) (verdict : Verdict) :
      (s.guard callback verdict).diagnostics.Alike s.diagnostics :=
    (Scene.alike_guard s callback verdict).diagnostics
  have notified (n : Notification) (t : Tracking) (s : Scene) :
      SameItems 'r' ((kind.observer place).notify n t s).1 t ∧
        ((kind.observer place).notify n t s).1.statement = t.statement ∧
        ((kind.observer place).notify n t s).2.diagnostics.Alike s.diagnostics := by
    cases kind with
    | tracer includeStatement => exact absurd rfl (other includeStatement)
    | history =>
      cases found : s.histories[place]? with
      | none =>
        rw [notify_history_nowhere found]
        exact ⟨.refl _ _, rfl, rfl⟩
      | some h =>
        obtain ⟨htracking, verdict, hscene⟩ := notify_history (n := n) (t := t) found
        rw [htracking, hscene]
        exact ⟨History.leaves_other (by decide) h t n, History.statement_leaves h t n,
          guarded _ _ _⟩
    | metrics =>
      cases found : s.metrics[place]? with
      | none =>
        rw [notify_metrics_nowhere found]
        exact ⟨.refl _ _, rfl, rfl⟩
      | some m =>
        obtain ⟨htracking, verdict, hscene⟩ := notify_metrics (n := n) (t := t) found
        rw [htracking, hscene]
        exact ⟨Metrics.leaves_other (by decide) t s.now n, Metrics.statement_leaves t s.now n,
          guarded _ _ _⟩
  exact ⟨fun n t s => under (notified n t s).1, fun n t s => (notified n t s).2.1,
    fun n t s => (notified n t s).2.2⟩

end Provided

/-- Observers are notified of a request, of one thing after another. -/
def Delivery.inTurn (observers : List Observer) (ns : List Notification) (t : Tracking)
    (s : Scene) : Tracking × Scene :=
  ns.foldl (fun x n => atOnce n observers x.1 x.2) (t, s)

namespace Tracer

variable {includeStatement : Bool} {kept : Notification → Bool} {own : String → Prop}
  {statement : Option TrackedStatement} {ns : List Notification} {opened : List Nat}
  {observers ahead behind : List Observer} {t : Tracking} {s : Scene}

/-- Among such observers, a tracer finds its items and its spans as it left them. -/
theorem Traced.atOnce (h : Traced includeStatement kept own statement ns opened t s)
    (spare : ∀ o ∈ observers, o.SparesSpans own) (n : Notification) :
    Traced includeStatement kept own statement ns opened (Delivery.atOnce n observers t s).1
        (Delivery.atOnce n observers t s).2 ∧
      (Delivery.atOnce n observers t s).2.diagnostics.verbosity = s.diagnostics.verbosity := by
  induction observers generalizing t s with
  | nil => exact ⟨h, rfl⟩
  | cons o rest ih =>
    obtain ⟨hfirst, hrest⟩ := List.forall_mem_cons.mp spare
    have hlog := hfirst.log n t s
    have hbeside := h.beside ⟨hfirst.items n t s, hfirst.statement n t s, fun i _ => by
      rw [hlog.spans]⟩
    rw [Delivery.atOnce_cons]
    exact ⟨(ih hbeside hrest).1, (ih hbeside hrest).2.trans hlog.verbosity⟩

theorem finish_verbosity {key : String} {f : Nat → Diagnostics → Diagnostics} {t : Tracking}
    {d : Diagnostics} (keeps : ∀ span, (f span d).verbosity = d.verbosity) :
    (finish key f t d).2.verbosity = d.verbosity := by
  unfold finish
  rcases takeSpan t key with ⟨t', found⟩
  cases found with
  | none => rfl
  | some span => exact keeps span

/-- A tracer does not change what is kept. -/
theorem trace_verbosity (includeStatement : Bool) (t : Tracking) (d : Diagnostics)
    (n : Notification) : (trace includeStatement t d n).2.verbosity = d.verbosity := by
  have logged (d : Diagnostics) (span : Option Nat) (severity : Severity) (message : String)
      (fields : Fields) : (d.logIn span severity message fields).verbosity = d.verbosity :=
    (d.alike_logIn ..).verbosity
  cases n with
  | requestStarted =>
    by_cases keeps : d.keeps .trace = true <;> simp [trace, start, Diagnostics.openSpan, keeps]
  | speculated =>
    rw [trace]
    split
    · rfl
    · exact logged ..
  | nodeStarted =>
    rw [trace, startAttempt]
    split
    · rfl
    · by_cases keeps : d.keeps .trace = true <;> simp [Diagnostics.openSpan, keeps]
  | nodeFailed | nodeSucceeded | requestSucceeded | requestFailed | requestCancelled =>
    exact finish_verbosity fun _ => logged ..

/-- A notification reaches a tracer among such observers. -/
theorem Traced.delivered (h : Traced includeStatement kept own statement ns opened t s)
    (spare : ∀ o ∈ ahead ++ behind, o.SparesSpans own) (n : Notification)
    (keeps : s.diagnostics.keeps .trace = kept n) :
    let left := Delivery.atOnce n (ahead ++ .tracer includeStatement :: behind) t s
    (∃ opened', Traced includeStatement kept own statement (ns ++ [n]) opened' left.1 left.2) ∧
      left.2.diagnostics.verbosity = s.diagnostics.verbosity := by
  obtain ⟨hahead, hverbosity⟩ := h.atOnce (fun o ho => spare o (List.mem_append_left _ ho)) n
  have htold := hahead.told n ((Diagnostics.keeps_congr hverbosity .trace).trans keeps)
  obtain ⟨hbehind, hverbosity'⟩ :=
    htold.atOnce (fun o ho => spare o (List.mem_append_right _ ho)) n
  rw [Delivery.atOnce_append, Delivery.atOnce_cons]
  exact ⟨⟨_, hbehind⟩, hverbosity'.trans ((trace_verbosity ..).trans hverbosity)⟩

/-- So do several, one after another. -/
theorem traced_inTurn (nothing : ∀ key, own key → t.item? key = none)
    (spare : ∀ o ∈ ahead ++ behind, o.SparesSpans own) (ns : List Notification) :
    let left := Delivery.inTurn (ahead ++ .tracer includeStatement :: behind) ns t s
    (∃ opened, Traced includeStatement (fun _ => s.diagnostics.keeps .trace) own t.statement ns
      opened left.1 left.2) ∧ left.2.diagnostics.verbosity = s.diagnostics.verbosity := by
  induction ns using List.reverseRecOn with
  | nil => exact ⟨⟨[], .fresh rfl nothing⟩, rfl⟩
  | append_singleton ns n ih =>
    obtain ⟨⟨opened, htraced⟩, hverbosity⟩ := ih
    rw [Delivery.inTurn, List.foldl_concat, ← Delivery.inTurn]
    obtain ⟨htold, hkept⟩ :=
      htraced.delivered spare n (Diagnostics.keeps_congr hverbosity .trace)
    exact ⟨htold, hkept.trans hverbosity⟩

end Tracer

namespace Request

open Tracer

-- ============================================================================
-- The spans of a run
-- ============================================================================

/-- What the spans show of a request that took some deeds, and what is stored of them: `request` is
    its span, and `attempts` are the attempts that were started, with theirs. -/
structure SpanLaw (includeStatement : Bool) (statement : Option TrackedStatement)
    (own : String → Prop) (log : List Deed) (opened : List Nat) (t : Tracking) (spans : List Span)
    (request : Nat) (attempts : List (HostInfo × Nat)) : Prop where
  /-- One span was opened for the request and then one for each attempt that was started. -/
  opened_eq : opened = request :: attempts.map Prod.snd
  distinct : opened.Nodup
  started : attempts.map Prod.fst = Deed.starts log
  /-- The span of the request shows the statement, if it may, and the error that it failed with. -/
  requestSpan : ∃ parent fields, spans[request]? =
      some ⟨"Request", parent, shown includeStatement statement ++ fields⟩ ∧
    (∀ error, .requestFailed error ∈ Deed.notices log → fields = errorStatus error.message) ∧
    ((∀ error, .requestFailed error ∉ Deed.notices log) → fields = [])
  /-- That of an attempt is a child of it and shows the attempt; it shows a decision and an error if
      this very attempt failed, and then those that it failed with. -/
  attemptSpan : ∀ x ∈ attempts, ∃ fields, spans[x.2]? =
      some ⟨"Attempt", some request, attemptFields x.1 ++ fields⟩ ∧
    (∀ errorType decision error, .nodeFailed x.1 errorType decision error ∈ Deed.notices log →
      fields = ("retry_decision", decision.text) :: errorStatus error.message) ∧
    ((∀ errorType decision error, .nodeFailed x.1 errorType decision error ∉ Deed.notices log) →
      fields = [])
  /-- Until the end the span of the request is open. -/
  unended : (∀ n ∈ Deed.notices log, n.isFinal = false) → t.item? spanKey = some (.span request)
  /-- After it no spans are stored but those of the attempts that were cancelled. -/
  ended : (∃ n ∈ Deed.notices log, n.isFinal = true) → t.item? spanKey = none ∧
    ∀ key item, own key → (t.item? key = some item ↔
      ∃ x ∈ attempts, Cancelled log x.1 ∧ key = x.1.itemKey spanKey ∧ item = .span x.2)

section Spans

variable {s : Settings} {ts : List Transition} {σ : State} {includeStatement : Bool}
  {kept : Notification → Bool} {own : String → Prop} {statement : Option TrackedStatement}
  {opened : List Nat} {t : Tracking} {scene : Scene} {request : Nat}
  {attempts : List (HostInfo × Nat)}

/-- Once the end was told, what is stored are the spans of the attempts that were cancelled. -/
theorem Run.holds_cancelled (h : Run s ts σ)
    (started : attempts.map Prod.fst = Deed.starts (log ts))
    (holds : Holds own (Deed.notices (log ts)) t request attempts)
    (ended : ∃ n ∈ Deed.notices (log ts), n.isFinal = true) {key : String} {item : Item}
    (hown : own key) : t.item? key = some item ↔
      ∃ x ∈ attempts, Cancelled (log ts) x.1 ∧ key = x.1.itemKey spanKey ∧ item = .span x.2 := by
  have hgone : t.item? spanKey = none := by
    rw [holds.request, if_pos (List.any_eq_true.mpr ended)]
  have hcancelled {x : HostInfo × Nat} (hx : x ∈ attempts) :
      latestOn x.1.node.host (Deed.notices (log ts)) = some (.nodeStarted x.1) ↔
        Cancelled (log ts) x.1 := by
    have hstarted : x.1 ∈ Deed.starts (log ts) := started ▸ List.mem_map_of_mem hx
    have htold : .nodeStarted x.1 ∈ Deed.notices (log ts) := mem_started.mp hstarted
    have hunreported : ¬ Reported (Deed.notices (log ts)) x.1 ↔ Cancelled (log ts) x.1 := by
      rw [h.unreported_iff htold, h.pending_eq_nil ended]
      exact or_iff_right List.not_mem_nil
    exact ⟨fun hlatest => hunreported.mp (h.coherent.unreported hlatest),
      fun hends => h.latestOn_unreported htold (hunreported.mpr hends)⟩
  constructor
  · intro hitem
    obtain rfl | ⟨host, rfl⟩ : IsKey key := by
      by_contra hother
      rw [holds.nothingElse key hown hother] at hitem
      cases hitem
    · rw [hgone] at hitem
      cases hitem
    · obtain ⟨x, hx, hlatest, rfl⟩ := (holds.attempt host item).mp hitem
      have hhost : x.1.node.host = host.node.host :=
        Option.some.inj (mem_of_latestOn hlatest).2
      refine ⟨x, hx, (hcancelled hx).mp (hhost ▸ hlatest), ?_, rfl⟩
      exact HostInfo.itemKey_eq_iff.mpr ⟨rfl, hhost.symm⟩
  · rintro ⟨x, hx, hends, rfl, rfl⟩
    exact (holds.attempt x.1 _).mpr ⟨x, hx, (hcancelled hx).mpr hends, rfl⟩

/-- What a tracer makes of a run, whatever happens beside it: its spans and what is stored of them
    are in order if spans are kept, and there are none if that of the request is not. -/
theorem Run.spanLaw (h : Run s ts σ) (keys : ∀ key, IsKey key → own key)
    (traced : Traced includeStatement kept own statement (Deed.notices (log ts)) opened t scene) :
    ((∀ n, kept n = true) → ∃ request attempts, SpanLaw includeStatement statement own (log ts)
      opened t scene.diagnostics.spans request attempts) ∧
    (kept .requestStarted = false → opened = [] ∧ ∀ key, own key → t.item? key = none) := by
  refine ⟨fun keptAll => ?_, fun dropped => traced.dark keys fun _ => dropped⟩
  have hbegun : Deed.notices (log ts) ≠ [] := by
    obtain ⟨rest, hstart, -⟩ := h.starts_once
    simp [hstart]
  obtain ⟨request, attempts, hshows, hholds⟩ := traced.accords keys keptAll h.tale hbegun
  refine ⟨request, attempts, ?_⟩
  constructor
  case opened_eq => exact hshows.opened_eq
  case distinct => exact hshows.distinct
  case started => exact hshows.started
  case requestSpan =>
    obtain ⟨parent, fields, hspan, hmarked⟩ := hshows.requestSpan
    exact ⟨parent, fields, hspan, hmarked.of_request⟩
  case attemptSpan =>
    intro x hx
    obtain ⟨fields, hspan, hmarked⟩ := hshows.attemptSpan x hx
    exact ⟨fields, hspan, hmarked.of_attempt⟩
  case unended =>
    intro hopen
    rw [hholds.request, if_neg (by simpa using hopen)]
  case ended =>
    intro hended
    refine ⟨?_, fun key item hown => h.holds_cancelled hshows.started hholds hended hown⟩
    rw [hholds.request, if_pos (List.any_eq_true.mpr hended)]

/-- A request with a statement. -/
def statedRequest : Tracking :=
  { statement := some { contents := "SELECT now() FROM system.local" } }

/-- A scene in which lines up to some severity are kept. -/
def sceneUpTo (verbosity : Option Severity) : Scene :=
  { histories := [{}], metrics := [{}], diagnostics := { verbosity } }

/-- What is left when the observers of a session, a tracer among them, have been told of
    `contestedRun`. -/
def contestedTrace (verbosity : Option Severity) : Tracking × Scene :=
  Delivery.inTurn ([.history 0] ++ .tracer true :: [.metrics 0])
    (Deed.notices (log contestedSteps)) statedRequest (sceneUpTo verbosity)

/-- Each of the four attempts has a span. Those of the two that failed show why, and that of the one
    that was cancelled is still stored. If spans are not kept, none is opened or stored. -/
theorem Run.spanLaw_of_contested :
    (∃ opened request attempts, SpanLaw true statedRequest.statement IsKey (log contestedSteps)
      opened (contestedTrace (some .trace)).1 (contestedTrace (some .trace)).2.diagnostics.spans
      request attempts) ∧
    (contestedTrace (some .trace)).2.diagnostics.spans.map (fun span => (span.name, span.parent,
        span.fields.lookup "attempt", span.fields.lookup "retry_decision")) =
      [("Request", none, none, none),
        ("Attempt", some 0, some "1", some "RetrySameTarget(None)"),
        ("Attempt", some 0, some "1", none),
        ("Attempt", some 0, some "2", some "RetrySameTarget(None)"),
        ("Attempt", some 0, some "3", none)] ∧
    (contestedTrace (some .trace)).1.items.filter (fun x => x.2.type = .span) =
      [((HostInfo.mk otherNode 1 1).itemKey spanKey, .span 2)] ∧
    (contestedTrace none).2.diagnostics.spans = [] ∧
    ∀ key, IsKey key → (contestedTrace none).1.item? key = none := by
  have traced (verbosity : Option Severity) :
      ∃ opened, Traced true (fun _ => (sceneUpTo verbosity).diagnostics.keeps .trace) IsKey
        statedRequest.statement (Deed.notices (log contestedSteps)) opened
        (contestedTrace verbosity).1 (contestedTrace verbosity).2 := by
    refine (traced_inTurn (fun _ _ => rfl) ?_ _).1
    refine List.forall_mem_cons.mpr ⟨?_, List.forall_mem_singleton.mpr ?_⟩
    · exact Provided.history.sparesSpans (fun _ => Provided.noConfusion) 0
    · exact Provided.metrics.sparesSpans (fun _ => Provided.noConfusion) 0
  obtain ⟨opened, kept⟩ := traced (some .trace)
  obtain ⟨_, dropped⟩ := traced none
  refine ⟨⟨opened, (Run.spanLaw contestedRun (fun _ own => own) kept).1 fun _ => rfl⟩, ?_, ?_, ?_,
    ((Run.spanLaw contestedRun (fun _ own => own) dropped).2 rfl).2⟩
  · decide +kernel
  · decide +kernel
  · decide +kernel

end Spans

end Request

end RequestEngine
