/-
  RequestEngine.Proofs.Simulation.Course

  How far a request has come with its announcements.  Its start and its outcome
  are announced to the observers of the session one after the other, and each of
  them may be suspended; meanwhile anything may happen to other requests and, but
  for the announcement, to this one.

    * `Course`         — a request in flight among all that else goes on;
    * `Fits`, `Knows`  — what its parties may wait for, and what was announced,
      while it has told a number of observers;
    * `Course.abreast` — every course keeps both.
-/
import RequestEngine.Proofs.Request.Announcement
import RequestEngine.Proofs.Simulation.Activation

namespace RequestEngine

/-- Deeds that announce nothing tell nobody of the request as a whole. -/
theorem Aside.calls_eq_nil {deeds : List Deed} (h : Aside deeds) (observers : List Observer) :
    overall (deeds.flatMap (Deed.calls observers)) = [] := by
  induction deeds with
  | nil => rfl
  | cons d deeds ih =>
    obtain ⟨hfirst, hrest⟩ := List.forall_mem_cons.mp h
    rw [List.flatMap_cons, overall_append, ih hrest, List.append_nil, Deed.calls]
    cases hnotice : d.action with
    | notify n =>
      rw [Action.notice?_notify, Option.toList_some, List.flatMap_singleton]
      exact overall_callsFrom_of_not (hfirst n hnotice).1
    | _ => rfl

/-- An announcement calls the observers from the first one on. -/
theorem Deed.calls_notify (observers : List Observer) (p : Option Nat) (n : Notification) :
    Deed.calls observers ⟨p, .notify n⟩ =
      callsFrom 0 (Delivery.called n observers).length n := by
  rw [Deed.calls, Action.notice?_notify, Option.toList_some, List.flatMap_singleton,
    Delivery.calls, Nat.sub_self]

namespace Simulation

-- ============================================================================
-- Courses
-- ============================================================================

/-- An activation of a request in flight, with the calls of observers that it makes. -/
structure Occurrence where
  source : Flight
  activation : Activation
  calls : List Call

/-- The course of a request in flight on a session with given observers: what else happens may
    change anything but the observers and the flight itself. -/
inductive Course (observers : List Observer) : List Occurrence → World → Flight → Prop where
  | launch {w : World} (statement : Statement) (patience : Duration)
      (registered : w.observers = observers) :
      Course observers [] (w.launch statement patience).1 (w.launch statement patience).2
  | elsewhere {os : List Occurrence} {w w' : World} {f : Flight}
      (course : Course observers os w f) (same : w'.observers = w.observers) :
      Course observers os w' f
  | activated {os : List Occurrence} {w : World} {f : Flight} {t : Instant} {a : Activation}
      {calls : List Call} (course : Course observers os w f) (possible : (t, a) ∈ f.agenda w.now)
      (due : t ≤ w.now) (activates : Activates w f a (w.activate f a) calls) :
      Course observers (os ++ [⟨f, a, calls⟩]) (w.activate f a).1 (w.activate f a).2

/-- All calls of observers, those that announce the start included. -/
def callsOf (observers : List Observer) (os : List Occurrence) : List Call :=
  Request.start.2.flatMap (Deed.calls observers) ++ os.flatMap Occurrence.calls

/-- What a request was doing when its caller left, if that is the last thing that happened. -/
def leftIn? (os : List Occurrence) : Option Request.State :=
  os.getLast?.bind fun o =>
    match o.activation with
    | .event .drop => some o.source.state
    | _ => none

section Possible

variable {f : Flight} {now t : Instant} {a : Activation}

/-- A request that has ended is not activated, and no timer stands for its observers. -/
theorem agenda_spec (h : (t, a) ∈ f.agenda now) :
    f.ended = false ∧ ∀ event, a = .event event → event ≠ .told := by
  unfold Flight.agenda at h
  split at h
  · cases h
  rename_i running
  refine ⟨by simpa using running, ?_⟩
  rintro event rfl
  simp only [List.mem_append, List.mem_filterMap, List.mem_singleton, Prod.mk.injEq,
    Activation.event.injEq] at h
  rcases h with (⟨⟨p, wait⟩, -, hwait⟩ | htimer) | ⟨-, rfl⟩
  · simp at hwait
  · unfold Flight.timers at htimer
    split at htimer
    · simp only [List.mem_append, List.mem_filterMap, Option.mem_toList, Option.map_eq_some_iff,
        Prod.mk.injEq, Activation.event.injEq] at htimer
      rcases htimer with (⟨e, -, hexpiry⟩ | ⟨-, -, -, rfl⟩) | hdeadline
      · split at hexpiry
        · obtain ⟨-, -, -, rfl⟩ := Option.map_eq_some_iff.mp hexpiry
          simp
        · cases hexpiry
      · simp
      · split at hdeadline
        · cases hdeadline
        · obtain ⟨-, -, -, rfl⟩ := Option.map_eq_some_iff.mp hdeadline
          simp
    · cases htimer
  · simp

end Possible

-- ============================================================================
-- What was announced so far
-- ============================================================================

open Request in
/-- What a party may wait for while a request has told a number of observers what it is telling
    them: the request waits for the others, if for anybody, and its executions wait for observers
    that they have told of their attempts. -/
def Fits (observers : List Observer) (σ : State) (told : Nat) : Party × Wait → Prop
  | (none, .delivery d) => σ.telling? = some d.notification ∧ d.remaining = observers.drop told
  | (none, .ready event) => event = .told ∧ told = observers.length
  | (some _, .delivery d) => d.notification.isOverall = false
  | (some x, .ready event) => ∃ e, event = .execution x e
  | _ => True

open Request in
/-- The calls that have announced something about the request as a whole. -/
inductive Knows (observers : List Observer) (os : List Occurrence) :
    State → Nat → List Call → Prop where
  | starting {told : Nat} : Knows observers os .starting told (callsFrom 0 told .requestStarted)
  | running {r : Running} :
      Knows observers os (.running r) observers.length
        (callsFrom 0 observers.length .requestStarted)
  | concluding {o : Outcome} {told : Nat} :
      Knows observers os (.concluding o) told
        (callsFrom 0 observers.length .requestStarted ++ callsFrom 0 told (finalNotice o))
  | finished {o : Outcome} :
      Knows observers os (.finished o) observers.length
        (callsFrom 0 observers.length .requestStarted ++
          callsFrom 0 observers.length (finalNotice o))
  | forgone {told : Nat} (left : leftIn? os = some .starting) :
      Knows observers os .dropped told (callsFrom 0 told .requestStarted)
  | cancelled {r : Running} (left : leftIn? os = some (.running r)) :
      Knows observers os .dropped observers.length
        (callsFrom 0 observers.length .requestStarted ++
          callsFrom 0 observers.length .requestCancelled)
  | forsaken {o : Outcome} {told : Nat} (left : leftIn? os = some (.concluding o)) :
      Knows observers os .dropped told
        (callsFrom 0 observers.length .requestStarted ++ callsFrom 0 told (finalNotice o))

/-- How far a request has come with what it announces. -/
structure Abreast (observers : List Observer) (os : List Occurrence) (f : Flight) (told : Nat) :
    Prop where
  bound : told ≤ observers.length
  waits : f.ended = false → ∀ pw ∈ f.waits, Fits observers f.state told pw
  knows : Knows observers os f.state told (overall (callsOf observers os))

section Fits

variable {observers : List Observer} {σ σ' : Request.State} {told told' : Nat}
  {pw : Party × Wait} {deeds : List Deed}

/-- What executions wait for fits at any time. -/
theorem Fits.other (h : Fits observers σ told pw) (other : pw.1 ≠ none) :
    Fits observers σ' told' pw := by
  obtain ⟨p, wait⟩ := pw
  cases p with
  | none => exact absurd rfl other
  | some x => cases wait <;> exact h

/-- What parties wait for while a request announces nothing fits whenever all have been told. -/
theorem Fits.settled (h : Fits observers σ told pw) (silent : σ.telling? = none) :
    Fits observers σ' observers.length pw := by
  obtain ⟨p, wait⟩ := pw
  cases p with
  | none =>
    cases wait with
    | delivery => exact absurd (silent.symm.trans h.1) (by simp)
    | ready => exact ⟨h.1, rfl⟩
    | loan | exchange | never => trivial
  | some x => cases wait <;> exact h

/-- A request that has gone on to tell more observers waits for the rest of them. -/
theorem Leaves.fits {n : Notification} {wait : Wait}
    (h : Leaves (observers.drop told) n none wait) (telling : σ.telling? = some n)
    (bound : told ≤ observers.length) :
    Fits observers σ (told + (Delivery.called n (observers.drop told)).length) (none, wait) := by
  cases h with
  | suspended notification remaining =>
    -- what is left of the rest is what is left of all observers
    have hleft := congrArg (List.drop (Delivery.called n (observers.drop told)).length) remaining
    rw [List.drop_left, List.drop_drop] at hleft
    exact ⟨notification ▸ telling, hleft⟩
  | done everybody =>
    refine ⟨rfl, ?_⟩
    rw [everybody, List.length_drop]
    omega

/-- A request that has begun to tell the observers something waits for the rest of them. -/
theorem Leaves.fits_first {n : Notification} {wait : Wait} (h : Leaves observers n none wait)
    (telling : σ.telling? = some n) :
    Fits observers σ (Delivery.called n observers).length (none, wait) := by
  have hfits := Leaves.fits (observers.drop_zero.symm ▸ h) telling (Nat.zero_le _)
  rwa [List.drop_zero, Nat.zero_add] at hfits

/-- What executions tell of their attempts fits at any time. -/
theorem Leaves.fits_attempt {rest : List Observer} {n : Notification} {x : Nat} {wait : Wait}
    (h : Leaves rest n (some x) wait) (other : n.isOverall = false) :
    Fits observers σ told (some x, wait) := by
  cases h with
  | suspended notification =>
    rw [← notification] at other
    exact other
  | done => exact ⟨.told, rfl⟩

theorem Arises.fits (aside : Aside deeds) {d : Deed} (hd : d ∈ deeds)
    (h : Arises observers d pw) : Fits observers σ told pw := by
  cases h with
  | opens => exact ⟨.begin, rfl⟩
  | asks | sends => cases d.execution <;> trivial
  | tells notice suspends leaves =>
    obtain ⟨hother, howned⟩ := aside d hd _ notice
    obtain ⟨x, hx⟩ := Option.ne_none_iff_exists'.mp (howned suspends)
    rw [hx] at leaves ⊢
    exact leaves.fits_attempt hother

end Fits

-- ============================================================================
-- Every activation keeps up
-- ============================================================================

section Steps

variable {observers : List Observer} {os : List Occurrence} {w : World} {f f' : Flight}
  {a : Activation} {told : Nat} {t : Instant} {calls : List Call}

@[simp] theorem callsOf_concat (o : Occurrence) :
    callsOf observers (os ++ [o]) = callsOf observers os ++ o.calls := by
  simp [callsOf]

theorem leftIn?_drop (f : Flight) (calls : List Call) :
    leftIn? (os ++ [⟨f, .event .drop, calls⟩]) = some f.state := by
  simp [leftIn?]

theorem goes_on_of_running (running : f.ended = false) :
    f.state ≠ .dropped ∧ ∀ o, f.state ≠ .finished o := by
  constructor
  · intro dropped
    simp [Flight.ended, dropped] at running
  · intro o finished
    simp [Flight.ended, finished] at running

/-- As long as its caller stays, what a request has announced does not depend on how. -/
theorem Knows.go_on {os' : List Occurrence} {σ : Request.State} {known : List Call}
    (h : Knows observers os σ told known) (stays : σ ≠ .dropped) :
    Knows observers os' σ told known := by
  cases h with
  | starting => exact .starting
  | running => exact .running
  | concluding => exact .concluding
  | finished => exact .finished
  | forgone | cancelled | forsaken => exact absurd rfl stays

/-- A request that goes on with what it is telling has told as many observers as were called. -/
theorem Knows.tell {os' : List Occurrence} {σ : Request.State} {known : List Call}
    {n : Notification} {more : Nat} (h : Knows observers os σ told known)
    (telling : σ.telling? = some n) :
    Knows observers os' σ (told + more) (known ++ callsFrom told more n) := by
  have hmore : callsFrom 0 told n ++ callsFrom told more n = callsFrom 0 (told + more) n := by
    rw [← callsFrom_append, Nat.zero_add]
  cases h with
  | starting =>
    cases telling
    rw [hmore]
    exact .starting
  | concluding =>
    cases telling
    rw [List.append_assoc, hmore]
    exact .concluding
  | running | finished | forgone | cancelled | forsaken => cases telling

/-- Nobody is told anything, and no party waits for anybody new. -/
theorem Abreast.idle (h : Abreast observers os f told) (running : f.ended = false)
    (state : f'.state = f.state) (waits : ∀ pw ∈ f'.waits, pw ∈ f.waits ∨ pw.2 = .never) :
    Abreast observers (os ++ [⟨f, a, []⟩]) f' told := by
  obtain ⟨bound, hwaits, knows⟩ := h
  refine ⟨bound, fun _ pw hpw => ?_, ?_⟩
  · rw [state]
    rcases waits pw hpw with hmem | hnever
    · exact hwaits running pw hmem
    · obtain ⟨p, wait⟩ := pw
      cases hnever
      cases p <;> trivial
  · rw [callsOf_concat, List.append_nil, state]
    exact knows.go_on (goes_on_of_running running).1

/-- The callback of an observer ends, and a delivery goes on. -/
theorem Abreast.resume (h : Abreast observers os f told) (running : f.ended = false) {p : Party}
    {d : Delivery} (wait : (p, .delivery d) ∈ f.waits) {x : World × Flight}
    (resumed : w.afterWalk f p
      (World.walkWithin (f.span p) w.scene fun s => d.resume f.tracking s) = x) :
    ∃ told', Abreast observers
      (os ++ [⟨f, a, Delivery.calls observers d.remaining d.notification⟩]) x.2 told' := by
  obtain ⟨bound, hwaits, knows⟩ := h
  obtain ⟨-, hstate, w', hw', hleaves⟩ := World.afterWalk_resume resumed
  have hfits := hwaits running _ wait
  cases p with
  | some x =>
    -- an execution tells of an attempt, which announces nothing
    refine ⟨told, bound, fun _ pw hpw => ?_, ?_⟩
    · rw [hw'] at hpw
      rcases Flight.mem_waitFor hpw with ⟨-, hmem⟩ | rfl
      · exact hstate ▸ hwaits running pw hmem
      · exact hleaves.fits_attempt hfits
    · rw [callsOf_concat, overall_append, Delivery.calls, overall_callsFrom_of_not hfits,
        List.append_nil, hstate]
      exact knows.go_on (goes_on_of_running running).1
  | none =>
    -- the request goes on with its announcement where that was suspended
    obtain ⟨htelling, hremaining⟩ := hfits
    rw [hremaining] at hleaves
    refine ⟨told + (Delivery.called d.notification d.remaining).length, ?_, fun _ pw hpw => ?_, ?_⟩
    · have hcalled := Delivery.length_called_le d.notification d.remaining
      rw [hremaining, List.length_drop] at hcalled
      rw [hremaining]
      omega
    · rw [hw'] at hpw
      rw [hstate, hremaining]
      rcases Flight.mem_waitFor hpw with ⟨hother, hmem⟩ | rfl
      · exact (hwaits running pw hmem).other hother
      · exact hleaves.fits htelling bound
    · have hfirst : observers.length - d.remaining.length = told := by
        rw [hremaining, List.length_drop]
        omega
      have hcalls : overall (Delivery.calls observers d.remaining d.notification) =
          callsFrom told (Delivery.called d.notification d.remaining).length d.notification := by
        rw [Delivery.calls, hfirst, overall_callsFrom (Request.isOverall_of_telling htelling)]
      rw [callsOf_concat, overall_append, hcalls, hstate]
      exact knows.tell htelling

/-- Only observers that have all been told what the request tells them let it go on. -/
theorem Triggers.complete (trigger : Triggers f a .told) (untimed : a ≠ .event .told)
    (waits : ∀ pw ∈ f.waits, Fits observers f.state told pw) :
    a = .waitEnds none ∧ told = observers.length := by
  cases trigger with
  | own => exact absurd rfl untimed
  | @ready p _ wait =>
    have hfits := waits _ wait
    cases p with
    | none => exact ⟨rfl, hfits.2⟩
    | some x =>
      obtain ⟨e, he⟩ := hfits
      cases he

/-- Only its caller drops a request. -/
theorem Triggers.by_caller (trigger : Triggers f a .drop)
    (waits : ∀ pw ∈ f.waits, Fits observers f.state told pw) : a = .event .drop := by
  cases trigger with
  | own => rfl
  | @ready p _ wait =>
    have hfits := waits _ wait
    cases p with
    | none => cases hfits.1
    | some x =>
      obtain ⟨e, he⟩ := hfits
      cases he

/-- A step adds to what is known what it announces, and begins with as many observers as can be
    told at once. -/
theorem Knows.announce {os' : List Occurrence} {σ σ' : Request.State} {known : List Call}
    {event : Request.Event} {deeds : List Deed} (h : Knows observers os σ told known)
    (bound : told ≤ observers.length) (announces : Request.Announces σ event σ' deeds)
    (complete : event = .told → told = observers.length)
    (left : event = .drop → leftIn? os' = some σ) :
    ∃ told' ≤ observers.length,
      (∀ n, σ'.telling? = some n → told' = (Delivery.called n observers).length) ∧
        Knows observers os' σ' told' (known ++ overall (deeds.flatMap (Deed.calls observers))) := by
  -- with the announcement complete, `told` is the number of all observers: only then does `h` have
  -- the same calls as what the next state knows
  cases announces with
  | begins aside =>
    obtain rfl := complete rfl
    refine ⟨observers.length, Nat.le_refl _, by rintro _ ⟨⟩, ?_⟩
    rw [aside.calls_eq_nil, List.append_nil]
    cases h
    exact .running
  | runs aside =>
    refine ⟨observers.length, Nat.le_refl _, by rintro _ ⟨⟩, ?_⟩
    rw [aside.calls_eq_nil, List.append_nil]
    cases h
    exact .running
  | @ends _ _ o lead source aside =>
    refine ⟨_, Delivery.length_called_le (Request.finalNotice o) observers, ?_, ?_⟩
    · rintro _ ⟨⟩
      rfl
    · rw [List.flatMap_append, overall_append, aside.calls_eq_nil, List.nil_append,
        List.flatMap_singleton, Deed.calls_notify,
        overall_callsFrom (Request.isOverall_finalNotice o)]
      rcases source with ⟨rfl, rfl⟩ | ⟨r, rfl⟩
      · obtain rfl := complete rfl
        cases h
        exact .concluding
      · cases h
        exact .concluding
  | cancels aside =>
    refine ⟨observers.length, Nat.le_refl _, by rintro _ ⟨⟩, ?_⟩
    rw [List.flatMap_append, overall_append, aside.calls_eq_nil, List.nil_append,
      List.flatMap_singleton, Deed.calls_notify, Delivery.called_of_prompt rfl,
      overall_callsFrom rfl]
    cases h
    exact .cancelled (left rfl)
  | forgoes =>
    refine ⟨told, bound, by rintro _ ⟨⟩, ?_⟩
    rw [List.flatMap_nil, overall_nil, List.append_nil]
    cases h
    exact .forgone (left rfl)
  | finishes =>
    obtain rfl := complete rfl
    refine ⟨observers.length, Nat.le_refl _, by rintro _ ⟨⟩, ?_⟩
    rw [List.flatMap_nil, overall_nil, List.append_nil]
    cases h
    exact .finished
  | forsakes =>
    refine ⟨told, bound, by rintro _ ⟨⟩, ?_⟩
    rw [List.flatMap_nil, overall_nil, List.append_nil]
    cases h
    exact .forsaken (left rfl)

/-- What parties wait for after deeds that announce nothing they waited for before, or it fits at
    any time. -/
theorem fits_aside {deeds : List Deed} (aside : Aside deeds) :
    ∀ pw ∈ (w.performAll f deeds).2.waits,
      pw ∈ f.waits ∨ ∀ σ told, Fits w.observers σ told pw := by
  intro pw hpw
  obtain ⟨-, -, harise⟩ := World.performAll_spec (w := w) (f := f) deeds rfl
  rcases harise pw hpw with hmem | ⟨d, hd, harises⟩
  · exact .inl hmem
  · exact .inr fun _ _ => harises.fits aside hd

/-- A request that begins to announce something after such deeds waits for the observers that it
    could not tell at once. -/
theorem fits_notice {lead : List Deed} {n : Notification} {σ σ' : Request.State}
    (aside : Aside lead) (suspends : n.callback.suspends = true) (telling : σ'.telling? = some n)
    (waits : ∀ pw ∈ f.waits, Fits w.observers σ told pw) :
    ∀ pw ∈ (w.performAll f (lead ++ [⟨none, .notify n⟩])).2.waits,
      Fits w.observers σ' (Delivery.called n w.observers).length pw := by
  intro pw hpw
  obtain ⟨hobservers, -, -⟩ := World.performAll_spec (w := w) (f := f) lead rfl
  obtain ⟨wait, hwait, hleaves⟩ := World.perform_tell (w := (w.performAll f lead).1)
    (f := (w.performAll f lead).2) (p := none) rfl suspends
  rw [World.performAll_concat, hwait] at hpw
  rw [hobservers] at hleaves
  rcases Flight.mem_waitFor hpw with ⟨hother, hmem⟩ | rfl
  · rcases fits_aside aside pw hmem with hmem | hfits
    · exact (waits pw hmem).other hother
    · exact hfits _ _
  · exact hleaves.fits_first telling

/-- What parties wait for after a step fits what the step announces. -/
theorem fits_announce {σ : Request.State} {event : Request.Event} {deeds : List Deed}
    {told' : Nat} {known : List Call} (announces : Request.Announces f.state event σ deeds)
    (waits : ∀ pw ∈ f.waits, Fits w.observers f.state told pw)
    (others : event = .told → ∀ pw ∈ f.waits, pw.1 ≠ none)
    (goes : σ ≠ .dropped ∧ ∀ o, σ ≠ .finished o)
    (begun : ∀ n, σ.telling? = some n → told' = (Delivery.called n w.observers).length)
    (knows : Knows w.observers os σ told' known) :
    ∀ pw ∈ (w.performAll { f with state := σ } deeds).2.waits,
      Fits w.observers σ told' pw := by
  intro pw hpw
  generalize hsource : f.state = source at announces waits
  cases announces with
  | begins aside =>
    rcases fits_aside aside pw hpw with hmem | hfits
    · exact (waits pw hmem).other (others rfl pw hmem)
    · exact hfits _ _
  | runs aside =>
    -- the request is announcing nothing before and after, so all have been told
    cases knows
    rcases fits_aside aside pw hpw with hmem | hfits
    · exact (waits pw hmem).settled rfl
    · exact hfits _ _
  | @ends _ _ o _ _ aside =>
    rw [begun _ rfl]
    exact fits_notice (f := { f with state := .concluding o }) aside
      (Request.suspends_finalNotice o) rfl waits pw hpw
  | cancels | forgoes | forsakes => exact absurd rfl goes.1
  | finishes => exact absurd rfl (goes.2 _)

/-- An event happens to the request. -/
theorem Abreast.happen (h : Abreast observers os f told) (running : f.ended = false)
    (untimed : a ≠ .event .told) {w : World} {f₁ : Flight} {event : Request.Event}
    {σ : Request.State} {deeds : List Deed} (trigger : Triggers f a event)
    (registered : w.observers = observers) (state : f₁.state = f.state)
    (waits : ∀ pw ∈ f₁.waits, pw ∈ f.waits ∧ a ≠ .waitEnds pw.1)
    (step : Request.step f₁.settings w.moment f₁.state event = some (σ, deeds)) :
    ∃ told', Abreast observers (os ++ [⟨f, a, deeds.flatMap (Deed.calls observers)⟩])
      (w.apply f₁ event).2 told' := by
  subst registered
  obtain ⟨bound, hfits, knows⟩ := h
  have hwaits := hfits running
  have hfits₁ : ∀ pw ∈ f₁.waits, Fits w.observers f₁.state told pw :=
    fun pw hpw => state ▸ hwaits pw (waits pw hpw).1
  -- `told` comes when nobody is left to be told, and `drop` comes from the caller
  have complete : event = .told → a = .waitEnds none ∧ told = w.observers.length := by
    rintro rfl
    exact trigger.complete untimed hwaits
  have left : event = .drop →
      leftIn? (os ++ [⟨f, a, deeds.flatMap (Deed.calls w.observers)⟩]) = some f₁.state := by
    rintro rfl
    obtain rfl := trigger.by_caller hwaits
    rw [leftIn?_drop, state]
  have announces := (Request.step_move step).announces
  rw [← state] at knows
  obtain ⟨told', bound', begun, knows'⟩ :=
    knows.announce bound announces (fun htold => (complete htold).2) left
  obtain ⟨-, hstate, hleft⟩ := World.apply_spec rfl step
  refine ⟨told', bound', fun running' pw hpw => ?_, ?_⟩
  · have goes := goes_on_of_running running'
    rw [hstate] at goes ⊢
    refine fits_announce announces hfits₁ (fun htold pw hpw hnone => ?_) goes begun knows' pw
      (hleft pw hpw)
    exact (waits pw hpw).2 (hnone ▸ (complete htold).1)
  · rw [callsOf_concat, overall_append, hstate]
    exact knows'

/-- The first thing that a request does is to announce its start. -/
theorem launch_eq (w : World) (statement : Statement) (patience : Duration) :
    ∃ (w₁ : World) (f : Flight),
      w.launch statement patience = w₁.perform f ⟨none, .notify .requestStarted⟩ ∧
        w₁.observers = w.observers ∧ f.state = .starting ∧ f.waits = [] :=
  ⟨_, _, rfl, rfl, rfl, rfl⟩

theorem Abreast.launch (w : World) (statement : Statement) (patience : Duration) :
    (w.launch statement patience).1.observers = w.observers ∧
      ∃ told, Abreast w.observers [] (w.launch statement patience).2 told := by
  obtain ⟨w₁, f, hlaunch, hsame, hstarting, hwaits⟩ := launch_eq w statement patience
  rw [hlaunch, ← hsame]
  obtain ⟨hobservers, hstate, -⟩ :=
    World.perform_spec (w := w₁) (f := f) (d := ⟨none, .notify .requestStarted⟩) rfl
  refine ⟨hobservers, (Delivery.called .requestStarted w₁.observers).length,
    Delivery.length_called_le .., fun _ => ?_, ?_⟩
  · rw [hstate, hstarting]
    have nobody : ∀ pw ∈ f.waits, Fits w₁.observers .starting 0 pw := by simp [hwaits]
    have nothing : Aside [] := by simp [Aside]
    exact fits_notice (w := w₁) (n := .requestStarted) nothing rfl rfl nobody
  · have hcalls : callsOf w₁.observers [] =
        callsFrom 0 (Delivery.called .requestStarted w₁.observers).length .requestStarted := by
      rw [callsOf, Request.start, Deed.ofRequest, List.map_singleton, List.flatMap_singleton,
        Deed.calls_notify]
      exact List.append_nil _
    rw [hstate, hstarting, hcalls, overall_callsFrom rfl]
    exact .starting

end Steps

-- ============================================================================
-- A whole course
-- ============================================================================

section Courses

variable {observers : List Observer} {os : List Occurrence} {w : World} {f : Flight}

/-- A request keeps its announcements in order whatever else goes on. -/
theorem Course.abreast (h : Course observers os w f) :
    w.observers = observers ∧ ∃ told, Abreast observers os f told := by
  induction h with
  | @launch w statement patience registered =>
    subst registered
    exact Abreast.launch w statement patience
  | elsewhere _ same ih => exact ⟨same.trans ih.1, ih.2⟩
  | @activated os w f t a calls _ possible _ activates ih =>
    obtain ⟨registered, told, habreast⟩ := ih
    obtain ⟨running, untimed⟩ := agenda_spec possible
    generalize w.activate f a = x at activates ⊢
    cases activates with
    | idle same state waits =>
      exact ⟨same.trans registered, told, habreast.idle running state waits⟩
    | @happens w₁ f₁ _ _ _ trigger same state waits step =>
      obtain ⟨hobservers, -⟩ := World.apply_spec rfl step
      refine ⟨hobservers.trans (same.trans registered), ?_⟩
      rw [registered]
      exact habreast.happen running (fun h => untimed _ h rfl) trigger (same.trans registered)
        state waits step
    | resumes _ wait =>
      obtain ⟨hobservers, -⟩ := World.afterWalk_resume (w := w) (f := f) rfl
      refine ⟨hobservers.trans registered, ?_⟩
      rw [registered]
      exact habreast.resume running wait rfl

/-- Nothing follows after the caller has left. -/
theorem drop_dropped (running : f.ended = false) :
    (w.activate f (.event .drop)).2.state = .dropped := by
  have hstep : ∃ deeds,
      Request.step f.settings w.moment f.state .drop = some (.dropped, deeds) := by
    cases hstate : f.state with
    | starting | running | concluding => exact ⟨_, rfl⟩
    | finished | dropped => simp [Flight.ended, hstate] at running
  obtain ⟨deeds, hstep⟩ := hstep
  exact (World.apply_spec rfl hstep).2.1

theorem Course.dropped (h : Course observers os w f) (left : leftIn? os ≠ none) :
    f.state = .dropped := by
  induction h with
  | launch => exact absurd rfl left
  | elsewhere _ _ ih => exact ih left
  | @activated os w f t a calls _ possible _ _ ih =>
    -- what was left before has no bearing: nothing is possible after the caller has left
    have hdrop : a = .event .drop := by
      by_contra other
      refine left ?_
      simp only [leftIn?, List.getLast?_append, List.getLast?_singleton]
      cases a with
      | waitEnds => rfl
      | event event => cases event <;> first | rfl | exact absurd rfl other
    subst hdrop
    exact drop_dropped (agenda_spec possible).1

end Courses

end Simulation

end RequestEngine
