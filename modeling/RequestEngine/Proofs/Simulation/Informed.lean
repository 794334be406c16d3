/-
  RequestEngine.Proofs.Simulation.Informed

  What the observers of a session hear of a request.  Each of them hears of its
  start and of one end, unless the caller leaves while the start or the outcome
  is being announced: nobody notices that, so those who know of the start are not
  told that there will be no outcome, and those who were to be told the outcome
  are not.

    * `World.executeAll_course` — every request that a session executes takes a
      course;
    * `Informed`                — what each observer hears of it.
-/
import RequestEngine.Proofs.Request.Punctual
import RequestEngine.Proofs.Simulation.Course

namespace RequestEngine

namespace Simulation

variable {observers : List Observer} {os : List Occurrence} {w : World} {f : Flight}

-- ============================================================================
-- Requests of a session
-- ============================================================================

/-- The earliest of several entries is one of them, at its time or, if it is overdue, now. -/
theorem mem_of_earliest {α : Type} {now t : Instant} {entries : List (Instant × α)} {a : α}
    (h : earliest now entries = some (t, a)) :
    ∃ u, (u, a) ∈ entries ∧ t = Instant.later now u := by
  -- whatever the fold has found so far is an entry
  have found : ∀ x, earliest now entries = some x →
      ∃ u, (u, x.2) ∈ entries ∧ x.1 = Instant.later now u := by
    refine List.foldlRecOn (motive := fun (best : Option (Instant × α)) => ∀ x, best = some x →
      ∃ u, (u, x.2) ∈ entries ∧ x.1 = Instant.later now u) entries _ (by simp) ?_
    rintro best before ⟨t, a⟩ hmem x hx
    cases best with
    | none =>
      obtain rfl := Option.some.inj hx
      exact ⟨t, hmem, rfl⟩
    | some b =>
      dsimp only at hx
      split at hx
      · obtain rfl := Option.some.inj hx
        exact ⟨t, hmem, rfl⟩
      · exact before x hx
  exact found (t, a) h

/-- What can happen to a request by some time still can then. -/
theorem agenda_later {now later u : Instant} {a : Activation} (h : (u, a) ∈ f.agenda now)
    (bound : u ≤ later) : ∃ u' ≤ later, (u', a) ∈ f.agenda later := by
  obtain ⟨running, -⟩ := agenda_spec h
  rw [Flight.agenda, if_neg (by simp [running])] at h ⊢
  simp only [List.mem_append, List.mem_filterMap] at h ⊢
  rcases h with (⟨⟨p, wait⟩, hmem, hwake⟩ | htimer) | hdrop
  · cases wait with
    | ready event =>
      cases hwake
      exact ⟨later, Nat.le_refl _, .inl (.inl ⟨_, hmem, rfl⟩)⟩
    | delivery | loan | exchange =>
      cases hwake
      exact ⟨_, bound, .inl (.inl ⟨_, hmem, rfl⟩)⟩
    | never => cases hwake
  · exact ⟨u, bound, .inl (.inr htimer)⟩
  · exact ⟨u, bound, .inr hdrop⟩

/-- All requests in flight take courses. -/
def InCourse (observers : List Observer) (w : World) (flights : List Flight) : Prop :=
  w.observers = observers ∧ ∀ f ∈ flights, ∃ os, Course observers os w f

section Sessions

variable {flights : List Flight} {limit : Option Instant}

/-- What is possible next is possible for one of the requests, once the time has come. -/
theorem next_spec {t : Instant} {i : Nat} {a : Activation}
    (h : w.next flights = some (t, i, a)) (found : flights[i]? = some f) :
    ∃ u ≤ (w.advanceTo t).now, (u, a) ∈ f.agenda (w.advanceTo t).now := by
  obtain ⟨u, hmem, rfl⟩ := mem_of_earliest h
  obtain ⟨⟨f', i'⟩, hzip, hagenda⟩ := List.mem_flatMap.mp hmem
  obtain ⟨⟨u', a'⟩, hagenda, hsame⟩ := List.mem_map.mp hagenda
  cases hsame
  have hf' : f' = f := by
    have := List.mk_mem_zipIdx_iff_getElem?.mp hzip
    exact Option.some.inj (this.symm.trans found)
  subst hf'
  exact agenda_later hagenda
    (Instant.le_trans (Instant.le_later_right ..) (Instant.le_later_right ..))

/-- A request that is launched takes a course among the others. -/
theorem InCourse.launched (h : InCourse observers w flights) (statement : Statement)
    (patience : Duration) :
    InCourse observers (w.launch statement patience).1
      (flights ++ [(w.launch statement patience).2]) := by
  obtain ⟨registered, others⟩ := h
  have hcourse := Course.launch (w := w) statement patience registered
  refine ⟨hcourse.abreast.1, List.forall_mem_append.mpr ⟨fun g hg => ?_, ?_⟩⟩
  · obtain ⟨os, course⟩ := others g hg
    exact ⟨os, course.elsewhere (hcourse.abreast.1.trans registered.symm)⟩
  · exact List.forall_mem_singleton.mpr ⟨_, hcourse⟩

/-- A request that is activated goes on in its course among the others. -/
theorem InCourse.activated {t u : Instant} {i : Nat} {a : Activation}
    (h : InCourse observers w flights) (found : flights[i]? = some f)
    (possible : (u, a) ∈ f.agenda (w.advanceTo t).now) (due : u ≤ (w.advanceTo t).now) :
    InCourse observers ((w.advanceTo t).activate f a).1
      (flights.set i ((w.advanceTo t).activate f a).2) := by
  obtain ⟨registered, others⟩ := h
  obtain ⟨os, course⟩ := others f (List.mem_of_getElem? found)
  obtain ⟨calls, activates⟩ := activate_activates (w.advanceTo t) f a
  have hnow : Course observers os (w.advanceTo t) f := course.elsewhere rfl
  have hcourse := hnow.activated possible due activates
  refine ⟨hcourse.abreast.1, fun g hg => ?_⟩
  rcases List.mem_or_eq_of_mem_set hg with hg | rfl
  · obtain ⟨os, course⟩ := others g hg
    exact ⟨os, course.elsewhere (hcourse.abreast.1.trans registered.symm)⟩
  · exact ⟨_, hcourse⟩

theorem InCourse.run (h : InCourse observers w flights) (fuel : Nat) :
    InCourse observers (w.run limit fuel flights).1 (w.run limit fuel flights).2 := by
  induction fuel generalizing w flights with
  | zero => exact h
  | succ fuel ih =>
    unfold World.run
    split
    · exact h
    rename_i t i a hnext
    split
    · exact h
    split
    · exact h
    rename_i f hfound
    obtain ⟨u, hdue, hpossible⟩ := next_spec hnext hfound
    exact ih (h.activated (i := i) hfound hpossible hdue)

/-- Every request that a session executes takes a course. -/
theorem World.executeAll_course (w : World) (requests : List (Statement × Duration)) :
    InCourse w.observers (w.executeAll requests).1 (w.executeAll requests).2 := by
  refine InCourse.run (?_ : InCourse w.observers _ _) _
  refine List.foldlRecOn (motive := fun (b : World × List Flight) =>
    InCourse w.observers b.1 b.2) requests _ ⟨rfl, by simp⟩ ?_
  rintro ⟨w', flights⟩ h ⟨statement, patience⟩ -
  exact (h.launched statement patience).run _

end Sessions

-- ============================================================================
-- What observers hear
-- ============================================================================

/-- What each observer hears of a request as a whole. -/
structure Informed (observers : List Observer) (os : List Occurrence) (f : Flight) : Prop where
  /-- It hears of the start first, and then of one end at most. -/
  inOrder : ∀ i, ∃ n, n.isFinal = true ∧ heard i (callsOf observers os) <+: [.requestStarted, n]
  /-- Unless the caller left while something was being announced, all hear of both. -/
  exactlyOnce : f.ended = true → (∀ σ, leftIn? os = some σ → σ.telling? = none) →
    ∀ i < observers.length,
      ∃ n, n.isFinal = true ∧ heard i (callsOf observers os) = [.requestStarted, n]
  /-- All hear of the outcome that the caller gets. -/
  finished : ∀ o, f.state = .finished o → ∀ i < observers.length,
    heard i (callsOf observers os) = [.requestStarted, Request.finalNotice o]
  /-- All hear that the caller left while the request was running. -/
  cancelled : ∀ r, leftIn? os = some (.running r) → ∀ i < observers.length,
    heard i (callsOf observers os) = [.requestStarted, .requestCancelled]
  /-- Nobody hears that the caller left while the start was being announced. -/
  forgone : leftIn? os = some .starting → ∃ told, ∀ i,
    heard i (callsOf observers os) = if i < told then [.requestStarted] else []
  /-- Nobody hears that the caller left while the outcome was being announced: some observers
      know the outcome and the others only the start. -/
  forsaken : ∀ o, leftIn? os = some (.concluding o) → ∃ told, ∀ i < observers.length,
    heard i (callsOf observers os) =
      if i < told then [.requestStarted, Request.finalNotice o] else [.requestStarted]

/-- Each observer hears of the start before it hears of an end. -/
theorem Knows.inOrder {σ : Request.State} {told : Nat} {calls : List Call}
    (h : Knows observers os σ told (overall calls)) (bound : told ≤ observers.length) (i : Nat) :
    ∃ n, n.isFinal = true ∧ heard i calls <+: [.requestStarted, n] := by
  have one {k : Nat} (h : overall calls = callsFrom 0 k .requestStarted) :
      ∃ n, n.isFinal = true ∧ heard i calls <+: [.requestStarted, n] := by
    refine ⟨.requestCancelled, rfl, ?_⟩
    rw [heard_of_one h]
    split <;> simp
  have two {k : Nat} {n : Notification} (final : n.isFinal = true) (within : k ≤ observers.length)
      (h : overall calls = callsFrom 0 observers.length .requestStarted ++ callsFrom 0 k n) :
      ∃ n, n.isFinal = true ∧ heard i calls <+: [.requestStarted, n] := by
    refine ⟨n, final, ?_⟩
    rw [heard_of_two h]
    by_cases hi : i < k
    · simp [hi, Nat.lt_of_lt_of_le hi within]
    · rw [if_neg hi, List.append_nil]
      split <;> simp
  generalize hknown : overall calls = known at h
  cases h with
  | starting | running | forgone => exact one hknown
  | concluding | forsaken => exact two (Request.isFinal_finalNotice _) bound hknown
  | finished => exact two (Request.isFinal_finalNotice _) (Nat.le_refl _) hknown
  | cancelled => exact two rfl (Nat.le_refl _) hknown

/-- What each observer hears of a request. -/
theorem Course.informed (h : Course observers os w f) : Informed observers os f := by
  obtain ⟨-, told, bound, -, knows⟩ := h.abreast
  have hinOrder := knows.inOrder bound
  have hdropped := h.dropped
  have both {n : Notification}
      (h : overall (callsOf observers os) = callsFrom 0 observers.length .requestStarted ++
        callsFrom 0 observers.length n) (i : Nat) (hi : i < observers.length) :
      heard i (callsOf observers os) = [.requestStarted, n] := by
    rw [heard_of_two h, if_pos hi, if_pos hi]
    rfl
  -- a request that was left is dropped, and then `knows` says in which state it was left
  generalize hknown : overall (callsOf observers os) = known at knows
  generalize hstate : f.state = σ at knows hdropped
  refine ⟨hinOrder, fun ended midway i hi => ?_, ?_, ?_, ?_, ?_⟩
  · cases knows with
    | starting | running | concluding => simp [Flight.ended, hstate] at ended
    | finished => exact ⟨_, by simp, both hknown i hi⟩
    | cancelled => exact ⟨_, rfl, both hknown i hi⟩
    | forgone left | forsaken left => cases midway _ left
  · rintro o hfinished
    cases hstate.symm.trans hfinished
    cases knows
    exact both hknown
  · intro r hleft
    cases hdropped (by simp [hleft])
    cases knows with
    | cancelled => exact both hknown
    | forgone left | forsaken left => cases left.symm.trans hleft
  · intro hleft
    cases hdropped (by simp [hleft])
    cases knows with
    | forgone => exact ⟨told, heard_of_one hknown⟩
    | cancelled left | forsaken left => cases left.symm.trans hleft
  · intro o hleft
    cases hdropped (by simp [hleft])
    cases knows with
    | @forsaken o' _ left =>
      cases left.symm.trans hleft
      refine ⟨told, fun i hi => ?_⟩
      rw [heard_of_two hknown, if_pos hi]
      split <;> rfl
    | forgone left | cancelled left => cases left.symm.trans hleft

/-- An observer that does nothing, and whose callbacks take a given time. -/
def idleObserver (pause : Duration) : Observer :=
  ⟨fun _ t s => (t, s, .done), fun _ => pause⟩

/-- A prompt observer and a slow one. -/
def unevenObservers : List Observer :=
  [idleObserver ⟨0⟩, idleObserver (.ofMillis 100)]

/-- A session without nodes that executes a statement whose caller is patient. -/
def patientCaller : World × List Flight :=
  World.executeAll { observers := unevenObservers }
    [({ contents := "SELECT now() FROM system.local" }, .ofMillis 1000)]

/-- Both observers hear of the start and of the outcome, though one of them is slow. -/
theorem Course.informed_of_patient : ∃ os w f, Course unevenObservers os w f ∧
    f.state = .finished (.error (.noHostAvailable [])) ∧ Informed unevenObservers os f := by
  have hstates : patientCaller.2.map Flight.state = [.finished (.error (.noHostAvailable []))] :=
    rfl
  have hcourses : InCourse unevenObservers patientCaller.1 patientCaller.2 :=
    World.executeAll_course _ _
  obtain ⟨f, hf, hstate⟩ := List.mem_map.mp (hstates ▸ List.mem_singleton_self _)
  obtain ⟨os, course⟩ := hcourses.2 f hf
  exact ⟨os, _, f, course, hstate, Course.informed course⟩

/-- A request whose start has been announced to both observers, of which the slow one is not done
    yet when the caller leaves. -/
def impatientCaller : World × Flight :=
  let (w, f) := World.launch { observers := unevenObservers }
    { contents := "SELECT now() FROM system.local" } (.ofMillis 60)
  (w.advanceTo f.cancelAt, f)

/-- Both observers hear of the start, and of nothing else. -/
theorem Course.uninformed : ∃ os w f, Course unevenObservers os w f ∧ f.ended = true ∧
    ∀ i < unevenObservers.length, heard i (callsOf unevenObservers os) = [.requestStarted] := by
  have hstart : Course unevenObservers [] impatientCaller.1 impatientCaller.2 :=
    (Course.launch (w := { observers := unevenObservers })
      { contents := "SELECT now() FROM system.local" } (.ofMillis 60) rfl).elsewhere rfl
  have hpossible : (impatientCaller.2.cancelAt, .event .drop) ∈
      impatientCaller.2.agenda impatientCaller.1.now :=
    List.mem_append_right _ (List.mem_singleton_self _)
  have hstep : Request.step impatientCaller.2.settings impatientCaller.1.moment
      impatientCaller.2.state .drop = some (.dropped, []) := rfl
  have hleaves : Activates impatientCaller.1 impatientCaller.2 (.event .drop)
      (impatientCaller.1.apply impatientCaller.2 .drop) [] :=
    .happens (.own .drop) rfl rfl (fun _ hpw => ⟨hpw, by simp⟩) hstep
  refine ⟨_, _, _, hstart.activated hpossible (by decide) hleaves, rfl, ?_⟩
  decide

end Simulation

end RequestEngine
