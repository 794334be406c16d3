/-
  RequestEngine.Proofs.Simulation.Activation

  What one activation of a request in flight can do, said once.  Either nothing
  comes of it, or an event happens to the request, whose deeds are then taken in
  order, or a delivery that was suspended is resumed.

    * `Leaves`    — what a party waits for after a walk along observers;
    * `Arises`    — what a deed makes a party wait for;
    * `Triggers`  — which event an activation may let happen;
    * `Activates` — what an activation does, with the calls of observers that it
      makes; `activate_activates` says that there is nothing else;
    * `World.occasion` — what an activation comes to before its event happens.
-/
import RequestEngine.Proofs.Observation.Delivery
import RequestEngine.Proofs.Request.Run
import RequestEngine.Simulation.Clock

namespace RequestEngine

/-- The calls of observers that a deed makes at once. -/
def Deed.calls (observers : List Observer) (d : Deed) : List Call :=
  d.action.notice?.toList.flatMap (Delivery.calls observers observers)

namespace Simulation

-- ============================================================================
-- Deliveries
-- ============================================================================

/-- What a party waits for after a walk along some observers. -/
inductive Leaves (rest : List Observer) (n : Notification) (p : Party) : Wait → Prop where
  | suspended {d : Delivery} (notification : d.notification = n)
      (remaining : Delivery.called n rest ++ d.remaining = rest) : Leaves rest n p (.delivery d)
  | done (everybody : Delivery.called n rest = rest) : Leaves rest n p (.ready (World.toldEvent p))

/-- What a deed may make a party wait for. -/
inductive Arises (observers : List Observer) (d : Deed) : Party × Wait → Prop where
  | opens {index : Nat} (opens : d.action = .openExecution index) :
      Arises observers d (some index, .ready (.execution index .begin))
  | asks {node : Node} {wake : Instant} {entry : ScriptEntry LoanReply}
      (asks : d.action = .askConnection node) : Arises observers d (d.execution, .loan wake entry)
  | sends {node : Node} {c : Connection} {level : Level} {serial : Option SerialLevel}
      {wake : Instant} {entry : ScriptEntry SendReply}
      (sends : d.action = .send node c level serial) :
      Arises observers d (d.execution, .exchange wake entry)
  | tells {n : Notification} {w : Wait} (notice : d.action = .notify n)
      (suspends : n.callback.suspends = true) (leaves : Leaves observers n d.execution w) :
      Arises observers d (d.execution, w)

/-- A party that waits for something waited for it before, or has just begun to. -/
theorem Flight.mem_waitFor {f : Flight} {p : Party} {pw : Party × Wait} {wait : Wait}
    (h : pw ∈ (f.waitFor p wait).waits) : pw.1 ≠ p ∧ pw ∈ f.waits ∨ pw = (p, wait) := by
  rcases List.mem_append.mp h with h | h
  · obtain ⟨hmem, hother⟩ := List.mem_filter.mp h
    exact .inl ⟨by simpa using hother, hmem⟩
  · exact .inr (List.mem_singleton.mp h)

/-- What a party waits for once a deed makes it wait arises from the deed, or was waited for. -/
theorem Arises.waitFor {observers : List Observer} {d : Deed} {f : Flight} {p : Party}
    {wait : Wait} (h : Arises observers d (p, wait)) :
    ∀ pw ∈ (f.waitFor p wait).waits, pw ∈ f.waits ∨ Arises observers d pw := by
  intro pw hpw
  rcases Flight.mem_waitFor hpw with ⟨-, hmem⟩ | rfl
  · exact .inl hmem
  · exact .inr h

namespace World

variable {w : World} {f : Flight} {p : Party} {n : Notification} {d : Deed} {deeds : List Deed}
  {event : Request.Event} {rest : List Observer}

/-- A step of a delivery leaves its party with a wait of its own. -/
theorem afterWalk_walk (span : Option Nat) (before : Scene → Scene) {x : World × Flight}
    (h : w.afterWalk f p
      (walkWithin span w.scene fun s => Delivery.walk n rest f.tracking (before s)) = x) :
    x.1.observers = w.observers ∧ x.2.state = f.state ∧
      ∃ wait, x.2.waits = (f.waitFor p wait).waits ∧ Leaves rest n p wait := by
  subst h
  generalize hscene : { w.scene with diagnostics.entered := span } = s
  rcases hwalk : Delivery.walk n rest f.tracking (before s) with ⟨t, s', suspended⟩
  have hsuspended := congrArg (fun result => result.2.2) hwalk
  simp only [afterWalk, walkWithin, hscene, hwalk]
  cases suspended with
  | none => exact ⟨rfl, rfl, _, rfl, .done (Delivery.walk_done hsuspended)⟩
  | some d =>
    obtain ⟨hnotification, hremaining⟩ := Delivery.walk_suspended hsuspended
    exact ⟨rfl, rfl, _, rfl, .suspended hnotification hremaining⟩

/-- Resuming a delivery is such a step. -/
theorem afterWalk_resume {d : Delivery} {x : World × Flight}
    (h : w.afterWalk f p (walkWithin (f.span p) w.scene fun s => d.resume f.tracking s) = x) :
    x.1.observers = w.observers ∧ x.2.state = f.state ∧ ∃ wait,
      x.2.waits = (f.waitFor p wait).waits ∧ Leaves d.remaining d.notification p wait :=
  afterWalk_walk _ (·.guard d.notification.callback d.verdict) h

theorem deliver_spec {x : World × Flight} (h : w.deliver f p n = x) :
    x.1.observers = w.observers ∧ x.2.state = f.state ∧
      if n.callback.suspends then
        ∃ wait, x.2.waits = (f.waitFor p wait).waits ∧ Leaves w.observers n p wait
      else x.2.waits = f.waits := by
  unfold deliver at h
  split at h
  · rename_i suspends
    rw [if_pos suspends]
    exact afterWalk_walk _ id h
  · rename_i prompt
    rw [if_neg prompt]
    subst h
    exact ⟨rfl, rfl, rfl⟩

-- ============================================================================
-- Deeds
-- ============================================================================

/-- Taking an action changes neither the observers nor the state of the request, and what it makes
    a party wait for arises from it. -/
theorem perform_spec {x : World × Flight} (h : w.perform f d = x) :
    x.1.observers = w.observers ∧ x.2.state = f.state ∧
      ∀ pw ∈ x.2.waits, pw ∈ f.waits ∨ Arises w.observers d pw := by
  unfold perform at h
  split at h
  · rename_i action
    subst h
    exact ⟨rfl, rfl, Arises.waitFor (.opens action)⟩
  · rename_i action
    subst h
    exact ⟨rfl, rfl, Arises.waitFor (.asks action)⟩
  · subst h
    exact ⟨rfl, rfl, fun pw hpw => .inl hpw⟩
  · rename_i action
    subst h
    exact ⟨rfl, rfl, Arises.waitFor (.sends action)⟩
  · subst h
    exact ⟨rfl, rfl, fun pw hpw => .inl hpw⟩
  · rename_i n action
    obtain ⟨hobservers, hstate, hwaits⟩ := deliver_spec h
    refine ⟨hobservers, hstate, ?_⟩
    split at hwaits
    · rename_i suspends
      obtain ⟨wait, hwait, hleaves⟩ := hwaits
      rw [hwait]
      exact Arises.waitFor (.tells action suspends hleaves)
    · exact fun pw hpw => .inl (hwaits ▸ hpw)
  · subst h
    exact ⟨rfl, rfl, fun pw hpw => .inl hpw⟩

/-- Telling observers something replaces what the party has waited for. -/
theorem perform_tell {x : World × Flight} (h : w.perform f ⟨p, .notify n⟩ = x)
    (suspends : n.callback.suspends = true) :
    ∃ wait, x.2.waits = (f.waitFor p wait).waits ∧ Leaves w.observers n p wait := by
  obtain ⟨-, -, hwaits⟩ := deliver_spec h
  rw [if_pos suspends] at hwaits
  exact hwaits

theorem performAll_cons : w.performAll f (d :: deeds) =
    (w.perform f d).1.performAll (w.perform f d).2 deeds := rfl

theorem performAll_concat : w.performAll f (deeds ++ [d]) =
    (w.performAll f deeds).1.perform (w.performAll f deeds).2 d := by
  rw [performAll, List.foldl_append]
  rfl

/-- The same holds of several actions. -/
theorem performAll_spec (deeds : List Deed) {x : World × Flight} (h : w.performAll f deeds = x) :
    x.1.observers = w.observers ∧ x.2.state = f.state ∧
      ∀ pw ∈ x.2.waits, pw ∈ f.waits ∨ ∃ d ∈ deeds, Arises w.observers d pw := by
  induction deeds generalizing w f with
  | nil =>
    subst h
    exact ⟨rfl, rfl, fun pw hpw => .inl hpw⟩
  | cons d deeds ih =>
    rw [performAll_cons] at h
    obtain ⟨hobservers, hstate, hwaits⟩ := perform_spec (w := w) (f := f) (d := d) rfl
    obtain ⟨hobservers', hstate', hwaits'⟩ := ih h
    refine ⟨hobservers'.trans hobservers, hstate'.trans hstate, fun pw hpw => ?_⟩
    rcases hwaits' pw hpw with hmem | ⟨d', hd', harises⟩
    · rcases hwaits pw hmem with hmem | harises
      · exact .inl hmem
      · exact .inr ⟨d, List.mem_cons_self, harises⟩
    · exact .inr ⟨d', List.mem_cons_of_mem _ hd', hobservers ▸ harises⟩

-- ============================================================================
-- Events
-- ============================================================================

/-- An event that can happen takes the request to its next state and takes the deeds, after which
    executions that ended wait for nothing any more. -/
theorem apply_spec {σ : Request.State} {x : World × Flight} (h : w.apply f event = x)
    (step : Request.step f.settings w.moment f.state event = some (σ, deeds)) :
    x.1.observers = w.observers ∧ x.2.state = σ ∧
      ∀ pw ∈ x.2.waits, pw ∈ (w.performAll { f with state := σ } deeds).2.waits := by
  obtain ⟨hobservers, hstate, -⟩ := performAll_spec (w := w) (f := { f with state := σ }) deeds rfl
  simp only [apply, step] at h
  subst h
  refine ⟨hobservers, ?_, fun pw hpw => ?_⟩
  · split <;> exact hstate
  · split at hpw <;> exact (List.mem_filter.mp hpw).1

theorem apply_none (step : Request.step f.settings w.moment f.state event = none) :
    w.apply f event = (w, f) := by
  simp [apply, step]

end World

-- ============================================================================
-- Activations
-- ============================================================================

/-- Which event an activation may let happen. -/
inductive Triggers (f : Flight) : Activation → Request.Event → Prop where
  | own (event : Request.Event) : Triggers f (.event event) event
  | ready {p : Party} {event : Request.Event} (wait : (p, .ready event) ∈ f.waits) :
      Triggers f (.waitEnds p) event
  | answered {x : Nat} (event : ExecutionEvent) :
      Triggers f (.waitEnds (some x)) (.execution x event)

/-- What an activation does, with the calls of observers that it makes. -/
inductive Activates (w : World) (f : Flight) (a : Activation) :
    World × Flight → List Call → Prop where
  /-- Nothing happens to the request, or a party waits for an answer that never comes. -/
  | idle {x : World × Flight} (observers : x.1.observers = w.observers)
      (state : x.2.state = f.state) (waits : ∀ pw ∈ x.2.waits, pw ∈ f.waits ∨ pw.2 = .never) :
      Activates w f a x []
  /-- An event happens to the request; the surroundings may have changed just before. -/
  | happens {w₁ : World} {f₁ : Flight} {event : Request.Event} {σ : Request.State}
      {deeds : List Deed} (trigger : Triggers f a event)
      (observers : w₁.observers = w.observers) (state : f₁.state = f.state)
      (waits : ∀ pw ∈ f₁.waits, pw ∈ f.waits ∧ a ≠ .waitEnds pw.1)
      (step : Request.step f₁.settings w₁.moment f₁.state event = some (σ, deeds)) :
      Activates w f a (w₁.apply f₁ event) (deeds.flatMap (Deed.calls w.observers))
  /-- The callback that a delivery waits for ends. -/
  | resumes {p : Party} {d : Delivery} (ends : a = .waitEnds p)
      (wait : (p, .delivery d) ∈ f.waits) :
      Activates w f a
        (w.afterWalk f p (World.walkWithin (f.span p) w.scene fun s => d.resume f.tracking s))
        (Delivery.calls w.observers d.remaining d.notification)

section Activations

variable {w w₁ : World} {f f₁ : Flight} {a : Activation} {event : Request.Event}

/-- An event that is to happen does, or cannot. -/
theorem apply_activates (trigger : Triggers f a event) (observers : w₁.observers = w.observers)
    (state : f₁.state = f.state) (waits : ∀ pw ∈ f₁.waits, pw ∈ f.waits ∧ a ≠ .waitEnds pw.1) :
    ∃ calls, Activates w f a (w₁.apply f₁ event) calls := by
  cases hstep : Request.step f₁.settings w₁.moment f₁.state event with
  | none =>
    rw [World.apply_none hstep]
    exact ⟨_, .idle observers state fun pw hpw => .inl (waits pw hpw).1⟩
  | some result => exact ⟨_, .happens trigger observers state waits hstep⟩

theorem mem_of_lookup {p : Party} {wait : Wait} (h : f.waits.lookup p = some wait) :
    (p, wait) ∈ f.waits := by
  obtain ⟨before, after, hsplit, -⟩ := List.lookup_eq_some_iff.mp h
  rw [hsplit]
  exact List.mem_append_right _ List.mem_cons_self

theorem mem_settle {p : Party} {pw : Party × Wait} (h : pw ∈ (f.settle p).waits) :
    pw ∈ f.waits ∧ Activation.waitEnds p ≠ .waitEnds pw.1 := by
  obtain ⟨hmem, hother⟩ := List.mem_filter.mp h
  have hne : pw.1 ≠ p := by simpa using hother
  exact ⟨hmem, fun heq => hne (Activation.waitEnds.inj heq).symm⟩

/-- A party that gets no answer waits for ever. -/
theorem never_activates {p : Party} (observers : w₁.observers = w.observers) :
    ∃ calls, Activates w f a (w₁, f.waitFor p .never) calls := by
  refine ⟨_, .idle observers rfl fun pw hpw => ?_⟩
  rcases Flight.mem_waitFor hpw with ⟨-, hmem⟩ | rfl
  · exact .inl hmem
  · exact .inr rfl

/-- Whatever happens as a wait ends is one of these. -/
theorem endWait_activates (w : World) (f : Flight) (p : Party) :
    ∃ calls, Activates w f (.waitEnds p) (w.endWait f p) calls := by
  -- an answer comes with effects on the surroundings, which change neither observers nor state
  have answered (effects : Effects) (x : Nat) (event : ExecutionEvent) :
      ∃ calls, Activates w f (.waitEnds (some x))
        ((w.applyEffects (f.span (some x)) effects).apply (f.settle (some x)) (.execution x event))
          calls :=
    apply_activates (.answered event) rfl rfl fun _ hpw => mem_settle hpw
  unfold World.endWait
  split
  · exact ⟨_, .idle rfl rfl fun pw hpw => .inl hpw⟩
  · exact ⟨_, .idle rfl rfl fun pw hpw => .inl hpw⟩
  · rename_i event found
    exact apply_activates (.ready (mem_of_lookup found)) rfl rfl fun _ hpw => mem_settle hpw
  · rename_i d found
    exact ⟨_, .resumes rfl (mem_of_lookup found)⟩
  · split
    · exact answered ..
    · exact answered ..
    · exact never_activates rfl
  · split
    · exact answered ..
    · exact answered ..
    · exact never_activates rfl

/-- Whatever an activation does is one of these. -/
theorem activate_activates (w : World) (f : Flight) (a : Activation) :
    ∃ calls, Activates w f a (w.activate f a) calls := by
  cases a with
  | waitEnds p => exact endWait_activates w f p
  | event event => exact apply_activates (.own event) rfl rfl fun _ hpw => ⟨hpw, by simp⟩

end Activations

-- ============================================================================
-- Occasions
-- ============================================================================

namespace World

/-- What an activation comes to before an event happens to the request: the session, the request,
    and the event, if there is one. -/
def occasion (w : World) (f : Flight) : Activation → World × Flight × Option Request.Event
  | .event event => (w, f, some event)
  | .waitEnds p =>
    match f.waits.lookup p with
    | none | some .never => (w, f, none)
    | some (.ready event) => (w, f.settle p, some event)
    | some (.delivery d) =>
      let x := w.afterWalk f p (walkWithin (f.span p) w.scene fun s => d.resume f.tracking s)
      (x.1, x.2, none)
    | some (.loan _ entry) =>
      let w := w.applyEffects (f.span p) entry.effects
      match p, entry.reply with
      | some x, .granted =>
        let node := (f.executions.find? fun e => e.index = x).map Execution.node
        let own := (node.map Node.address).getD default
        let address := ((node.map w.script).bind NodeScript.connect).getD own
        (w, f.settle p, some (.execution x (.connection (.ok ⟨w.pool.granted, address⟩))))
      | some x, .refused e => (w, f.settle p, some (.execution x (.connection (.error e))))
      | _, _ => (w, f.waitFor p .never, none)
    | some (.exchange _ entry) =>
      let w := w.applyEffects (f.span p) entry.effects
      match p, entry.reply with
      | some x, .response r => (w, f.settle p, some (.execution x (.answer (.ok r))))
      | some x, .broken cause => (w, f.settle p, some (.execution x (.answer (.error cause))))
      | _, _ => (w, f.waitFor p .never, none)

/-- Lets the event of an occasion happen. -/
def seize (x : World × Flight × Option Request.Event) : World × Flight :=
  match x.2.2 with
  | some event => x.1.apply x.2.1 event
  | none => (x.1, x.2.1)

theorem activate_eq (w : World) (f : Flight) (a : Activation) :
    w.activate f a = seize (w.occasion f a) := by
  cases a with
  | event => rfl
  | waitEnds p =>
    rw [activate, endWait, occasion]
    cases f.waits.lookup p with
    | none => rfl
    | some wait =>
      cases wait with
      | ready | delivery | never => rfl
      | loan wake entry | exchange wake entry =>
        obtain ⟨reply, -, -⟩ := entry
        cases p <;> cases reply <;> rfl

/-- What holds of everything that an occasion can be holds of it. -/
theorem occasion_cases {P : World × Flight × Option Request.Event → Prop} (w : World)
    (f : Flight) (a : Activation) (own : ∀ event, P (w, f, some event)) (idle : P (w, f, none))
    (ready : ∀ p event, P (w, f.settle p, some event))
    (resumes : ∀ p d, (p, .delivery d) ∈ f.waits →
      let x := w.afterWalk f p (walkWithin (f.span p) w.scene fun s => d.resume f.tracking s)
      P (x.1, x.2, none))
    (answered : ∀ p effects event,
      P (w.applyEffects (f.span p) effects, f.settle p, some event))
    (unanswered : ∀ p effects,
      P (w.applyEffects (f.span p) effects, f.waitFor p .never, none)) :
    P (w.occasion f a) := by
  cases a with
  | event event => exact own event
  | waitEnds p =>
    rw [occasion]
    cases hwait : f.waits.lookup p with
    | none => exact idle
    | some wait =>
      cases wait with
      | never => exact idle
      | ready event => exact ready p event
      | delivery d => exact resumes p d (mem_of_lookup hwait)
      | loan wake entry =>
        obtain ⟨reply, delay, effects⟩ := entry
        cases p with
        | none => exact unanswered none effects
        | some x =>
          cases reply with
          | granted | refused => exact answered (some x) effects _
          | never => exact unanswered (some x) effects
      | exchange wake entry =>
        obtain ⟨reply, delay, effects⟩ := entry
        cases p with
        | none => exact unanswered none effects
        | some x =>
          cases reply with
          | response | broken => exact answered (some x) effects _
          | never => exact unanswered (some x) effects

theorem occasion_observers (w : World) (f : Flight) (a : Activation) :
    (w.occasion f a).1.observers = w.observers := by
  refine occasion_cases (P := fun x => x.1.observers = w.observers) w f a (fun _ => rfl) rfl
    (fun _ _ => rfl) (fun p d _ => ?_) (fun _ _ _ => rfl) fun _ _ => rfl
  exact (afterWalk_resume rfl).1

theorem activate_observers (w : World) (f : Flight) (a : Activation) :
    (w.activate f a).1.observers = w.observers := by
  obtain ⟨calls, hactivates⟩ := activate_activates w f a
  generalize w.activate f a = x at hactivates ⊢
  cases hactivates with
  | idle same => exact same
  | happens _ same _ _ step => exact (apply_spec rfl step).1.trans same
  | resumes => exact (afterWalk_resume rfl).1

theorem launch_observers (w : World) (statement : Statement) (patience : Duration) :
    (w.launch statement patience).1.observers = w.observers :=
  (performAll_spec _ rfl).1

end World

end Simulation

end RequestEngine
