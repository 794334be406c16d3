/-
  RequestEngine.Proofs.Simulation.Unaffected

  What is changed while a request is in flight.  A request takes its settings and
  its snapshot of the cluster with it when it starts.  In two runs of a session
  that differ only in what becomes of profiles and cluster afterwards, the same
  becomes of the request, if the nodes that it knows of are up at the same time in
  both.

    * `Settings.Resolved`       — where each setting comes from;
    * `World.SameSurroundings`  — sessions that differ in profiles and cluster alone;
    * `Passage`, `Change`       — a request in flight, and what may be changed;
    * `Passage.Unaffected`      — two runs in which the same becomes of a request, and
      `Passage.unaffected_after`.
-/
import Mathlib.Data.List.Induction
import RequestEngine.Proofs.Cluster.Update
import RequestEngine.Proofs.Request.Sight
import RequestEngine.Proofs.Simulation.Activation
import RequestEngine.Proofs.Simulation.Lockstep

namespace RequestEngine

-- ============================================================================
-- Settings
-- ============================================================================

/-- What is chosen: one's own value if there is one, else that of somebody else. -/
structure Chosen {α : Type} (own : Option α) (other chosen : α) : Prop where
  set : ∀ a, own = some a → chosen = a
  unset : own = none → chosen = other

theorem Chosen.eq_getD {α : Type} {own : Option α} {other chosen : α}
    (h : Chosen own other chosen) : chosen = own.getD other := by
  cases own with
  | none => exact h.unset rfl
  | some a => exact h.set a rfl

theorem chosen_getD {α : Type} (own : Option α) (other : α) : Chosen own other (own.getD other) :=
  ⟨fun _ h => by rw [h, Option.getD_some], fun h => by rw [h, Option.getD_none]⟩

theorem chosen_or {α : Type} (own other : Option α) :
    Chosen (own.map some) other (own.or other) := by
  cases own with
  | none =>
    refine ⟨?_, fun _ => rfl⟩
    rintro _ ⟨⟩
  | some a =>
    refine ⟨?_, fun h => by cases h⟩
    rintro _ ⟨⟩
    rfl

/-- Where the settings of a request come from. A serial level can be set to none, which is not the
    same as not setting it. -/
structure Settings.Resolved (s : Settings) (statement : Statement) (profile : Profile)
    (snapshot : Snapshot) : Prop where
  timeout : Chosen (statement.requestTimeout.map some) profile.requestTimeout s.requestTimeout
  level : Chosen statement.level profile.level s.routing.level
  serial : Chosen statement.serial profile.serial s.routing.serial
  balancing : Chosen statement.balancing profile.balancing s.balancing
  retry : Chosen statement.retry profile.retry s.retry
  speculation : Chosen (statement.speculation.map some) profile.speculation s.speculation
  attemptTimeout : s.attemptTimeout = profile.attemptTimeout
  sameTargetCap : s.sameTargetCap = profile.sameTargetCap
  snapshot : s.snapshot = snapshot

theorem Settings.ofProfile_resolved (statement : Statement) (profile : Profile)
    (snapshot : Snapshot) :
    (ofProfile statement profile snapshot).Resolved statement profile snapshot :=
  ⟨chosen_or .., chosen_getD .., chosen_getD .., chosen_getD .., chosen_getD .., chosen_or ..,
    rfl, rfl, rfl⟩

-- ============================================================================
-- Updates
-- ============================================================================

theorem Snapshot.firstOfEachHost_toPeer {nodes nodes' : List Node}
    (same : nodes.map Node.toPeer = nodes'.map Node.toPeer) (seen : List HostId) :
    (firstOfEachHost seen nodes).2.map Node.toPeer =
      (firstOfEachHost seen nodes').2.map Node.toPeer := by
  induction nodes generalizing nodes' seen with
  | nil =>
    rw [List.map_nil] at same
    rw [List.map_eq_nil_iff.mp same.symm]
  | cons n rest ih =>
    obtain ⟨n', rest', rfl, hn, hrest⟩ := List.map_eq_cons_iff.mp same.symm
    have hhost : n'.host = n.host := congrArg Peer.host hn
    simp only [firstOfEachHost, hhost]
    split
    · simp only [List.map_cons, hn, ih hrest.symm]
    · exact ih hrest.symm _

/-- Which nodes an update skips depends on the peers alone. -/
theorem Directory.update_skipped (d d' : Directory) (peers : List Peer) :
    (d.update peers).2.map Node.toPeer = (d'.update peers).2.map Node.toPeer :=
  Snapshot.firstOfEachHost_toPeer
    ((enrollAll_toPeer ..).trans (enrollAll_toPeer ..).symm) []

namespace Simulation

theorem Effects.remarks_eq (e : Effects) (d d' : Directory) :
    (e.apply d).2.map Directory.skippedRemark = (e.apply d').2.map Directory.skippedRemark := by
  have hremark (nodes : List Node) : nodes.map Directory.skippedRemark =
      (nodes.map Node.toPeer).map fun p => Directory.skippedRemark (Node.ofPeer 0 p) := by
    rw [List.map_map]
    rfl
  unfold apply
  cases e.peers with
  | none => rfl
  | some peers =>
    dsimp only
    rw [hremark, hremark]
    exact congrArg _ (Directory.update_skipped ..)

-- ============================================================================
-- Surroundings
-- ============================================================================

namespace World

/-- A session with the cluster and the profiles of another one. -/
def governedBy (w v : World) : World :=
  { w with directory := v.directory, cells := v.cells, sessionProfile := v.sessionProfile }

/-- Two sessions that differ in cluster and profiles alone. -/
def SameSurroundings (w w' : World) : Prop :=
  w' = w.governedBy w'

section Steps

variable {w v : World} {f : Flight} {p : Party}

theorem afterWalk_governedBy (result : Tracking × Scene × Option Delivery) :
    (w.governedBy v).afterWalk f p result =
      ((w.afterWalk f p result).1.governedBy v, (w.afterWalk f p result).2) := by
  obtain ⟨t, s, suspended⟩ := result
  cases suspended <;> rfl

/-- An action of a request comes to the same, whatever the cluster and the profiles are. -/
theorem perform_governedBy (d : Deed) : (w.governedBy v).perform f d =
    ((w.perform f d).1.governedBy v, (w.perform f d).2) := by
  unfold perform
  dsimp only
  have hreported : (w.governedBy v).onScene f d.execution (d.action.report f.settings) =
      (w.onScene f d.execution (d.action.report f.settings)).governedBy v := rfl
  rw [hreported]
  generalize w.onScene f d.execution (d.action.report f.settings) = u
  cases d.action with
  | notify n =>
    dsimp only [deliver]
    split
    · exact afterWalk_governedBy _
    · rfl
  | _ => rfl

theorem performAll_governedBy (deeds : List Deed) : (w.governedBy v).performAll f deeds =
    ((w.performAll f deeds).1.governedBy v, (w.performAll f deeds).2) := by
  induction deeds generalizing w f with
  | nil => rfl
  | cons d rest ih => rw [performAll_cons, performAll_cons, perform_governedBy, ih]

/-- An event leads to the same if it may lead to the same state. -/
theorem apply_governedBy {event : Request.Event}
    (step : Request.step f.settings (w.governedBy v).moment f.state event =
      Request.step f.settings w.moment f.state event) :
    (w.governedBy v).apply f event =
      ((w.apply f event).1.governedBy v, (w.apply f event).2) := by
  unfold apply
  rw [step]
  cases Request.step f.settings w.moment f.state event with
  | none => rfl
  | some result =>
    dsimp only
    rw [performAll_governedBy]
    rfl

/-- What an answer changes of the cluster is logged in the same way. -/
theorem applyEffects_governedBy (span : Option Nat) (e : Effects) :
    (w.governedBy v).applyEffects span e =
      (w.applyEffects span e).governedBy (v.applyEffects span e) := by
  have hlogged (d : Directory) (s : Scene) :
      (e.apply d).2.foldl (fun s n => s.log .debug (Directory.skippedRemark n)) s =
        ((e.apply d).2.map Directory.skippedRemark).foldl (fun s r => s.log .debug r) s := by
    rw [List.foldl_map]
  have hsame : (fun s : Scene =>
      (e.apply v.directory).2.foldl (fun s n => s.log .debug (Directory.skippedRemark n)) s) =
        fun s => (e.apply w.directory).2.foldl
          (fun s n => s.log .debug (Directory.skippedRemark n)) s := by
    funext s
    rw [hlogged, hlogged, e.remarks_eq v.directory w.directory]
  simp only [applyEffects, governedBy, hsame]

/-- The same occasions arise, whatever the cluster and the profiles are. -/
theorem occasion_governedBy (a : Activation) : ∃ v', (w.governedBy v).occasion f a =
    ((w.occasion f a).1.governedBy v', (w.occasion f a).2) := by
  cases a with
  | event => exact ⟨v, rfl⟩
  | waitEnds p =>
    rw [occasion, occasion]
    cases f.waits.lookup p with
    | none => exact ⟨v, rfl⟩
    | some wait =>
      cases wait with
      | never | ready => exact ⟨v, rfl⟩
      | delivery d =>
        dsimp only
        rw [afterWalk_governedBy]
        exact ⟨v, rfl⟩
      | loan wake entry | exchange wake entry =>
        obtain ⟨reply, delay, effects⟩ := entry
        refine ⟨v.applyEffects (f.span p) effects, ?_⟩
        dsimp only
        rw [applyEffects_governedBy]
        cases p <;> cases reply <;> rfl

/-! The settings of a request in flight stay as they are. -/

theorem afterWalk_settings (result : Tracking × Scene × Option Delivery) :
    (w.afterWalk f p result).2.settings = f.settings ∧
      (w.afterWalk f p result).2.state = f.state := by
  obtain ⟨t, s, suspended⟩ := result
  cases suspended <;> exact ⟨rfl, rfl⟩

theorem perform_settings (d : Deed) : (w.perform f d).2.settings = f.settings := by
  unfold perform
  dsimp only
  generalize w.onScene f d.execution (d.action.report f.settings) = u
  cases d.action with
  | notify n =>
    dsimp only [deliver]
    split
    · exact (afterWalk_settings _).1
    · rfl
  | _ => rfl

theorem performAll_settings (deeds : List Deed) :
    (w.performAll f deeds).2.settings = f.settings := by
  induction deeds generalizing w f with
  | nil => rfl
  | cons d rest ih => rw [performAll_cons, ih, perform_settings]

theorem occasion_settings (a : Activation) :
    (w.occasion f a).2.1.settings = f.settings ∧ (w.occasion f a).2.1.state = f.state := by
  refine occasion_cases (P := fun x => x.2.1.settings = f.settings ∧ x.2.1.state = f.state) w f a
    (fun _ => ⟨rfl, rfl⟩) ⟨rfl, rfl⟩ (fun _ _ => ⟨rfl, rfl⟩) (fun p d _ => ?_)
    (fun _ _ _ => ⟨rfl, rfl⟩) fun _ _ => ⟨rfl, rfl⟩
  exact afterWalk_settings _

/-- The deeds of an activation are those of a step of the request, if there are any. -/
theorem activate_run {ts : List Request.Transition} (run : Request.Run f.settings ts f.state)
    (a : Activation) : (w.activate f a).2.settings = f.settings ∧
      ∃ ts', Request.Run f.settings ts' (w.activate f a).2.state ∧
        Request.log ts' = Request.log ts ++ w.deeds f a := by
  obtain ⟨hsettings, hstate⟩ := occasion_settings (w := w) (f := f) a
  rw [activate_eq, seize, deeds]
  cases (w.occasion f a).2.2 with
  | none => exact ⟨hsettings, ts, hstate ▸ run, (List.append_nil _).symm⟩
  | some event =>
    dsimp only [Option.bind_some]
    cases hstep : Request.step (w.occasion f a).2.1.settings (w.occasion f a).1.moment
      (w.occasion f a).2.1.state event with
    | none =>
      rw [apply_none hstep]
      exact ⟨hsettings, ts, hstate ▸ run, (List.append_nil _).symm⟩
    | some result =>
      obtain ⟨σ, deeds⟩ := result
      rw [(apply_spec rfl hstep).2.1]
      constructor
      · rw [← hsettings]
        simp only [apply, hstep]
        split <;> exact performAll_settings (f := { (w.occasion f a).2.1 with state := σ }) deeds
      · rw [hsettings, hstate] at hstep
        exact ⟨_, run.step hstep, Request.log_concat ..⟩

/-- An activation comes to the same if an event may lead to the same state. -/
theorem activate_governedBy (a : Activation)
    (step : ∀ event,
      Request.step f.settings ((w.governedBy v).occasion f a).1.moment f.state event =
        Request.step f.settings (w.occasion f a).1.moment f.state event) :
    (w.activate f a).1.SameSurroundings ((w.governedBy v).activate f a).1 ∧
      ((w.governedBy v).activate f a).2 = (w.activate f a).2 ∧
        (w.governedBy v).deeds f a = w.deeds f a := by
  obtain ⟨v', hoccasion⟩ := occasion_governedBy (w := w) (v := v) (f := f) a
  obtain ⟨hsettings, hstate⟩ := occasion_settings (w := w) (f := f) a
  rw [hoccasion, ← hsettings, ← hstate] at step
  rw [activate_eq, activate_eq, deeds, deeds, hoccasion, seize, seize]
  dsimp only
  cases (w.occasion f a).2.2 with
  | none => exact ⟨rfl, rfl, rfl⟩
  | some event =>
    dsimp only [Option.bind_some]
    rw [apply_governedBy (step event), step event]
    exact ⟨rfl, rfl, rfl⟩

end Steps

end World

-- ============================================================================
-- Passages
-- ============================================================================

/-- What may be changed of a session while requests are in flight: a handle is mapped to another
    profile, the peers of the cluster are updated, a node is marked as up or down. -/
inductive Change where
  | remaps (handle : ProfileHandle) (profile : Profile)
  | updates (peers : List Peer)
  | marks (n : Node) (up : Bool)

/-- Makes a change. -/
def World.undergo (w : World) : Change → World
  | .remaps handle profile => { w with cells := w.cells.remap handle profile }
  | .updates peers => { w with directory := (w.directory.update peers).1 }
  | .marks n true => { w with directory := w.directory.markUp n }
  | .marks n false => { w with directory := w.directory.markDown n }

/-- What happens after some changes: something to the request, or something else that leaves the
    session in other surroundings. -/
inductive Interlude where
  | activates (a : Activation)
  | elsewhere (w : World)

/-- A request in flight with its session, and with its deeds and their times. -/
structure Passage where
  world : World
  flight : Flight
  taken : List (Instant × Deed) := []

namespace Passage

/-- A statement is executed. -/
def start (w : World) (statement : Statement) (patience : Duration) : Passage where
  world := (w.launch statement patience).1
  flight := (w.launch statement patience).2
  taken := Request.start.2.map (w.now, ·)

/-- The session after some changes. -/
def changed (x : Passage) (changes : List Change) : World :=
  changes.foldl World.undergo x.world

/-- What comes of some changes and what happens then. -/
def next (x : Passage) (step : List Change × Interlude) : Passage :=
  let w := x.changed step.1
  match step.2 with
  | .activates a =>
    { world := (w.activate x.flight a).1
      flight := (w.activate x.flight a).2
      taken := x.taken ++ (w.deeds x.flight a).map (w.now, ·) }
  | .elsewhere v => { x with world := v.governedBy w }

/-- The same for several steps. -/
def after (x : Passage) (steps : List (List Change × Interlude)) : Passage :=
  steps.foldl next x

/-- Which nodes are up when something happens to the request, after what it brings along. -/
def liveness (x : Passage) (step : List Change × Interlude) : Liveness :=
  match step.2 with
  | .activates a => ((x.changed step.1).occasion x.flight a).1.directory.liveness
  | .elsewhere _ => {}

/-- What holds of a request, whose settings were resolved in a session when it started, in two runs
    that differ in changes of profiles and cluster. -/
structure Unaffected (w : World) (statement : Statement) (x x' : Passage) : Prop where
  /-- The settings are those of the statement and of the profile that its handle, or else that of
      the session, pointed to. -/
  resolved : x.flight.settings.Resolved statement
    (w.cells.profile (statement.profile.getD w.sessionProfile)) w.directory.current
  /-- They are used all along. -/
  used : ∃ ts, Request.Run x.flight.settings ts x.flight.state ∧
    Request.log ts = x.taken.map Prod.snd
  /-- The request is in the same state, and has come to the same result at the same time. -/
  flight : x'.flight = x.flight
  /-- Its deeds are the same, attempts with their nodes and levels among them, at the same
      times. -/
  taken : x'.taken = x.taken
  /-- It leaves the same behind. -/
  world : x.world.SameSurroundings x'.world

end Passage

/-- A point of two runs: what is changed in the one and in the other, and what happens then in
    both. -/
structure Juncture where
  changes : List Change := []
  changes' : List Change := []
  interlude : Interlude

/-- What happens in the one run. -/
def Juncture.plain (j : Juncture) : List Change × Interlude :=
  (j.changes, j.interlude)

/-- What happens in the other one. -/
def Juncture.other (j : Juncture) : List Change × Interlude :=
  (j.changes', j.interlude)

namespace Passage

section Steps

variable {w : World} {statement : Statement} {patience : Duration} {x x' : Passage}
  {j : Juncture} {nodes : List Node}

/-- Changes affect nothing but cluster and profiles. -/
theorem changed_governedBy (x : Passage) (changes : List Change) :
    x.changed changes = x.world.governedBy (x.changed changes) := by
  rw [changed]
  generalize x.world = w
  induction changes generalizing w with
  | nil => rfl
  | cons c rest ih =>
    have hchange : (w.undergo c).governedBy (rest.foldl World.undergo (w.undergo c)) =
        w.governedBy (rest.foldl World.undergo (w.undergo c)) := by
      cases c with
      | marks n up => cases up <;> rfl
      | _ => rfl
    rw [List.foldl_cons]
    exact (ih (w.undergo c)).trans hchange

/-- Changes leave the surroundings alike. -/
theorem Unaffected.changed (h : x.Unaffected w statement x') (changes changes' : List Change) :
    x'.changed changes' = (x.changed changes).governedBy (x'.changed changes') := by
  have hworld := h.world
  rw [changed_governedBy x, changed_governedBy x', hworld]
  rfl

/-- What happens at a juncture becomes of the request in both runs, if the nodes that its policy
    looks at are up in both. -/
theorem Unaffected.next (h : x.Unaffected w statement x')
    (confined : (statement.balancing.getD
      (w.cells.profile (statement.profile.getD w.sessionProfile)).balancing).Confined
        w.directory.current nodes)
    (flags : (x.liveness j.plain).AgreeOn nodes (x'.liveness j.other)) :
    (x.next j.plain).Unaffected w statement (x'.next j.other) := by
  obtain ⟨changes, changes', interlude⟩ := j
  have hchanged := h.changed changes changes'
  cases interlude with
  | elsewhere v => exact ⟨h.resolved, h.used, h.flight, h.taken, rfl⟩
  | activates a =>
    -- the sessions differ in cluster and profiles alone, which the request looks at only to see
    -- whether the nodes that it knows of are up
    obtain ⟨hresolved, ⟨ts, run, hlog⟩, hflight, htaken, hworld⟩ := h
    rw [← hresolved.balancing.eq_getD, ← hresolved.snapshot] at confined
    simp only [liveness, Juncture.plain, Juncture.other, hflight] at flags
    simp only [Passage.next, Juncture.plain, Juncture.other, hflight, htaken]
    generalize x.changed changes = u at hchanged flags ⊢
    generalize x'.changed changes' = u' at hchanged flags ⊢
    have hmoment : Moment.AgreeOn nodes (u.occasion x.flight a).1.moment
        (u'.occasion x.flight a).1.moment := by
      obtain ⟨v, hoccasion⟩ := World.occasion_governedBy (w := u) (v := u') (f := x.flight) a
      rw [← hchanged] at hoccasion
      refine ⟨?_, ?_, flags⟩ <;> (rw [hoccasion]; rfl)
    obtain ⟨hsame, hsameFlight, hsameDeeds⟩ := World.activate_governedBy (w := u) (v := u')
      (f := x.flight) a fun event => by
        rw [← hchanged]
        exact (run.step_agree confined hmoment event).symm
    obtain ⟨hsettings, ts', run', hlog'⟩ := World.activate_run (w := u) run a
    rw [← hchanged] at hsame hsameFlight hsameDeeds
    have hnow : u'.now = u.now := by
      rw [hchanged]
      rfl
    refine ⟨hsettings ▸ hresolved, ⟨ts', hsettings ▸ run', ?_⟩, hsameFlight, ?_, hsame⟩
    · rw [hlog', hlog, List.map_append, List.map_map]
      exact congrArg _ (List.map_id _).symm
    · rw [hsameDeeds, hnow]

end Steps

/-- Whatever profiles handles are mapped to and whatever becomes of the cluster while a request is
    in flight, it goes on in the same way with the settings that it started with, as long as the
    nodes of its snapshot are up at the same time, and those that its policy holds itself. -/
theorem unaffected_after (w : World) (statement : Statement) (patience : Duration)
    (own : List Node)
    (confined : (statement.balancing.getD
      (w.cells.profile (statement.profile.getD w.sessionProfile)).balancing).Confined
        w.directory.current (w.directory.current.nodes ++ own))
    (junctures : List Juncture)
    (flags : EachAfter (fun before j =>
      (((start w statement patience).after (before.map Juncture.plain)).liveness j.plain).AgreeOn
        (w.directory.current.nodes ++ own)
        (((start w statement patience).after (before.map Juncture.other)).liveness j.other))
          junctures) :
    ((start w statement patience).after (junctures.map Juncture.plain)).Unaffected w statement
      ((start w statement patience).after (junctures.map Juncture.other)) := by
  induction junctures using List.reverseRecOn with
  | nil =>
    have hsettings : (start w statement patience).flight.settings =
        Settings.resolve statement w.sessionProfile w.cells w.directory.current :=
      World.performAll_settings _
    have hstate : (start w statement patience).flight.state = Request.start.1 :=
      (World.performAll_spec _ rfl).2.1
    refine ⟨hsettings ▸ Settings.ofProfile_resolved .., ⟨[], hstate ▸ .start, ?_⟩, rfl, rfl, rfl⟩
    rfl
  | append_singleton junctures j ih =>
    obtain ⟨hbefore, hlast⟩ := EachAfter.concat_iff.mp flags
    rw [List.map_append, List.map_append, after, after, List.foldl_append, List.foldl_append]
    exact (ih hbefore).next confined hlast

/-- A session of two nodes, the first of which lends no connections. -/
def pairOfNodes : World where
  directory := (Directory.update {} peers).1
  cells := ⟨[{ Profile.standard with balancing := .ordered .firstUp none }]⟩
  scripts := [((default : Address).text, { loans := [{ reply := .refused .nodeDisabled }] })]
where
  peers : List Peer :=
    [⟨default, default, none, none⟩,
      ⟨Request.otherNode.host, .v4 (.replicate 4 1) 0, none, none⟩]

/-- A request is retried on the second node. In one of two runs its profile is replaced by another
    one before it begins, and all nodes leave the cluster, to come back before the retry. -/
def retriedElsewhere : List Juncture :=
  let goesOn (p : Party) := Interlude.activates (.waitEnds p)
  let profile := { Profile.standard with level := .one, sameTargetCap := 0 }
  [⟨[], [.remaps ⟨0, none⟩ profile, .updates []], goesOn none⟩, ⟨[], [], goesOn (some 0)⟩,
    ⟨[], [], goesOn (some 0)⟩, ⟨[], [], goesOn (some 0)⟩,
    ⟨[], [.updates pairOfNodes.peers], goesOn (some 0)⟩, ⟨[], [], goesOn (some 0)⟩,
    ⟨[], [], goesOn (some 0)⟩, ⟨[], [], goesOn (some 0)⟩, ⟨[], [], goesOn (some 0)⟩,
    ⟨[], [], goesOn none⟩]

/-- The changes do not affect the request, which ends in both runs, while the cluster consists of
    other nodes in the other one. -/
theorem unaffected_after_of_retried :
    let x := start pairOfNodes { contents := "SELECT now()", serial := some none } (.ofMillis 100)
    (x.after (retriedElsewhere.map Juncture.plain)).Unaffected pairOfNodes
        { contents := "SELECT now()", serial := some none }
        (x.after (retriedElsewhere.map Juncture.other)) ∧
      (x.after (retriedElsewhere.map Juncture.other)).flight.ended = true ∧
        (x.after (retriedElsewhere.map Juncture.other)).world.directory.current ≠
          pairOfNodes.directory.current := by
  refine ⟨unaffected_after _ _ _ [] ?_ _ (by decide +kernel), by decide +kernel,
    by decide +kernel⟩
  exact (BalancingPolicy.ordered_confined .firstUp none _).mono fun n hn =>
    List.mem_append_left _ hn

end Passage

end Simulation

end RequestEngine
