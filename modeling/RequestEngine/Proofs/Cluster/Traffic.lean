/-
  RequestEngine.Proofs.Cluster.Traffic

  Plans that are asked for nodes while the topology changes.  A plan keeps the
  snapshot that it was opened on, while marks are made on the records of the current
  one.  A mark on a host whose record has been replaced since then does not reach
  the plan, which may yield the old record of a host that is down.  This is the one
  way in which that happens.

    * `Traffic`, `Traffic.Event` — a topology with the plans that have been opened;
    * `Traffic.Heeds`            — no plan yields a host that is down at the moment,
      which is not always so (`overtakes`);
    * `Traffic.Overtaken`        — a record that was replaced before its host was
      marked down, and `heeds_or_overtaken`.
-/
import Mathlib.Data.List.Induction
import RequestEngine.Proofs.Balancing.Confined
import RequestEngine.Proofs.Cluster.Topology

namespace RequestEngine

-- ============================================================================
-- Marks on current records
-- ============================================================================

namespace Topology

variable {t : Topology} {n : Node} {s : Snapshot}

theorem Sound.node?_zero (h : t.Sound) (host : HostId) :
    t.node? 0 host = t.directory.current.node? host := by
  rw [Topology.node?, ← List.head?_eq_getElem?, h.current, Option.bind_some]

/-- A record of any snapshot has the number of a current one only if it is that one. -/
theorem Sound.serial_eq_iff (h : t.Sound) (held : s ∈ t.snapshots) (mem : n ∈ s.nodes) {m : Node}
    (now : m ∈ t.directory.current.nodes) : n.serial = m.serial ↔ m = n := by
  constructor
  · intro same
    exact (h.identified s held n mem _ h.mem_current m now same).symm
  · rintro rfl
    rfl

/-- A mark on a host reaches its current record alone. -/
theorem Sound.isUp_markDown (h : t.Sound) (held : s ∈ t.snapshots) (mem : n ∈ s.nodes)
    (host : HostId) : (t.next (.markDown 0 host)).isUp n = true ↔
      t.isUp n = true ∧ t.directory.current.node? host ≠ some n := by
  have hnode := h.node?_zero host
  cases hfound : t.directory.current.node? host with
  | none => simp [Topology.next, hnode, hfound]
  | some m =>
    have hsame := h.serial_eq_iff held mem (Snapshot.mem_of_node? hfound).1
    simp [Topology.next, hnode, hfound, isUp, Directory.markDown, Liveness.isUp_markDown, hsame]

theorem Sound.isUp_markUp (h : t.Sound) (held : s ∈ t.snapshots) (mem : n ∈ s.nodes)
    (host : HostId) : (t.next (.markUp 0 host)).isUp n = true ↔
      t.isUp n = true ∨ t.directory.current.node? host = some n := by
  have hnode := h.node?_zero host
  cases hfound : t.directory.current.node? host with
  | none => simp [Topology.next, hnode, hfound]
  | some m =>
    have hsame := h.serial_eq_iff held mem (Snapshot.mem_of_node? hfound).1
    simp [Topology.next, hnode, hfound, isUp, Directory.markUp, Liveness.isUp_markUp, hsame]

/-- Marks leave the snapshots as they are. -/
theorem next_markDown_current (t : Topology) (age : Nat) (host : HostId) :
    (t.next (.markDown age host)).directory.current = t.directory.current := by
  simp only [next]
  split <;> rfl

theorem next_markUp_current (t : Topology) (age : Nat) (host : HostId) :
    (t.next (.markUp age host)).directory.current = t.directory.current := by
  simp only [next]
  split <;> rfl

/-- A record that has been replaced does not come back. -/
theorem Sound.gone_for_good (h : t.Sound) (held : s ∈ t.snapshots) (mem : n ∈ s.nodes)
    (gone : n ∉ t.directory.current.nodes) (peers : List Peer) :
    n ∉ (t.next (.update peers)).directory.current.nodes := by
  intro hn
  rcases (h.updates peers).origin n hn with old | fresh
  · exact gone old
  · exact h.unseen fresh s held n mem rfl

/-- The record of a host that has changed, or gone, is replaced. -/
theorem Sound.gone (h : t.Sound) (mem : n ∈ t.directory.current.nodes) {peers : List Peer}
    (differs : Peer.first? peers n.host ≠ some n.toPeer) :
    n ∉ (t.next (.update peers)).directory.current.nodes := by
  intro hn
  have hnow := (h.updated peers).node?_current hn
  have hrenews := h.renews peers
  cases hfirst : Peer.first? peers n.host with
  | none => cases (hrenews.gone _ hfirst).symm.trans hnow
  | some p =>
    have hp : n.toPeer ≠ p := fun heq => differs (by rw [hfirst, heq])
    obtain ⟨n', hn', -, -, unseen, -⟩ := hrenews.changed n mem p hfirst hp
    obtain rfl : n' = n := Option.some.inj (hn'.symm.trans hnow)
    exact unseen _ h.mem_current n' mem rfl

/-- If the current record of a host is up, or there is none, the same is true after an update. -/
theorem Sound.up_after_update (h : t.Sound) (peers : List Peer) {host : HostId}
    (up : ∀ m, t.directory.current.node? host = some m → t.isUp m = true) :
    ∀ c, (t.next (.update peers)).directory.current.node? host = some c →
      (t.next (.update peers)).isUp c = true := by
  intro c hc
  have hrenews := h.renews peers
  cases hfirst : Peer.first? peers host with
  | none => cases (hrenews.gone host hfirst).symm.trans hc
  | some p =>
    cases hfound : t.directory.current.node? host with
    | none =>
      obtain ⟨c', hc', -, -, up'⟩ := hrenews.added host p hfound hfirst
      rwa [Option.some.inj (hc'.symm.trans hc)] at up'
    | some m =>
      obtain ⟨hm, rfl⟩ := Snapshot.mem_of_node? hfound
      by_cases hsame : m.toPeer = p
      · have hkept := hrenews.kept m hm (hsame ▸ hfirst)
        rw [← Option.some.inj (hkept.symm.trans hc), hrenews.live _ h.mem_current m hm]
        exact up m hfound
      · obtain ⟨c', hc', -, -, -, live⟩ := hrenews.changed m hm p hfirst hsame
        rw [← Option.some.inj (hc'.symm.trans hc), live]
        exact up m hfound

end Topology

-- ============================================================================
-- Plans beside the topology
-- ============================================================================

/-- A topology with the plans that have been opened on it. -/
structure Traffic where
  topology : Topology
  plans : List Plan := []

namespace Traffic

/-- What may happen: updates, marks on the current record of a host, plans that are opened on the
    current snapshot, and plans that are asked for a node. -/
inductive Event where
  | update (peers : List Peer)
  | markDown (host : HostId)
  | markUp (host : HostId)
  | opens (policy : BalancingPolicy) (routing : Routing)
  | asks (i : Nat)

/-- What an event means to the topology. -/
def Event.change? : Event → Option Topology.Event
  | .update peers => some (.update peers)
  | .markDown host => some (.markDown 0 host)
  | .markUp host => some (.markUp 0 host)
  | .opens .. | .asks _ => none

/-- The current snapshot. -/
def current (t : Traffic) : Snapshot :=
  t.topology.directory.current

/-- What it comes to if a plan is asked at the moment. -/
def ask (t : Traffic) (p : Plan) : Option Node × Plan × List PlanNote :=
  p.next t.topology.directory.liveness

/-- The plans that are there when something has happened. -/
def nextPlans (t : Traffic) : Event → List Plan
  | .opens policy routing => t.plans ++ [Plan.new policy routing t.current]
  | .asks i => t.plans.modify i fun p => (t.ask p).2.1
  | _ => t.plans

/-- What is left when something has happened. -/
def next (t : Traffic) (e : Event) : Traffic where
  topology := e.change?.elim t.topology t.topology.next
  plans := t.nextPlans e

/-- What is left after all that has happened to a cluster of some peers. -/
def after (peers : List Peer) (events : List Event) : Traffic :=
  events.foldl next { topology := .start peers }

@[simp] theorem after_concat (peers : List Peer) (events : List Event) (e : Event) :
    after peers (events ++ [e]) = (after peers events).next e :=
  List.foldl_concat ..

/-- No plan yields a host that is down at the moment. -/
def Heeds (t : Traffic) : Prop :=
  ∀ p ∈ t.plans, ∀ n, (t.ask p).1 = some n → ∀ c, t.current.node? n.host = some c →
    t.topology.isUp c = true

/-- The datacenter of the only host changes after a plan was opened, and then it is marked down. -/
def movedAway : List Event :=
  [.opens .standard {}, .update [⟨default, default, some "new", none⟩], .markDown default]

/-- The plan goes on with the old record, which is up. -/
theorem overtakes : ¬(after [⟨default, default, some "old", none⟩] movedAway).Heeds := by
  intro h
  have hup := h _ (List.mem_singleton.mpr rfl) _ rfl _ rfl
  revert hup
  decide

-- ============================================================================
-- Records that are overtaken
-- ============================================================================

/-- Plan `i` has been opened already when an update to a list of peers takes a record out of the
    current snapshot. -/
structure Replaces (peers : List Peer) (earlier : List Event) (list : List Peer) (i : Nat)
    (n : Node) : Prop where
  opened : i < (after peers earlier).plans.length
  held : n ∈ (after peers earlier).current.nodes
  differs : Peer.first? list n.host ≠ some n.toPeer

/-- After plan `i` was opened the record was replaced, and after that its host was marked down. -/
def Overtaken (peers : List Peer) (events : List Event) (i : Nat) (n : Node) : Prop :=
  ∃ earlier list later, events = earlier ++ .update list :: later ∧
    Replaces peers earlier list i n ∧ .markDown n.host ∈ later

/-- What has become of a record that was current when plan `i` was opened: unless its host has been
    marked down since it was replaced, the record is up only if the current one is. -/
inductive Standing (peers : List Peer) (events : List Event) (i : Nat) (n : Node) : Prop
  | holds (mem : n ∈ (after peers events).current.nodes)
  | replaced {earlier : List Event} {list : List Peer} {later : List Event}
      (history : events = earlier ++ .update list :: later)
      (replaces : Replaces peers earlier list i n)
      (gone : n ∉ (after peers events).current.nodes)
      (agrees : (after peers events).topology.isUp n = true → .markDown n.host ∉ later →
        ∀ c, (after peers events).current.node? n.host = some c →
          (after peers events).topology.isUp c = true)

section Histories

variable {peers : List Peer} {events : List Event} {i : Nat} {n : Node} {s : Snapshot}

/-- The plans do not matter to the topology. -/
theorem topology_after (peers : List Peer) (events : List Event) :
    (after peers events).topology =
      (Topology.start peers).after (events.filterMap Event.change?) := by
  induction events using List.reverseRecOn with
  | nil => rfl
  | append_singleton events e ih =>
    rw [after_concat, List.filterMap_append, Topology.after_append, ← ih]
    cases e <;> rfl

theorem sound (peers : List Peer) (events : List Event) :
    (after peers events).topology.Sound := by
  rw [topology_after]
  exact Topology.sound_after peers _

theorem snapshots_next (t : Traffic) (e : Event) :
    t.topology.snapshots <:+ (t.next e).topology.snapshots := by
  cases e with
  | update list => exact t.topology.snapshots_suffix [.update list]
  | markDown host => exact t.topology.snapshots_suffix [.markDown 0 host]
  | markUp host => exact t.topology.snapshots_suffix [.markUp 0 host]
  | opens | asks => exact List.suffix_rfl

/-- What happens after a replacement is part of the history. -/
theorem Standing.replaced_concat {earlier : List Event} {list : List Peer} {later : List Event}
    {e : Event} (history : events = earlier ++ .update list :: later)
    (replaces : Replaces peers earlier list i n)
    (gone : n ∉ ((after peers events).next e).current.nodes)
    (agrees : ((after peers events).next e).topology.isUp n = true → .markDown n.host ∉ later →
      e ≠ .markDown n.host → ∀ c, ((after peers events).next e).current.node? n.host = some c →
        ((after peers events).next e).topology.isUp c = true) :
    Standing peers (events ++ [e]) i n := by
  rw [← after_concat] at gone agrees
  have hhistory : events ++ [e] = earlier ++ .update list :: (later ++ [e]) := by
    rw [history, List.append_assoc, List.cons_append]
  refine .replaced hhistory replaces gone fun up unmarked => ?_
  rw [List.mem_append, List.mem_singleton, not_or] at unmarked
  exact agrees up unmarked.1 (Ne.symm unmarked.2)

/-- A record stands if the current snapshot stays, marks do not bring it up once it was replaced,
    and only a mark on its host brings the current record of the host down. -/
theorem Standing.stays (h : Standing peers events i n) {e : Event}
    (current : ((after peers events).next e).current = (after peers events).current)
    (rises : n ∉ (after peers events).current.nodes →
      ((after peers events).next e).topology.isUp n = true →
      (after peers events).topology.isUp n = true)
    (falls : e ≠ .markDown n.host → ∀ c, (after peers events).current.node? n.host = some c →
      (after peers events).topology.isUp c = true →
      ((after peers events).next e).topology.isUp c = true) :
    Standing peers (events ++ [e]) i n := by
  cases h with
  | holds now => exact .holds (by rwa [after_concat, current])
  | replaced history replaces gone agrees =>
    refine .replaced_concat history replaces (by rwa [current]) fun up unmarked other c hc => ?_
    rw [current] at hc
    exact falls other c hc (agrees (rises gone up) unmarked c hc)

/-- An update keeps a record, or puts one in its place that is as up or down. -/
theorem Standing.updated (h : Standing peers events i n)
    (opened : i < (after peers events).plans.length)
    (held : s ∈ (after peers events).topology.snapshots) (mem : n ∈ s.nodes) (list : List Peer) :
    Standing peers (events ++ [.update list]) i n := by
  have hsound := sound peers events
  have hrenews := hsound.renews list
  have hlive := hrenews.live s held n mem
  cases h with
  | holds now =>
    by_cases hfirst : Peer.first? list n.host = some n.toPeer
    · have hkept := hrenews.kept n now hfirst
      refine .holds ?_
      rw [after_concat]
      exact (Snapshot.mem_of_node? hkept).1
    · have hgone := hsound.gone now hfirst
      refine .replaced rfl ⟨opened, now, hfirst⟩ (by rwa [after_concat]) fun up _ => ?_
      rw [after_concat] at up ⊢
      refine hsound.up_after_update list fun m hm => ?_
      obtain rfl : n = m := Option.some.inj ((hsound.node?_current now).symm.trans hm)
      exact hlive ▸ up
  | replaced history replaces gone agrees =>
    refine .replaced_concat history replaces (hsound.gone_for_good held mem gone list) ?_
    intro up unmarked _
    exact hsound.up_after_update list (agrees (hlive ▸ up) unmarked)

/-- What a record that a plan may hold comes to if something happens. -/
theorem Standing.next (h : Standing peers events i n)
    (opened : i < (after peers events).plans.length)
    (held : s ∈ (after peers events).topology.snapshots) (mem : n ∈ s.nodes) (e : Event) :
    Standing peers (events ++ [e]) i n := by
  have hsound := sound peers events
  cases e with
  | update list => exact h.updated opened held mem list
  | markDown host =>
    refine h.stays (Topology.next_markDown_current ..) (fun _ up => ?_) fun other c hc up => ?_
    · exact ((hsound.isUp_markDown held mem host).mp up).1
    · -- a mark on the record of another host does not reach this one
      obtain ⟨hmem, hhost⟩ := Snapshot.mem_of_node? hc
      refine (hsound.isUp_markDown hsound.mem_current hmem host).mpr ⟨up, fun marked => other ?_⟩
      have hsame : c.host = host := (Snapshot.mem_of_node? marked).2
      rw [← hsame, hhost]
  | markUp host =>
    refine h.stays (Topology.next_markUp_current ..) (fun gone up => ?_) fun _ c hc up => ?_
    · have hmarked := (hsound.isUp_markUp held mem host).mp up
      exact hmarked.resolve_right fun now => gone (Snapshot.mem_of_node? now).1
    · have hmem := (Snapshot.mem_of_node? hc).1
      exact (hsound.isUp_markUp hsound.mem_current hmem host).mpr (.inl up)
  | opens | asks => exact h.stays rfl (fun _ up => up) fun _ _ _ up => up

-- ============================================================================
-- Plans and their records
-- ============================================================================

/-- A plan is on a snapshot that was the current one once, with nothing left but nodes of it if its
    policy offers no others. -/
structure Follows (t : Traffic) (p : Plan) : Prop where
  snapshot : p.snapshot ∈ t.topology.snapshots
  left : p.policy.Confined p.snapshot p.snapshot.nodes → ∀ n ∈ p.left, n ∈ p.snapshot.nodes

theorem Follows.asked {t : Traffic} {p : Plan} (h : t.Follows p) : t.Follows (t.ask p).2.1 := by
  rcases hask : t.ask p with ⟨found, p', notes⟩
  have hyields := Plan.next_yields hask
  refine ⟨?_, ?_⟩
  · rw [hyields.snapshot]
    exact h.snapshot
  · rw [hyields.policy, hyields.snapshot]
    intro confined
    exact (hyields.confined confined (h.left confined)).1

/-- A plan that is there when something has happened was there before, and may have been asked, or
    it has just been opened. -/
theorem plans_next {t : Traffic} {e : Event} {p' : Plan} (h : (t.next e).plans[i]? = some p') :
    (∃ p, t.plans[i]? = some p ∧ (p' = p ∨ p' = (t.ask p).2.1)) ∨
      ∃ policy routing, e = .opens policy routing ∧ p' = Plan.new policy routing t.current := by
  cases e with
  | update | markDown | markUp => exact .inl ⟨p', h, .inl rfl⟩
  | opens policy routing =>
    rw [next, nextPlans, List.getElem?_append] at h
    split at h
    · exact .inl ⟨p', h, .inl rfl⟩
    · have hnew := List.mem_singleton.mp (List.mem_of_getElem? h)
      exact .inr ⟨policy, routing, rfl, hnew⟩
  | asks j =>
    rw [next, nextPlans, List.getElem?_modify] at h
    obtain ⟨p, hp, rfl⟩ := Option.map_eq_some_iff.mp h
    refine .inl ⟨p, hp, ?_⟩
    by_cases hj : j = i
    · exact .inr (if_pos hj)
    · exact .inl (if_neg hj)

/-- Every plan follows the topology, and each record of its snapshot stands. -/
theorem plans_stand (peers : List Peer) (events : List Event) {p : Plan}
    (plan : (after peers events).plans[i]? = some p) :
    (after peers events).Follows p ∧ ∀ n ∈ p.snapshot.nodes, Standing peers events i n := by
  induction events using List.reverseRecOn generalizing p with
  | nil => cases plan
  | append_singleton events e ih =>
    have hsuffix := snapshots_next (after peers events) e
    have hplan := plan
    rw [after_concat] at hplan
    rcases plans_next hplan with ⟨q, hq, hsame⟩ | ⟨policy, routing, rfl, rfl⟩
    · obtain ⟨hfollows, hstand⟩ := ih hq
      have hopened := (List.getElem?_eq_some_iff.mp hq).1
      have hasked : (after peers events).Follows p ∧ p.snapshot = q.snapshot := by
        rcases hsame with rfl | rfl
        · exact ⟨hfollows, rfl⟩
        · exact ⟨hfollows.asked, (Plan.next_yields rfl).snapshot⟩
      obtain ⟨hfollows', hsnapshot⟩ := hasked
      refine ⟨⟨?_, hfollows'.left⟩, fun n hn => ?_⟩
      · rw [after_concat]
        exact hsuffix.subset hfollows'.snapshot
      · rw [hsnapshot] at hn
        exact (hstand n hn).next hopened hfollows.snapshot hn e
    · have hcurrent : ((after peers events).next (.opens policy routing)).current =
          (after peers events).current := rfl
      refine ⟨⟨?_, fun _ n hn => absurd hn List.not_mem_nil⟩, fun n hn => .holds ?_⟩
      · exact after_concat peers events _ ▸ hsuffix.subset (sound peers events).mem_current
      · rwa [after_concat, hcurrent]

/-- A plan yields no record that is down. If the policy offers nodes of the snapshot only, it is one
    of these; and then the host is up at the moment as well, unless the record has been overtaken
    since the plan was opened. -/
theorem heeds_or_overtaken (peers : List Peer) (events : List Event) {p : Plan} {c : Node}
    (plan : (after peers events).plans[i]? = some p)
    (yields : ((after peers events).ask p).1 = some n)
    (now : (after peers events).current.node? n.host = some c) :
    (after peers events).topology.isUp n = true ∧
      (p.policy.Confined p.snapshot p.snapshot.nodes → n ∈ p.snapshot.nodes) ∧
      (n ∈ p.snapshot.nodes →
        (after peers events).topology.isUp c = true ∨ Overtaken peers events i n) := by
  obtain ⟨follows, stand⟩ := plans_stand peers events plan
  rcases hask : (after peers events).ask p with ⟨found, p', notes⟩
  rw [hask] at yields
  have hyields := Plan.next_yields hask
  have up : (after peers events).topology.isUp n = true := (hyields.some_found n yields).2.1
  refine ⟨up, fun confined => ?_, fun own => ?_⟩
  · exact (hyields.confined confined (follows.left confined)).2 n yields
  · cases stand n own with
    | holds mem =>
      have hcurrent := (sound peers events).node?_current mem
      rw [← Option.some.inj (hcurrent.symm.trans now)]
      exact .inl up
    | @replaced earlier list later history replaces gone agrees =>
      by_cases hmarked : .markDown n.host ∈ later
      · exact .inr ⟨earlier, list, later, history, replaces, hmarked⟩
      · exact .inl (agrees up hmarked c now)

/-- A host that is down is yielded since its record was overtaken. -/
theorem heeds_or_overtaken_of_moved :
    let t := after [⟨default, default, some "old", none⟩] movedAway
    ∃ p n c, t.plans[0]? = some p ∧ (t.ask p).1 = some n ∧ t.current.node? n.host = some c ∧
      t.topology.isUp c = false ∧ t.topology.isUp n = true ∧ n ∈ p.snapshot.nodes ∧
      Overtaken [⟨default, default, some "old", none⟩] movedAway 0 n := by
  have down : (after [⟨default, default, some "old", none⟩] movedAway).topology.isUp
      ⟨1, default, default, some "new", none⟩ = false := by decide
  obtain ⟨up, confined, heeded⟩ := heeds_or_overtaken [⟨default, default, some "old", none⟩]
    movedAway (i := 0) (n := ⟨0, default, default, some "old", none⟩)
    (c := ⟨1, default, default, some "new", none⟩) rfl rfl rfl
  have own := confined (BalancingPolicy.localFirst_confined ..)
  refine ⟨_, _, _, rfl, rfl, rfl, down, up, own, (heeded own).resolve_left ?_⟩
  exact (Bool.not_eq_true _).mpr down

end Histories

end Traffic

end RequestEngine
