/-
  RequestEngine.Proofs.Cluster.Topology

  The host directory over time: updates of the topology, and marks of nodes that
  somebody may have got hold of long ago.  Whatever happens, no two records have
  one number, so that a number stands for one record with its attributes, and what
  an update makes of a host depends on its peers and its old record alone.

    * `Topology`            — a directory with the snapshots that it has had;
    * `Topology.Event`      — what may happen, and `Topology.after`;
    * `Topology.Sound`      — what always holds, `sound_after`;
    * `Topology.Reflects`, `Renews`, `Keeps` — what the current snapshot holds, what an
      update makes of it, and what stays; `Topology.maintained`.
-/
import RequestEngine.Proofs.Cluster.Update

namespace RequestEngine

/-- A directory with the snapshots that it has had, the current one first, and the latest list of
    peers. -/
structure Topology where
  directory : Directory := {}
  snapshots : List Snapshot := [{}]
  peers : List Peer := []

namespace Topology

/-- What may happen to a directory. A mark is made on the record of a host in the snapshot that
    was the current one so many updates ago. -/
inductive Event where
  | update (peers : List Peer)
  | markDown (age : Nat) (host : HostId)
  | markUp (age : Nat) (host : HostId)
  deriving DecidableEq, Repr

/-- The record of a host in the snapshot of some age. -/
def node? (t : Topology) (age : Nat) (host : HostId) : Option Node :=
  t.snapshots[age]?.bind fun s => s.node? host

/-- Whether a node is believed to be reachable. -/
def isUp (t : Topology) (n : Node) : Bool :=
  t.directory.liveness.isUp n

/-- What is left when something has happened. There is nothing to mark if the snapshot does not
    have the host. -/
def next (t : Topology) : Event → Topology
  | .update peers =>
    let d := (t.directory.update peers).1
    { directory := d, snapshots := d.current :: t.snapshots, peers }
  | .markDown age host =>
    match t.node? age host with
    | some n => { t with directory := t.directory.markDown n }
    | none => t
  | .markUp age host =>
    match t.node? age host with
    | some n => { t with directory := t.directory.markUp n }
    | none => t

/-- What is left after all that has happened. -/
def after (t : Topology) (events : List Event) : Topology :=
  events.foldl next t

/-- The directory of a list of peers. -/
def start (peers : List Peer) : Topology :=
  next {} (.update peers)

@[simp] theorem after_append (t : Topology) (events later : List Event) :
    t.after (events ++ later) = (t.after events).after later :=
  List.foldl_append

variable {t : Topology} {n m : Node} {s : Snapshot}

theorem mem_of_node? {age : Nat} {host : HostId} (h : t.node? age host = some n) :
    ∃ s ∈ t.snapshots, n ∈ s.nodes ∧ n.host = host := by
  obtain ⟨s, hs, hn⟩ := Option.bind_eq_some_iff.mp h
  exact ⟨s, List.mem_of_getElem? hs, Snapshot.mem_of_node? hn⟩

-- ============================================================================
-- What always holds
-- ============================================================================

/-- No snapshot has the record. -/
def Unseen (t : Topology) (n : Node) : Prop :=
  ∀ s ∈ t.snapshots, ∀ m ∈ s.nodes, m.serial ≠ n.serial

/-- Records are numbered, and each snapshot has one of each host. -/
structure Sound (t : Topology) : Prop where
  ready : t.directory.Ready
  current : t.snapshots.head? = some t.directory.current
  made : ∀ s ∈ t.snapshots, t.directory.Made s
  identified : ∀ s ∈ t.snapshots, ∀ n ∈ s.nodes, ∀ s' ∈ t.snapshots, ∀ m ∈ s'.nodes,
    n.serial = m.serial → n = m
  distinct : ∀ s ∈ t.snapshots, (s.nodes.map Node.host).Nodup
  listed : t.directory.current.nodes.map Node.toPeer = Peer.firsts t.peers
  registered : ∃ records, records.map Node.toPeer = t.peers ∧
    (Register.ofNodes records).nodes = t.directory.current.nodes ∧
    (Register.ofNodes records).known = t.directory.current.node?

theorem Sound.mem_current (h : t.Sound) : t.directory.current ∈ t.snapshots :=
  List.mem_of_head? h.current

theorem Sound.updates (h : t.Sound) (peers : List Peer) :
    t.directory.Updates peers (t.next (.update peers)).directory :=
  Directory.update_updates _ peers (h.made _ h.mem_current) h.ready

theorem Sound.unseen (h : t.Sound) {d : Directory} (fresh : t.directory.Fresh d n) : t.Unseen n :=
  fun s hs m hm => Nat.ne_of_lt (Nat.lt_of_lt_of_le (h.made s hs m hm) fresh.unseen)

/-- Marks on records that have been made leave those that are yet to come alone. -/
theorem Sound.marked (h : t.Sound) {liveness : Liveness}
    (ready : { t.directory with liveness }.Ready) :
    Sound { t with directory := { t.directory with liveness } } :=
  { h with ready }

theorem Sound.updated (h : t.Sound) (peers : List Peer) : (t.next (.update peers)).Sound := by
  have u := h.updates peers
  have hgrown : ∀ s ∈ t.snapshots, (t.next (.update peers)).directory.Made s :=
    fun s hs => u.grows.made (h.made s hs)
  -- a record of the new snapshot is none of an old one unless it is that record
  have hold : ∀ n ∈ (t.next (.update peers)).directory.current.nodes, ∀ s ∈ t.snapshots,
      ∀ m ∈ s.nodes, n.serial = m.serial → n = m := by
    intro n hn s hs m hm same
    rcases u.origin n hn with old | fresh
    · exact h.identified _ h.mem_current n old s hs m hm same
    · exact absurd same.symm (h.unseen fresh s hs m hm)
  refine ⟨u.grows.ready, rfl, ?_, ?_, ?_, u.listed, Directory.update_registered ..⟩
  · refine List.forall_mem_cons.mpr ⟨fun n hn => ?_, hgrown⟩
    rcases u.origin n hn with old | fresh
    · exact hgrown _ h.mem_current n old
    · exact fresh.made
  · refine List.forall_mem_cons.mpr ⟨fun n hn => ?_, fun s hs n hn => ?_⟩
    · refine List.forall_mem_cons.mpr ⟨fun m hm same => ?_, hold n hn⟩
      rcases u.numbered n hn m hm same with heq | made
      · exact heq
      · rcases u.origin m hm with old | fresh
        · exact hold n hn _ h.mem_current m old same
        · exact absurd made (Nat.not_lt.mpr fresh.unseen)
    · refine List.forall_mem_cons.mpr ⟨fun m hm same => ?_, h.identified s hs n hn⟩
      exact (hold m hm s hs n hn same.symm).symm
  · exact List.forall_mem_cons.mpr ⟨u.distinct, h.distinct⟩

theorem Sound.next (h : t.Sound) (e : Event) : (t.next e).Sound := by
  have hmade {n : Node} {age : Nat} {host : HostId} (hnode : t.node? age host = some n) :
      n.serial < t.directory.nextSerial := by
    obtain ⟨s, hs, hn, -⟩ := mem_of_node? hnode
    exact h.made s hs n hn
  cases e with
  | update peers => exact h.updated peers
  | markDown age host =>
    cases hnode : t.node? age host with
    | none => simpa only [Topology.next, hnode] using h
    | some n =>
      simp only [Topology.next, hnode]
      refine h.marked fun m hm => ?_
      have hother : m.serial ≠ n.serial := Nat.ne_of_gt (Nat.lt_of_lt_of_le (hmade hnode) hm)
      simp [Liveness.isUp_markDown, h.ready m hm, hother]
  | markUp age host =>
    cases hnode : t.node? age host with
    | none => simpa only [Topology.next, hnode] using h
    | some n =>
      simp only [Topology.next, hnode]
      refine h.marked fun m hm => ?_
      simp [Liveness.isUp_markUp, h.ready m hm]

theorem sound_empty : Sound {} where
  ready _ _ := rfl
  current := rfl
  made := by simp [Directory.Made]
  identified := by simp
  distinct := by simp
  listed := rfl
  registered := ⟨[], rfl, rfl, rfl⟩

theorem Sound.after (h : t.Sound) (events : List Event) : (t.after events).Sound := by
  induction events generalizing t with
  | nil => exact h
  | cons e rest ih => exact ih (h.next e)

theorem sound_after (peers : List Peer) (events : List Event) :
    ((start peers).after events).Sound :=
  (sound_empty.next (.update peers)).after events

-- ============================================================================
-- What an update makes of each host
-- ============================================================================

/-- The current snapshot has one record for each host of the latest list of peers, in the order in
    which the list has the hosts first, and with the attributes that it has there first. A map that
    is filled together with the list of records finds the same. -/
structure Reflects (t : Topology) : Prop where
  distinct : (t.directory.current.nodes.map Node.host).Nodup
  listed : t.directory.current.nodes.map Node.toPeer = Peer.firsts t.peers
  found : ∀ host n, t.directory.current.node? host = some n ↔
    n ∈ t.directory.current.nodes ∧ n.host = host
  registered : ∃ records, records.map Node.toPeer = t.peers ∧
    (Register.ofNodes records).nodes = t.directory.current.nodes ∧
    (Register.ofNodes records).known = t.directory.current.node?

/-- What an update to a list of peers makes of each host. -/
structure Renews (t t' : Topology) (peers : List Peer) : Prop where
  /-- A host that has not changed keeps its record. -/
  kept : ∀ n ∈ t.directory.current.nodes, Peer.first? peers n.host = some n.toPeer →
    t'.directory.current.node? n.host = some n
  /-- One that has changed gets a new record that stands for the same member and is as up or down
      as the old one. -/
  changed : ∀ n ∈ t.directory.current.nodes, ∀ p, Peer.first? peers n.host = some p →
    n.toPeer ≠ p → ∃ n', t'.directory.current.node? n.host = some n' ∧ n'.toPeer = p ∧
      n'.sameHost n = true ∧ t.Unseen n' ∧ t'.isUp n' = t.isUp n
  /-- One that was not there before gets a new record that is up. -/
  added : ∀ host p, t.directory.current.node? host = none → Peer.first? peers host = some p →
    ∃ n', t'.directory.current.node? host = some n' ∧ n'.toPeer = p ∧ t.Unseen n' ∧
      t'.isUp n' = true
  gone : ∀ host, Peer.first? peers host = none → t'.directory.current.node? host = none
  /-- All records that were there before are as up or down as they were. -/
  live : ∀ s ∈ t.snapshots, ∀ n ∈ s.nodes, t'.isUp n = t.isUp n

/-- Snapshots stay what they are, and so do the attributes of their records. -/
structure Keeps (t t' : Topology) : Prop where
  snapshots : t.snapshots <:+ t'.snapshots
  attributes : ∀ s ∈ t.snapshots, ∀ n ∈ s.nodes, ∀ s' ∈ t'.snapshots, ∀ m ∈ s'.nodes,
    m.serial = n.serial → m = n

theorem Sound.reflects (h : t.Sound) : t.Reflects where
  distinct := h.distinct _ h.mem_current
  listed := h.listed
  found _ _ := Snapshot.node?_eq_some_iff (h.distinct _ h.mem_current)
  registered := h.registered

theorem Sound.node?_current (h : t.Sound) (hn : n ∈ t.directory.current.nodes) :
    t.directory.current.node? n.host = some n :=
  (Snapshot.node?_eq_some_iff (h.distinct _ h.mem_current)).mpr ⟨hn, rfl⟩

theorem first?_host {peers : List Peer} {host : HostId} {p : Peer}
    (h : Peer.first? peers host = some p) : p.host = host := by
  have hhost := List.find?_some h
  exact of_decide_eq_true hhost

theorem Sound.renews (h : t.Sound) (peers : List Peer) :
    t.Renews (t.next (.update peers)) peers := by
  have u := h.updates peers
  refine ⟨fun n hn hp => ?_, fun n hn p hp differs => ?_, fun host p hnone hp => ?_, u.missing,
    fun s hs n hn => u.grows.live n (h.made s hs n hn)⟩
  · obtain ⟨n', hn', enrolled⟩ := u.enrolled _ _ hp
    have hsame : n' = n := enrolled.eq_of_same (h.node?_current hn) rfl
    rwa [hsame] at hn'
  · obtain ⟨n', hn', enrolled⟩ := u.enrolled _ _ hp
    have hhost : p.host = n.host := first?_host hp
    have hknown : t.directory.current.node? p.host = some n := hhost ▸ h.node?_current hn
    obtain ⟨fresh, live⟩ := enrolled.of_differs hknown differs
    exact ⟨n', hn', enrolled.toPeer, decide_eq_true (enrolled.host.trans hhost), h.unseen fresh,
      live⟩
  · obtain ⟨n', hn', enrolled⟩ := u.enrolled _ _ hp
    have hhost : p.host = host := first?_host hp
    obtain ⟨fresh, up⟩ := enrolled.of_unknown (hhost ▸ hnone)
    exact ⟨n', hn', enrolled.toPeer, h.unseen fresh, up⟩

theorem snapshots_suffix (t : Topology) (events : List Event) :
    t.snapshots <:+ (t.after events).snapshots := by
  induction events generalizing t with
  | nil => exact List.suffix_rfl
  | cons e rest ih =>
    refine List.IsSuffix.trans ?_ (ih (t.next e))
    cases e with
    | update => exact List.suffix_cons ..
    | markDown | markUp =>
      simp only [next]
      split <;> exact List.suffix_rfl

theorem Sound.keeps (h : t.Sound) (later : List Event) : t.Keeps (t.after later) where
  snapshots := snapshots_suffix t later
  attributes s hs n hn s' hs' m hm :=
    (h.after later).identified s' hs' m hm s ((snapshots_suffix t later).subset hs) n hn

/-- After any updates and marks the current snapshot reflects the latest list of peers, the next
    update renews it host by host, and earlier snapshots stay as they are. Nobody is down at the
    start. -/
theorem maintained (peers : List Peer) (events : List Event) :
    (∀ n ∈ (start peers).directory.current.nodes, (start peers).isUp n = true) ∧
      ((start peers).after events).Reflects ∧
      (∀ list, ((start peers).after events).Renews
        ((start peers).after (events ++ [.update list])) list) ∧
      ∀ later, ((start peers).after events).Keeps ((start peers).after (events ++ later)) := by
  have h := sound_after peers events
  have hstart : Sound (start peers) := sound_empty.next (.update peers)
  refine ⟨fun n hn => ?_, h.reflects, fun list => ?_, fun later => ?_⟩
  · have hp : Peer.first? peers n.host ≠ none := fun hnone => by
      have hgone := (sound_empty.renews peers).gone _ hnone
      cases hgone.symm.trans (hstart.node?_current hn)
    obtain ⟨p, hp⟩ := Option.ne_none_iff_exists'.mp hp
    obtain ⟨n', hn', -, -, up⟩ := (sound_empty.renews peers).added n.host p rfl hp
    rwa [← Option.some.inj (hn'.symm.trans (hstart.node?_current hn))]
  · rw [after_append]
    exact h.renews list
  · rw [after_append]
    exact h.keeps later

end Topology

end RequestEngine
