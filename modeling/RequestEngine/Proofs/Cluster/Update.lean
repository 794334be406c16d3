/-
  RequestEngine.Proofs.Cluster.Update

  What an update makes of the host directory.  Of the peers of a list the first of
  each host counts.  Its record is the one that the host has already if nothing
  changed, and else one that nobody has seen before, with a number of its own.

    * `Peer.firsts`             — the peers of a list that count;
    * `Register`                — a map and a list that are filled together, record by
      record; a snapshot finds the same by its list alone (`Register.ofNodes_eq`);
    * `Directory.Enrolled`      — the record that a peer gets beside an old snapshot;
    * `Directory.update_updates` — what becomes of the records of all hosts.
-/
import Mathlib.Data.List.Nodup
import Mathlib.Data.List.Pairwise
import Mathlib.Logic.Function.Basic
import RequestEngine.Cluster.Directory

namespace RequestEngine

-- ============================================================================
-- The first of each host
-- ============================================================================

namespace Peer

/-- The first peer of each host, in order. -/
def firsts (peers : List Peer) : List Peer :=
  peers.eraseDupsBy fun p q => p.host = q.host

/-- The first peer of a host. -/
def first? (peers : List Peer) (host : HostId) : Option Peer :=
  peers.find? fun p => p.host = host

end Peer

/-- The first of each class among images are the images of the first of each class. -/
theorem eraseDupsBy_map {α β : Type} (f : α → β) (same : β → β → Bool) (l : List α) :
    (l.map f).eraseDupsBy same = (l.eraseDupsBy fun a b => same (f a) (f b)).map f := by
  -- the recursion goes on with a part of the tail, so the induction is on the length
  induction hlen : l.length using Nat.strongRecOn generalizing l with
  | _ k ih =>
    cases l with
    | nil => rfl
    | cons a rest =>
      have hshorter : (rest.filter fun b => same (f b) (f a) = false).length < k := by
        rw [← hlen, List.length_cons]
        exact Nat.lt_succ_of_le (List.length_filter_le ..)
      rw [List.map_cons, List.eraseDupsBy_cons, List.eraseDupsBy_cons, List.map_cons,
        List.filter_map]
      exact congrArg _ (ih _ hshorter _ rfl)

namespace Snapshot

variable {seen : List HostId} {nodes : List Node} {n : Node} {host : HostId}

/-- What is kept of a list are the first nodes of the hosts that were not seen before. -/
theorem firstOfEachHost_eq (seen : List HostId) (nodes : List Node) :
    (firstOfEachHost seen nodes).1 =
      (nodes.filter fun n => n.host ∉ seen).eraseDupsBy Node.sameHost := by
  induction nodes generalizing seen with
  | nil => rfl
  | cons n rest ih =>
    simp only [firstOfEachHost]
    split
    · rename_i known
      rw [List.filter_cons_of_neg (by simpa using known)]
      exact ih seen
    · rename_i new
      rw [List.filter_cons_of_pos (by simpa using new), List.eraseDupsBy_cons, List.filter_filter]
      refine congrArg _ ((ih (n.host :: seen)).trans (congrArg _ (List.filter_congr ?_)))
      intro m _
      simp [Node.sameHost, not_or]

theorem firstOfEachHost_sublist (seen : List HostId) (nodes : List Node) :
    (firstOfEachHost seen nodes).1.Sublist nodes := by
  induction nodes generalizing seen with
  | nil => exact .slnil
  | cons n rest ih =>
    simp only [firstOfEachHost]
    split
    · exact .cons n (ih seen)
    · exact .cons_cons n (ih (n.host :: seen))

/-- What is kept has hosts of its own, none of which was seen before. -/
theorem firstOfEachHost_nodup (seen : List HostId) (nodes : List Node) :
    ((firstOfEachHost seen nodes).1.map Node.host).Nodup ∧
      ∀ n ∈ (firstOfEachHost seen nodes).1, n.host ∉ seen := by
  induction nodes generalizing seen with
  | nil => exact ⟨List.nodup_nil, by simp [firstOfEachHost]⟩
  | cons n rest ih =>
    simp only [firstOfEachHost]
    split
    · exact ih seen
    · rename_i new
      obtain ⟨hnodup, hnew⟩ := ih (n.host :: seen)
      constructor
      · refine List.nodup_cons.mpr ⟨fun hmem => ?_, hnodup⟩
        obtain ⟨m, hm, hhost⟩ := List.mem_map.mp hmem
        exact hnew m hm (hhost ▸ List.mem_cons_self)
      · refine List.forall_mem_cons.mpr ⟨new, fun m hm hseen => ?_⟩
        exact hnew m hm (List.mem_cons_of_mem _ hseen)

/-- A host that was not seen before is found where the list has it first. -/
theorem find?_firstOfEachHost (seen : List HostId) (nodes : List Node) (unseen : host ∉ seen) :
    (firstOfEachHost seen nodes).1.find? (fun n => n.host = host) =
      nodes.find? fun n => n.host = host := by
  induction nodes generalizing seen with
  | nil => rfl
  | cons n rest ih =>
    simp only [firstOfEachHost]
    by_cases hhost : n.host = host
    · rw [if_neg (hhost ▸ unseen), List.find?_cons_of_pos (by simpa using hhost),
        List.find?_cons_of_pos (by simpa using hhost)]
    · rw [List.find?_cons_of_neg (by simpa using hhost)]
      split
      · exact ih seen unseen
      · rw [List.find?_cons_of_neg (by simpa using hhost)]
        refine ih (n.host :: seen) fun hmem => ?_
        exact (List.mem_cons.mp hmem).elim (fun heq => hhost heq.symm) unseen

theorem ofNodes_nodup (nodes : List Node) : ((ofNodes nodes).1.nodes.map Node.host).Nodup :=
  (firstOfEachHost_nodup [] nodes).1

theorem mem_of_mem_ofNodes (h : n ∈ (ofNodes nodes).1.nodes) : n ∈ nodes :=
  (firstOfEachHost_sublist [] nodes).subset h

theorem node?_ofNodes (nodes : List Node) (host : HostId) :
    (ofNodes nodes).1.node? host = nodes.find? fun n => n.host = host :=
  find?_firstOfEachHost [] nodes List.not_mem_nil

/-- The peers behind a snapshot are the first ones of the peers behind its nodes. -/
theorem ofNodes_toPeer (nodes : List Node) :
    (ofNodes nodes).1.nodes.map Node.toPeer = Peer.firsts (nodes.map Node.toPeer) := by
  have hunseen : nodes.filter (fun n => n.host ∉ ([] : List HostId)) = nodes :=
    List.filter_eq_self.mpr fun n _ => by simp
  have hkept : (ofNodes nodes).1.nodes = nodes.eraseDupsBy Node.sameHost :=
    (firstOfEachHost_eq [] nodes).trans (congrArg _ hunseen)
  rw [hkept, Peer.firsts, eraseDupsBy_map]
  rfl

theorem mem_of_node? {s : Snapshot} (h : s.node? host = some n) : n ∈ s.nodes ∧ n.host = host := by
  refine ⟨List.mem_of_find?_eq_some h, ?_⟩
  have hhost := List.find?_some h
  exact of_decide_eq_true hhost

/-- If hosts are distinct, a host is looked up where it is. -/
theorem node?_eq_some_iff {s : Snapshot} (distinct : (s.nodes.map Node.host).Nodup) :
    s.node? host = some n ↔ n ∈ s.nodes ∧ n.host = host := by
  constructor
  · exact mem_of_node?
  · rintro ⟨mem, rfl⟩
    cases hfound : s.node? n.host with
    | none =>
      have hnone := List.find?_eq_none.mp hfound n mem
      simp at hnone
    | some m =>
      obtain ⟨hm, hhost⟩ := mem_of_node? hfound
      rw [List.inj_on_of_nodup_map distinct hm mem hhost]

end Snapshot

-- ============================================================================
-- A map beside the list
-- ============================================================================

/-- Records by host beside the list of them. -/
structure Register where
  known : HostId → Option Node := fun _ => none
  nodes : List Node := []

namespace Register

/-- Puts a record into the map and the list, unless its host is in the map already. -/
def add (r : Register) (n : Node) : Register :=
  if (r.known n.host).isSome then r
  else { known := Function.update r.known n.host (some n), nodes := r.nodes ++ [n] }

/-- The register of a list of records. -/
def ofNodes (nodes : List Node) : Register :=
  nodes.foldl add {}

/-- The hosts of `seen` are those that a register knows. -/
def Knows (r : Register) (seen : List HostId) : Prop :=
  ∀ host, (r.known host).isSome ↔ host ∈ seen

/-- A register that is filled further lists what is kept of the records, and maps each host to
    the record that it knew, or else to the first one. -/
theorem foldl_add {r : Register} {seen : List HostId} (nodes : List Node) (h : r.Knows seen) :
    (nodes.foldl add r).nodes = r.nodes ++ (Snapshot.firstOfEachHost seen nodes).1 ∧
      ∀ host, (nodes.foldl add r).known host =
        (r.known host).or (nodes.find? fun n => n.host = host) := by
  induction nodes generalizing r seen with
  | nil => exact ⟨(List.append_nil _).symm, fun host => (Option.or_none).symm⟩
  | cons n rest ih =>
    simp only [List.foldl_cons, Snapshot.firstOfEachHost]
    by_cases hknown : (r.known n.host).isSome
    · rw [if_pos ((h n.host).mp hknown), add, if_pos hknown]
      obtain ⟨hnodes, hmap⟩ := ih h
      refine ⟨hnodes, fun host => (hmap host).trans ?_⟩
      by_cases hhost : n.host = host
      · obtain ⟨m, hm⟩ := Option.isSome_iff_exists.mp (hhost ▸ hknown)
        rw [hm, Option.some_or, Option.some_or]
      · rw [List.find?_cons_of_neg (by simpa using hhost)]
    · rw [if_neg (mt (h n.host).mpr hknown), add, if_neg hknown]
      have hgrown : Knows ⟨Function.update r.known n.host (some n), r.nodes ++ [n]⟩
          (n.host :: seen) := by
        intro host
        by_cases hhost : host = n.host
        · simp [hhost]
        · simpa [Function.update_of_ne hhost, hhost] using h host
      obtain ⟨hnodes, hmap⟩ := ih hgrown
      refine ⟨hnodes.trans (List.append_assoc ..), fun host => (hmap host).trans ?_⟩
      dsimp only
      by_cases hhost : n.host = host
      · subst hhost
        rw [Function.update_self, List.find?_cons_of_pos (by simp), Option.some_or,
          Option.not_isSome_iff_eq_none.mp hknown, Option.none_or]
      · rw [Function.update_of_ne (Ne.symm hhost), List.find?_cons_of_neg (by simpa using hhost)]

/-- The map and the list of a register hold the records that a snapshot holds. -/
theorem ofNodes_eq (nodes : List Node) :
    (ofNodes nodes).nodes = (Snapshot.ofNodes nodes).1.nodes ∧
      (ofNodes nodes).known = (Snapshot.ofNodes nodes).1.node? := by
  have hnothing : Knows {} [] := fun host => by simp
  obtain ⟨hnodes, hmap⟩ := foldl_add nodes hnothing
  refine ⟨hnodes, funext fun host => (hmap host).trans ?_⟩
  rw [Option.none_or, Snapshot.node?_ofNodes]

end Register

-- ============================================================================
-- One update
-- ============================================================================

namespace Directory

variable {old : Snapshot} {d d' e e' : Directory} {p : Peer} {n : Node}

theorem enroll_toPeer (old : Snapshot) (d : Directory) (p : Peer) :
    (enroll old d p).2.toPeer = p := by
  unfold enroll
  split
  · split
    · rename_i same
      exact same
    · rfl
  · rfl

theorem enrollAll_toPeer (old : Snapshot) (d : Directory) (peers : List Peer) :
    (enrollAll old d peers).2.map Node.toPeer = peers := by
  induction peers generalizing d with
  | nil => rfl
  | cons p rest ih => simp only [enrollAll, List.map_cons, enroll_toPeer, ih]

/-- No record that is yet to be made is marked. -/
def Ready (d : Directory) : Prop :=
  ∀ n : Node, d.nextSerial ≤ n.serial → d.liveness.isUp n = true

/-- The records of a snapshot have been made. -/
def Made (d : Directory) (s : Snapshot) : Prop :=
  ∀ n ∈ s.nodes, n.serial < d.nextSerial

/-- More records have been made, and those that were there before are as up or down as they
    were. -/
structure Grows (d d' : Directory) : Prop where
  serials : d.nextSerial ≤ d'.nextSerial
  live : ∀ n : Node, n.serial < d.nextSerial → d'.liveness.isUp n = d.liveness.isUp n
  ready : d'.Ready

theorem Grows.refl (h : d.Ready) : d.Grows d :=
  ⟨Nat.le_refl _, fun _ _ => rfl, h⟩

theorem Grows.trans (h : d.Grows e) (h' : e.Grows d') : d.Grows d' where
  serials := Nat.le_trans h.serials h'.serials
  live n hn := (h'.live n (Nat.lt_of_lt_of_le hn h.serials)).trans (h.live n hn)
  ready := h'.ready

theorem Grows.made (h : d.Grows d') (made : d.Made old) : d'.Made old :=
  fun n hn => Nat.lt_of_lt_of_le (made n hn) h.serials

/-- A record that was made between two moments. -/
structure Fresh (d d' : Directory) (n : Node) : Prop where
  unseen : d.nextSerial ≤ n.serial
  made : n.serial < d'.nextSerial

/-- The record that a peer has got beside an old snapshot: that of its host if nothing has
    changed, else a fresh one, which is up unless that of its host is down. -/
inductive Enrolled (old : Snapshot) (d d' : Directory) (p : Peer) (n : Node) : Prop
  | kept (known : old.node? p.host = some n) (same : n.toPeer = p)
  | changed {m : Node} (known : old.node? p.host = some m) (differs : m.toPeer ≠ p)
      (peer : n.toPeer = p) (fresh : d.Fresh d' n)
      (live : d'.liveness.isUp n = d.liveness.isUp m)
  | added (unknown : old.node? p.host = none) (peer : n.toPeer = p) (fresh : d.Fresh d' n)
      (up : d'.liveness.isUp n = true)

theorem Enrolled.toPeer (h : Enrolled old d d' p n) : n.toPeer = p := by
  cases h with
  | kept _ same => exact same
  | changed _ _ peer | added _ peer => exact peer

theorem Enrolled.host (h : Enrolled old d d' p n) : n.host = p.host :=
  congrArg Peer.host h.toPeer

theorem Enrolled.eq_of_same {m : Node} (h : Enrolled old d d' p n)
    (known : old.node? p.host = some m) (same : m.toPeer = p) : n = m := by
  cases h with
  | kept known' => exact Option.some.inj (known'.symm.trans known)
  | changed known' differs =>
    rw [Option.some.inj (known'.symm.trans known)] at differs
    exact absurd same differs
  | added unknown => cases unknown.symm.trans known

theorem Enrolled.of_differs {m : Node} (h : Enrolled old d d' p n)
    (known : old.node? p.host = some m) (differs : m.toPeer ≠ p) :
    d.Fresh d' n ∧ d'.liveness.isUp n = d.liveness.isUp m := by
  cases h with
  | kept known' same =>
    rw [Option.some.inj (known'.symm.trans known)] at same
    exact absurd same differs
  | changed known' _ _ fresh live =>
    rw [Option.some.inj (known'.symm.trans known)] at live
    exact ⟨fresh, live⟩
  | added unknown => cases unknown.symm.trans known

theorem Enrolled.of_unknown (h : Enrolled old d d' p n) (unknown : old.node? p.host = none) :
    d.Fresh d' n ∧ d'.liveness.isUp n = true := by
  cases h with
  | kept known | changed known => cases known.symm.trans unknown
  | added _ _ fresh up => exact ⟨fresh, up⟩

/-- A record is an old one or fresh. -/
theorem Enrolled.old_or_fresh (h : Enrolled old d d' p n) : n ∈ old.nodes ∨ d.Fresh d' n := by
  cases h with
  | kept known => exact .inl (List.mem_of_find?_eq_some known)
  | changed _ _ _ fresh | added _ _ fresh => exact .inr fresh

/-- Records that are made before and after do not matter. -/
theorem Enrolled.within (h : Enrolled old e e' p n) (made : d.Made old) (before : d.Grows e)
    (after : e'.Grows d') : Enrolled old d d' p n := by
  have hfresh (f : e.Fresh e' n) : d.Fresh d' n :=
    ⟨Nat.le_trans before.serials f.unseen, Nat.lt_of_lt_of_le f.made after.serials⟩
  cases h with
  | kept known same => exact .kept known same
  | @changed m known differs peer fresh live =>
    have hm : m.serial < d.nextSerial := made m (List.mem_of_find?_eq_some known)
    refine .changed known differs peer (hfresh fresh) ?_
    rw [after.live n fresh.made, live, before.live m hm]
  | added unknown peer fresh up =>
    exact .added unknown peer (hfresh fresh) ((after.live n fresh.made).trans up)

/-- One peer is enrolled. -/
theorem enroll_enrolled (made : d.Made old) (ready : d.Ready) :
    d.Grows (enroll old d p).1 ∧ Enrolled old d (enroll old d p).1 p (enroll old d p).2 := by
  have hfresh (l : Liveness) :
      d.Fresh { d with liveness := l, nextSerial := d.nextSerial + 1 }
        (Node.ofPeer d.nextSerial p) := ⟨Nat.le_refl _, Nat.lt_succ_self _⟩
  have hup : d.liveness.isUp (Node.ofPeer d.nextSerial p) = true := ready _ (Nat.le_refl _)
  have hgrows : d.Grows { d with nextSerial := d.nextSerial + 1 } :=
    ⟨Nat.le_succ _, fun _ _ => rfl, fun n hn => ready n (Nat.le_of_succ_le hn)⟩
  unfold enroll
  cases hknown : old.node? p.host with
  | none => exact ⟨hgrows, .added hknown rfl (hfresh _) hup⟩
  | some m =>
    dsimp only
    by_cases hsame : m.toPeer = p
    · rw [if_pos hsame]
      exact ⟨.refl ready, .kept hknown hsame⟩
    · rw [if_neg hsame]
      have hm : m.serial < d.nextSerial := made m (List.mem_of_find?_eq_some hknown)
      cases hlive : d.liveness.isUp m with
      | true => exact ⟨hgrows, .changed hknown hsame rfl (hfresh _) (hup.trans hlive.symm)⟩
      | false =>
        refine ⟨⟨Nat.le_succ _, fun n hn => ?_, fun n hn => ?_⟩,
          .changed hknown hsame rfl (hfresh _) ?_⟩
        · have hother : n.serial ≠ d.nextSerial := Nat.ne_of_lt hn
          simp [Liveness.isUp_markDown, Node.ofPeer, hother]
        · have hother : n.serial ≠ d.nextSerial := Nat.ne_of_gt hn
          simp [Liveness.isUp_markDown, Node.ofPeer, hother, ready n (Nat.le_of_succ_le hn)]
        · simp [Liveness.isUp_markDown, hlive]

/-- What it comes to if all peers of a list are enrolled: of each host the first peer counts, and
    each fresh record has a number of its own. -/
structure Enrolls (old : Snapshot) (d d' : Directory) (peers : List Peer) (nodes : List Node) :
    Prop where
  grows : d.Grows d'
  origin : ∀ n ∈ nodes, n ∈ old.nodes ∨ d.Fresh d' n
  numbered : nodes.Pairwise fun a b => d.nextSerial ≤ b.serial → a.serial < b.serial
  enrolled : ∀ host p, Peer.first? peers host = some p →
    ∃ n, nodes.find? (fun n => n.host = host) = some n ∧ Enrolled old d d' p n
  missing : ∀ host, Peer.first? peers host = none → nodes.find? (fun n => n.host = host) = none

theorem enrollAll_enrolls (peers : List Peer) (made : d.Made old) (ready : d.Ready) :
    Enrolls old d (enrollAll old d peers).1 peers (enrollAll old d peers).2 := by
  induction peers generalizing d with
  | nil => exact ⟨.refl ready, by simp [enrollAll], .nil, by simp [Peer.first?], fun _ _ => rfl⟩
  | cons p rest ih =>
    obtain ⟨hfirst, henrolled⟩ := enroll_enrolled (p := p) made ready
    have hrest := ih (hfirst.made made) hfirst.ready
    have hp := henrolled.within made (.refl ready) hrest.grows
    simp only [enrollAll]
    refine ⟨hfirst.trans hrest.grows, ?_, ?_, fun host q hq => ?_, fun host hnone => ?_⟩
    · refine List.forall_mem_cons.mpr ⟨hp.old_or_fresh, fun n hn => ?_⟩
      refine (hrest.origin n hn).imp_right fun fresh => ?_
      exact ⟨Nat.le_trans hfirst.serials fresh.unseen, fresh.made⟩
    · -- a record that comes later and is no old one was made after the first
      have hlater : ∀ b ∈ (enrollAll old (enroll old d p).1 rest).2, d.nextSerial ≤ b.serial →
          (enroll old d p).1.nextSerial ≤ b.serial := by
        intro b hb unseen
        rcases hrest.origin b hb with hold | fresh
        · exact absurd (made b hold) (Nat.not_lt.mpr unseen)
        · exact fresh.unseen
      have hmade : (enroll old d p).2.serial < (enroll old d p).1.nextSerial := by
        rcases henrolled.old_or_fresh with hold | fresh
        · exact hfirst.made made _ hold
        · exact fresh.made
      refine List.pairwise_cons.mpr ⟨fun b hb unseen => ?_, ?_⟩
      · exact Nat.lt_of_lt_of_le hmade (hlater b hb unseen)
      · refine hrest.numbered.imp_of_mem fun {a b} _ hb h unseen => ?_
        exact h (hlater b hb unseen)
    · by_cases hhost : p.host = host
      · rw [Peer.first?, List.find?_cons_of_pos (by simpa using hhost)] at hq
        cases hq
        exact ⟨_, List.find?_cons_of_pos (by simpa [henrolled.host] using hhost), hp⟩
      · rw [Peer.first?, List.find?_cons_of_neg (by simpa using hhost)] at hq
        obtain ⟨n, hn, h⟩ := hrest.enrolled host q hq
        refine ⟨n, ?_, h.within made hfirst (.refl hrest.grows.ready)⟩
        rw [List.find?_cons_of_neg (by simpa [henrolled.host] using hhost), hn]
    · obtain ⟨hhost, hlater⟩ := List.forall_mem_cons.mp (List.find?_eq_none.mp hnone)
      rw [List.find?_cons_of_neg (by simpa [henrolled.host] using hhost)]
      exact hrest.missing host (List.find?_eq_none.mpr hlater)

/-- What an update to a list of peers comes to. -/
structure Updates (d : Directory) (peers : List Peer) (d' : Directory) : Prop where
  grows : d.Grows d'
  distinct : (d'.current.nodes.map Node.host).Nodup
  listed : d'.current.nodes.map Node.toPeer = Peer.firsts peers
  origin : ∀ n ∈ d'.current.nodes, n ∈ d.current.nodes ∨ d.Fresh d' n
  /-- Two records with one number are the same, or old. -/
  numbered : ∀ a ∈ d'.current.nodes, ∀ b ∈ d'.current.nodes, a.serial = b.serial →
    a = b ∨ b.serial < d.nextSerial
  enrolled : ∀ host p, Peer.first? peers host = some p →
    ∃ n, d'.current.node? host = some n ∧ Enrolled d.current d d' p n
  missing : ∀ host, Peer.first? peers host = none → d'.current.node? host = none

theorem update_updates (d : Directory) (peers : List Peer) (made : d.Made d.current)
    (ready : d.Ready) : d.Updates peers (d.update peers).1 := by
  have h := enrollAll_enrolls peers made ready
  have hpeers := enrollAll_toPeer d.current d peers
  have hsymm : Std.Symm fun a b : Node => a.serial = b.serial → b.serial < d.nextSerial :=
    ⟨fun a b hab same => same ▸ hab same.symm⟩
  have hpairs : (enrollAll d.current d peers).2.Pairwise fun a b =>
      a.serial = b.serial → b.serial < d.nextSerial := by
    refine h.numbered.imp fun {a b} hab same => ?_
    by_contra unseen
    exact absurd same (Nat.ne_of_lt (hab (Nat.le_of_not_lt unseen)))
  exact {
    grows := ⟨h.grows.serials, h.grows.live, h.grows.ready⟩
    distinct := Snapshot.ofNodes_nodup _
    listed := (Snapshot.ofNodes_toPeer _).trans (congrArg _ hpeers)
    origin := fun n hn => (h.origin n (Snapshot.mem_of_mem_ofNodes hn)).imp_right
      fun fresh => ⟨fresh.unseen, fresh.made⟩
    numbered := fun a ha b hb same => or_iff_not_imp_left.mpr fun differ =>
      hpairs.forall (Snapshot.mem_of_mem_ofNodes ha) (Snapshot.mem_of_mem_ofNodes hb) differ same
    enrolled := fun host p hp => by
      obtain ⟨n, hn, henrolled⟩ := h.enrolled host p hp
      refine ⟨n, (Snapshot.node?_ofNodes _ host).trans hn, ?_⟩
      exact henrolled.within made (.refl ready) ⟨Nat.le_refl _, fun _ _ => rfl, h.grows.ready⟩
    missing := fun host hnone => (Snapshot.node?_ofNodes _ host).trans (h.missing host hnone) }

/-- A register that is filled with the records of the peers, one for each, holds what the snapshot
    holds. -/
theorem update_registered (d : Directory) (peers : List Peer) :
    ∃ records, records.map Node.toPeer = peers ∧
      (Register.ofNodes records).nodes = (d.update peers).1.current.nodes ∧
      (Register.ofNodes records).known = (d.update peers).1.current.node? :=
  ⟨_, enrollAll_toPeer .., Register.ofNodes_eq _⟩

end Directory

end RequestEngine
