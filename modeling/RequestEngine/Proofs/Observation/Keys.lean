/-
  RequestEngine.Proofs.Observation.Keys

  Which items belong to whom.  What a collector keeps of an attempt it keeps under
  a key that ends in the id of its host, and different hosts have different keys.
  A collector sees nothing but the items under its own keys.

    * `HostId.text_inj`, `HostInfo.itemKey_eq_iff` — keys tell bases and hosts apart;
    * `SameUnder`     — the same items under some keys;
    * `History.IsKey`, `Metrics.IsKey` — the keys of each kind of collectors;
      what these record and leave depends on the items under them alone;
    * `Collector.Book` — a record with the items of each request, and
      `Collector.hearAll` what becomes of it.
-/
import RequestEngine.Proofs.Observation.Independence

namespace RequestEngine

open Tracking

-- ============================================================================
-- Host ids
-- ============================================================================

theorem Text.hexDigits_inj {width n m : Nat} (hn : n < Nat.pow 16 width)
    (hm : m < Nat.pow 16 width) (same : hexDigits width n = hexDigits width m) : n = m := by
  induction width generalizing n m with
  | zero => exact (Nat.lt_one_iff.mp hn).trans (Nat.lt_one_iff.mp hm).symm
  | succ width ih =>
    have hn : n < Nat.pow 16 width * 16 := hn
    have hm : m < Nat.pow 16 width * 16 := hm
    have digit_inj : ∀ a < 16, ∀ b < 16, Nat.digitChar a = Nat.digitChar b → a = b := by decide
    rw [hexDigits, hexDigits] at same
    obtain ⟨hhigh, hlow⟩ := List.append_inj' same rfl
    have hquotient : n / 16 = m / 16 := ih (by omega) (by omega) hhigh
    have hrest : n % 16 = m % 16 :=
      digit_inj _ (Nat.mod_lt _ (by omega)) _ (Nat.mod_lt _ (by omega)) (List.cons.inj hlow).1
    omega

namespace HostId

theorem length_digits (id : HostId) : id.digits.length = 32 :=
  Text.length_hexDigits ..

theorem length_chars (id : HostId) : id.chars.length = 36 := by
  have hlength := id.length_digits
  simp only [chars, List.length_append, List.length_take, List.length_drop, List.length_cons,
    List.length_nil, hlength]
  rfl

theorem drop_eq_of_take {α : Type} {d d' : List α} (k n : Nat)
    (first : (d.drop k).take n = (d'.drop k).take n) (rest : d.drop (k + n) = d'.drop (k + n)) :
    d.drop k = d'.drop k := by
  rw [← List.take_append_drop n (d.drop k), ← List.take_append_drop n (d'.drop k), first,
    List.drop_drop, List.drop_drop, rest]

/-- The groups of digits are found at fixed places. -/
theorem digits_eq_of_chars {id id' : HostId} (same : id.chars = id'.chars) :
    id.digits = id'.digits := by
  have hlength := id.length_digits
  have hlength' := id'.length_digits
  simp only [chars, List.append_assoc] at same
  generalize id.digits = d at same hlength ⊢
  generalize id'.digits = d' at same hlength' ⊢
  -- the hyphens stand at the same places, so that the groups can be compared one by one
  obtain ⟨hfirst, same⟩ := List.append_inj same (by simp [hlength, hlength'])
  obtain ⟨-, same⟩ := List.append_inj same rfl
  obtain ⟨hsecond, same⟩ := List.append_inj same (by simp [hlength, hlength'])
  obtain ⟨-, same⟩ := List.append_inj same rfl
  obtain ⟨hthird, same⟩ := List.append_inj same (by simp [hlength, hlength'])
  obtain ⟨-, same⟩ := List.append_inj same rfl
  obtain ⟨hfourth, same⟩ := List.append_inj same (by simp [hlength, hlength'])
  obtain ⟨-, hlast⟩ := List.append_inj same rfl
  exact drop_eq_of_take 0 8 hfirst (drop_eq_of_take 8 4 hsecond (drop_eq_of_take 12 4 hthird
    (drop_eq_of_take 16 4 hfourth hlast)))

/-- Different hosts are written differently. -/
theorem text_inj {id id' : HostId} (same : id.text = id'.text) : id = id' := by
  have hdigits := digits_eq_of_chars (String.ofList_injective same)
  have hbound (h : HostId) : (h.value : Nat) < Nat.pow 16 32 := h.value.isLt
  have hvalue : (id.value : Nat) = id'.value :=
    Text.hexDigits_inj (hbound id) (hbound id') hdigits
  cases id
  cases id'
  exact congrArg HostId.mk (Fin.ext hvalue)

end HostId

/-- A key tells its base and its host: the text of a host id has a fixed length, so that the base
    ends at the same place even if it looks like a key itself. -/
theorem HostInfo.itemKey_eq_iff {b b' : String} {h h' : HostInfo} :
    h.itemKey b = h'.itemKey b' ↔ b = b' ∧ h.node.host = h'.node.host := by
  constructor
  · intro same
    have hchars := congrArg String.toList same
    simp only [itemKey, String.toList_append] at hchars
    have hlength (id : HostId) : id.text.toList.length = 36 := by
      rw [HostId.text, String.toList_ofList, HostId.length_chars]
    obtain ⟨hbase, hhost⟩ :=
      List.append_inj' hchars ((hlength h.node.host).trans (hlength h'.node.host).symm)
    obtain ⟨hbase, -⟩ := List.append_inj' hbase rfl
    exact ⟨String.toList_inj.mp hbase, HostId.text_inj (String.toList_inj.mp hhost)⟩
  · rintro ⟨rfl, hhost⟩
    rw [itemKey, itemKey, hhost]

/-- Items of different hosts are kept under different keys. -/
theorem HostInfo.itemKey_inj {base : String} {h h' : HostInfo}
    (same : h.itemKey base = h'.itemKey base) : h.node.host = h'.node.host :=
  (itemKey_eq_iff.mp same).2

-- ============================================================================
-- Items under some keys
-- ============================================================================

namespace Tracking

/-- The same items under some keys. -/
def SameUnder (IsKey : String → Prop) (t t' : Tracking) : Prop :=
  ∀ key, IsKey key → t.item? key = t'.item? key

namespace SameUnder

variable {IsKey : String → Prop} {t t' t'' : Tracking} {key : String}

theorem refl (t : Tracking) : SameUnder IsKey t t := fun _ _ => rfl

theorem trans (h : SameUnder IsKey t t') (h' : SameUnder IsKey t' t'') : SameUnder IsKey t t'' :=
  fun key own => (h key own).trans (h' key own)

theorem get (h : SameUnder IsKey t t') (own : IsKey key) (type : ItemType) :
    t.get key type = t'.get key type :=
  get_congr (h key own)

theorem insert (h : SameUnder IsKey t t') (key : String) (item : Item) :
    SameUnder IsKey (t.insert key item).1 (t'.insert key item).1 := by
  intro key' own
  rw [item?_insert, item?_insert, h key' own]

theorem take (h : SameUnder IsKey t t') (own : IsKey key) (type : ItemType) :
    SameUnder IsKey (t.take key type).1 (t'.take key type).1 := by
  intro key' own'
  rw [item?_take, item?_take, h key' own', h.get own]

end SameUnder

end Tracking

-- ============================================================================
-- The keys of collectors
-- ============================================================================

namespace History

variable {h : History} {t t' : Tracking} {now : Instant} {n : Notification}

/-- The keys of histories: that of the number of a request, and those of its attempts' numbers. -/
def IsKey (key : String) : Prop :=
  key = requestKey ∨ ∃ host : HostInfo, key = host.itemKey attemptKey

theorem isKey_attempt (host : HostInfo) : IsKey (host.itemKey attemptKey) :=
  .inr ⟨host, rfl⟩

theorem head?_of_isKey {key : String} (own : IsKey key) : key.toList.head? = some 'h' := by
  rcases own with rfl | ⟨host, rfl⟩
  · exact head?_requestKey
  · exact head?_attemptKey host

/-- What is recorded depends on the items under these keys alone. -/
theorem recorded?_keyed (same : SameUnder IsKey t t') : h.recorded? t n = h.recorded? t' n := by
  have hrequest : requestId? t = requestId? t' := requestId?_eq (same _ (.inl rfl))
  have hattempt (host : HostInfo) : attemptId? t host = attemptId? t' host := by
    rw [attemptId?, attemptId?, same.get (isKey_attempt host)]
  cases n <;> simp only [recorded?, hrequest, hattempt]

theorem after_keyed (same : SameUnder IsKey t t') : h.after t now n = h.after t' now n := by
  rw [after, after, recorded?_keyed same]

theorem leaves_keyed (same : SameUnder IsKey t t') :
    SameUnder IsKey (h.leaves t n) (h.leaves t' n) := by
  cases n with
  | requestStarted => exact same.insert _ _
  | nodeStarted =>
    rw [leaves, leaves, requestId?_eq (same _ (.inl rfl))]
    split
    · exact same.insert _ _
    · exact same
  | nodeFailed host | nodeSucceeded host => exact same.take (isKey_attempt host) _
  | speculated | requestSucceeded | requestFailed | requestCancelled => exact same

end History

namespace Metrics

variable {m : Metrics} {t t' : Tracking} {now : Instant} {n : Notification}

/-- The keys of metrics: those of the starts of attempts. -/
def IsKey (key : String) : Prop :=
  ∃ host : HostInfo, key = host.itemKey startKey

theorem head?_of_isKey {key : String} (own : IsKey key) : key.toList.head? = some 'm' := by
  obtain ⟨host, rfl⟩ := own
  exact head?_key host

theorem leaves_keyed (same : SameUnder IsKey t t') :
    SameUnder IsKey (leaves t now n) (leaves t' now n) := by
  cases n with
  | nodeStarted => exact same.insert _ _
  | nodeFailed host | nodeSucceeded host => exact same.take ⟨host, rfl⟩ _
  | _ => exact same

theorem record_keyed (same : SameUnder IsKey t t') :
    (m.record t now n).1 = (m.record t' now n).1 := by
  cases n with
  | nodeSucceeded host =>
    rw [record_nodeSucceeded, record_nodeSucceeded, same.get ⟨host, rfl⟩ .instant]
  | _ => rfl

end Metrics

-- ============================================================================
-- Scenes
-- ============================================================================

/-- Nothing was recorded and no time has passed. -/
structure Scene.Unmoved (s s' : Scene) : Prop where
  histories : s'.histories = s.histories
  metrics : s'.metrics = s.metrics
  now : s'.now = s.now

theorem Scene.Unmoved.refl (s : Scene) : s.Unmoved s := ⟨rfl, rfl, rfl⟩

-- ============================================================================
-- Books
-- ============================================================================

/-- A record with the items of each request. -/
structure Collector.Book (α : Type) where
  record : α
  tracking : Nat → Tracking := fun _ => {}

namespace Collector

variable {α : Type} (C : Collector α)

/-- What becomes of a book with a notification. -/
def hear (b : Book α) (c : Telling) : Book α where
  record := C.next b.record (b.tracking c.request) c.time c.notification
  tracking := Function.update b.tracking c.request
    (C.leaves b.record (b.tracking c.request) c.time c.notification)

/-- The same for several notifications. -/
def hearAll (b : Book α) (tellings : List Telling) : Book α :=
  tellings.foldl C.hear b

/-- What is told of one request leaves the items of others alone. -/
theorem hearAll_other {request other : Nat} (ne : other ≠ request)
    (b : Book α) (tellings : List Telling)
    (own : ∀ c ∈ tellings, c.request = request) :
    (C.hearAll b tellings).tracking other = b.tracking other := by
  induction tellings generalizing b with
  | nil => rfl
  | cons c rest ih =>
    obtain ⟨hfirst, hrest⟩ := List.forall_mem_cons.mp own
    rw [hearAll, List.foldl_cons, ← hearAll, ih _ hrest, hear]
    exact Function.update_of_ne (hfirst ▸ ne) _ _

/-- What a kind of observers does depends on items under its own keys alone, and their records on
    what is recorded in a scene. -/
structure Keyed (IsKey : String → Prop) : Prop where
  leaves_congr : ∀ {a t t' now n}, SameUnder IsKey t t' →
    SameUnder IsKey (C.leaves a t now n) (C.leaves a t' now n)
  next_congr : ∀ {a t t' now n}, SameUnder IsKey t t' → C.next a t now n = C.next a t' now n
  records_congr : ∀ {s s' : Scene}, s.Unmoved s' → C.records s' = C.records s

theorem history_keyed : history.Keyed History.IsKey where
  leaves_congr := History.leaves_keyed
  next_congr := History.after_keyed
  records_congr unmoved := unmoved.histories

theorem metrics_keyed : metrics.Keyed Metrics.IsKey where
  leaves_congr := Metrics.leaves_keyed
  next_congr := Metrics.record_keyed
  records_congr unmoved := unmoved.metrics

end Collector

end RequestEngine
