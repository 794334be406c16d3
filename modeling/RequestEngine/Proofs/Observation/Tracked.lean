/-
  RequestEngine.Proofs.Observation.Tracked

  What the observers of a request share is a finite map from keys to typed
  values.  Whatever they do with it, in whatever order, they are answered as by
  such a map, and the map that is left is the one that they should find.

    * `Tracking.Operation`        — what observers do with items;
    * `Tracking.perform`, `after` — the answer to one operation, and what several
      leave;
    * `Contents`                  — the map, with the same operations: any sequence
      has the same answers (`answers_eq`) and leaves the same (`after_item?`);
    * `Tracking.ActsAsMap`        — what follows for those who share the items.
-/
import RequestEngine.Proofs.Observation.Keys

namespace RequestEngine

-- ============================================================================
-- Operations
-- ============================================================================

namespace Tracking

/-- What observers do with the items of a request. -/
inductive Operation where
  | insert (key : String) (item : Item)
  | get (key : String) (type : ItemType)
  | take (key : String) (type : ItemType)
  | contains (key : String)

namespace Operation

/-- The key that an operation is about. -/
def key : Operation → String
  | insert key _ | get key _ | take key _ | contains key => key

/-- What an operation is answered with. -/
inductive Finding where
  | item (found : Option Item)
  | flag (present : Bool)
  deriving DecidableEq

end Operation

/-- An operation: what it leaves, and its answer. -/
def perform (t : Tracking) : Operation → Tracking × Operation.Finding
  | .insert key item => ((t.insert key item).1, .item (t.insert key item).2)
  | .get key type => (t, .item (t.get key type))
  | .take key type => ((t.take key type).1, .item (t.take key type).2)
  | .contains key => (t, .flag (t.contains key))

/-- What is left after several operations. -/
def after (t : Tracking) (ops : List Operation) : Tracking :=
  ops.foldl (fun t op => (t.perform op).1) t

/-- The answers to several operations. -/
def answers (t : Tracking) : List Operation → List Operation.Finding
  | [] => []
  | op :: rest => (t.perform op).2 :: (t.perform op).1.answers rest

end Tracking

open Tracking

-- ============================================================================
-- The map that observers should find
-- ============================================================================

/-- The values under all keys. -/
abbrev Contents := String → Option Item

namespace Contents

variable (m : Contents)

/-- The value under a key, provided that it has the given type. -/
def typed (key : String) (type : ItemType) : Option Item :=
  if (m key).map Item.type = some type then m key else none

/-- What an operation leaves: an insertion replaces the value under its key, and a removal clears
    its key if it finds a value of its type. -/
def next : Operation → Contents
  | .insert key item => Function.update m key (some item)
  | .take key type =>
    if (m key).map Item.type = some type then Function.update m key none else m
  | .get .. | .contains _ => m

/-- What an operation is answered with: the value that an insertion replaces, a value of the type
    that is asked for, or whether there is one of any type. -/
def answer : Operation → Operation.Finding
  | .insert key _ => .item (m key)
  | .get key type | .take key type => .item (m.typed key type)
  | .contains key => .flag (m key).isSome

/-- What is left after several operations. -/
def after (ops : List Operation) : Contents :=
  ops.foldl next m

/-- The answers to several operations. -/
def answers (m : Contents) : List Operation → List Operation.Finding
  | [] => []
  | op :: rest => m.answer op :: (m.next op).answers rest

end Contents

-- ============================================================================
-- Single operations
-- ============================================================================

namespace Tracking

variable {t : Tracking}

/-- A value is found exactly under its own type. -/
theorem get_eq_typed (t : Tracking) (key : String) (type : ItemType) :
    t.get key type = Contents.typed t.item? key type := by
  rw [get, Contents.typed]
  cases t.item? key with
  | none => rfl
  | some item =>
    rw [Option.filter_some, Option.map_some]
    simp only [Option.some.injEq, decide_eq_true_eq]

theorem get_eq_some_iff {key : String} {type : ItemType} {item : Item} :
    t.get key type = some item ↔ t.item? key = some item ∧ item.type = type := by
  rw [get, Option.filter_eq_some_iff, decide_eq_true_eq]

theorem isSome_get (t : Tracking) (key : String) (type : ItemType) :
    (t.get key type).isSome = true ↔ (t.item? key).map Item.type = some type := by
  rw [Option.isSome_iff_exists, Option.map_eq_some_iff]
  exact exists_congr fun _ => get_eq_some_iff

/-- A removal that finds nothing of its type leaves everything as it was. -/
theorem take_of_none {key : String} {type : ItemType} (none : t.get key type = none) :
    t.take key type = (t, Option.none) := by
  rw [take_eq, none]
  rfl

theorem perform_answer (t : Tracking) (op : Operation) :
    (t.perform op).2 = Contents.answer t.item? op := by
  cases op with
  | insert key item => rfl
  | get key type => exact congrArg Operation.Finding.item (get_eq_typed ..)
  | take key type =>
    rw [perform, take_eq]
    exact congrArg Operation.Finding.item (get_eq_typed ..)
  | contains key => rfl

theorem perform_item? (t : Tracking) (op : Operation) :
    (t.perform op).1.item? = Contents.next t.item? op := by
  cases op with
  | insert key item =>
    funext key'
    rw [perform, item?_insert, Contents.next, Function.update_apply]
  | get key type => rfl
  | take key type =>
    funext key'
    simp only [perform, item?_take, Contents.next, isSome_get]
    by_cases hfound : (t.item? key).map Item.type = some type
    · simp only [hfound, and_true, if_true, Function.update_apply]
    · simp only [hfound, and_false, if_false]
  | contains key => rfl

/-- Other keys are not affected. -/
theorem perform_other (t : Tracking) (op : Operation) {key : String} (other : key ≠ op.key) :
    (t.perform op).1.item? key = t.item? key := by
  rw [perform_item?]
  cases op with
  | insert => exact Function.update_of_ne other _ _
  | take own type =>
    rw [Contents.next]
    split
    · exact Function.update_of_ne other _ _
    · rfl
  | get | contains => rfl

theorem perform_statement (t : Tracking) (op : Operation) :
    (t.perform op).1.statement = t.statement := by
  cases op with
  | take key type =>
    rw [perform, take_eq]
    dsimp only
    split <;> rfl
  | insert | get | contains => rfl

/-- Each key occurs once among the items. -/
def KeysOnce (t : Tracking) : Prop :=
  (t.items.map (·.1)).Nodup

theorem keysOnce_new (statement : Option TrackedStatement) : KeysOnce { statement } :=
  List.nodup_nil

theorem KeysOnce.drop (once : t.KeysOnce) (key : String) : (t.drop key).KeysOnce :=
  once.sublist (List.filter_sublist.map _)

theorem KeysOnce.perform (once : t.KeysOnce) (op : Operation) : (t.perform op).1.KeysOnce := by
  cases op with
  | insert key item =>
    refine List.nodup_cons.mpr ⟨?_, once.drop key⟩
    intro hmem
    obtain ⟨entry, hentry, hkey⟩ := List.mem_map.mp hmem
    exact of_decide_eq_true (List.mem_filter.mp hentry).2 hkey
  | take key type =>
    rw [Tracking.perform, take_eq]
    dsimp only
    split
    · exact once.drop key
    · exact once
  | get | contains => exact once

-- ============================================================================
-- Sequences of operations
-- ============================================================================

theorem answers_eq (t : Tracking) (ops : List Operation) :
    t.answers ops = Contents.answers t.item? ops := by
  induction ops generalizing t with
  | nil => rfl
  | cons op rest ih =>
    rw [answers, Contents.answers, perform_answer, ih, perform_item?]

theorem after_item? (t : Tracking) (ops : List Operation) :
    (t.after ops).item? = Contents.after t.item? ops := by
  induction ops generalizing t with
  | nil => rfl
  | cons op rest ih =>
    rw [after, List.foldl_cons, ← after, ih, perform_item?]
    rfl

theorem KeysOnce.after (once : t.KeysOnce) (ops : List Operation) : (t.after ops).KeysOnce := by
  induction ops generalizing t with
  | nil => exact once
  | cons op rest ih => exact ih (once.perform op)

theorem after_statement (t : Tracking) (ops : List Operation) :
    (t.after ops).statement = t.statement := by
  induction ops generalizing t with
  | nil => rfl
  | cons op rest ih => exact (ih _).trans (perform_statement t op)

end Tracking

-- ============================================================================
-- A finite map of typed values
-- ============================================================================

/-- What those who share the items of a request may rely on, after any operations on the items of a
    new request. -/
structure Tracking.ActsAsMap (statement : Option TrackedStatement) (ops : List Operation) :
    Prop where
  /-- Every operation was answered as by the map. -/
  answered : Tracking.answers { statement } ops = Contents.answers (fun _ => none) ops
  /-- The map is what is left. -/
  contents : (Tracking.after { statement } ops).item? = Contents.after (fun _ => none) ops
  keysOnce : (Tracking.after { statement } ops).KeysOnce
  sameStatement : (Tracking.after { statement } ops).statement = statement
  /-- One more operation affects no key but its own. -/
  others (op : Operation) (key : String) : key ≠ op.key →
    ((Tracking.after { statement } ops).perform op).1.item? key =
      (Tracking.after { statement } ops).item? key
  /-- A removal changes nothing unless it is answered with an item. -/
  untaken (key : String) (type : ItemType) :
    ((Tracking.after { statement } ops).perform (.take key type)).2 = .item none →
      ((Tracking.after { statement } ops).perform (.take key type)).1 =
        Tracking.after { statement } ops

/-- The items of a request behave as a finite map from keys to typed values, whatever is done with
    them; and no two hosts and bases share a key. -/
theorem Tracking.acts_as_map :
    (∀ (statement : Option TrackedStatement) (ops : List Operation), ActsAsMap statement ops) ∧
      ∀ (b b' : String) (h h' : HostInfo),
        h.itemKey b = h'.itemKey b' ↔ b = b' ∧ h.node.host = h'.node.host := by
  refine ⟨fun statement ops => ?_, fun _ _ _ _ => HostInfo.itemKey_eq_iff⟩
  exact {
    answered := answers_eq _ ops
    contents := after_item? _ ops
    keysOnce := (keysOnce_new statement).after ops
    sameStatement := after_statement _ ops
    others := fun op _ other => perform_other _ op other
    untaken := fun key type none => by
      rw [perform, take_eq] at none
      rw [perform, take_of_none (Operation.Finding.item.inj none)] }

end RequestEngine
