/-
  RequestEngine.Observation.Tracking

  The context that observers of one request share: its statement and a map of
  items, in which they leave their own state between callbacks. An item is found
  only under its key and by its type. State of a single attempt is kept under
  the key of its host, which holds the host id after the last point.
-/
import RequestEngine.Cluster.Node
import RequestEngine.Duration
import RequestEngine.Text.Quoted

namespace RequestEngine

open Text

/-! ## Items -/

/-- The number of a request in a history. -/
structure RequestId where
  value : Nat
  deriving DecidableEq, Repr, Inhabited

/-- The number of an attempt in a history. -/
structure AttemptId where
  value : Nat
  deriving DecidableEq, Repr, Inhabited

/-- A value that an observer keeps between callbacks. Observers of an application also keep values
    of types of their own: a name stands for such a type, and a text for its value. -/
inductive Item where
  | number (n : UInt32)
  | text (s : String)
  | flag (b : Bool)
  | request (id : RequestId)
  | attempt (id : AttemptId)
  | instant (t : Instant)
  | span (index : Nat)
  | foreign (type value : String)
  deriving DecidableEq, Repr

/-- The type of an item. -/
inductive ItemType where
  | number | text | flag | request | attempt | instant | span
  | foreign (name : String)
  deriving DecidableEq, Repr

namespace Item

/-- The type of an item. -/
def type : Item → ItemType
  | number _ => .number
  | text _ => .text
  | flag _ => .flag
  | request _ => .request
  | attempt _ => .attempt
  | instant _ => .instant
  | span _ => .span
  | foreign type _ => .foreign type

end Item

/-! ## Tracking information of a request -/

/-- The statement of a request, as observers see it. -/
structure TrackedStatement where
  contents : String
  keyspace : Option String := none
  deriving DecidableEq, Repr, Inhabited

/-- What the observers of one request share. Each key occurs once among the items. -/
structure Tracking where
  statement : Option TrackedStatement := none
  items : List (String × Item) := []
  deriving DecidableEq, Repr, Inhabited

namespace Tracking

/-- The item under a key, whatever its type. -/
def item? (t : Tracking) (key : String) : Option Item :=
  t.items.lookup key

/-- Removes whatever is stored under a key. -/
def drop (t : Tracking) (key : String) : Tracking :=
  { t with items := t.items.filter (·.1 ≠ key) }

/-- Stores an item under a key and gives the previous one. -/
def insert (t : Tracking) (key : String) (item : Item) : Tracking × Option Item :=
  ({ t.drop key with items := (key, item) :: (t.drop key).items }, t.item? key)

/-- The item under a key, if it is of the given type. -/
def get (t : Tracking) (key : String) (type : ItemType) : Option Item :=
  (t.item? key).filter fun i => i.type = type

/-- Removes the item under a key and gives it, if it is of the given type; else leaves it. -/
def take (t : Tracking) (key : String) (type : ItemType) : Tracking × Option Item :=
  match t.get key type with
  | some i => (t.drop key, some i)
  | none => (t, none)

/-- Whether anything is stored under a key. -/
def contains (t : Tracking) (key : String) : Bool :=
  (t.item? key).isSome

/-- The keys in use, in ascending order. -/
def keys (t : Tracking) : List String :=
  (t.items.map (·.1)).mergeSort fun a b => a ≤ b

/-- How messages show tracking information; `time` stands for the start of the request. -/
def text (t : Tracking) (time : String) : String :=
  record "RequestTrackingInfo"
    [("statement", optional (fun s => quoted s.contents) t.statement),
      ("started_at", time),
      ("item_keys", quotedList t.keys)]

end Tracking

/-! ## Hosts -/

/-- The host that an attempt is made on: its node, the execution and the number of the attempt
    within it. -/
structure HostInfo where
  node : Node
  execution : Nat
  attempt : Nat
  deriving DecidableEq, Repr

namespace HostInfo

/-- Whether two values refer to the same host, whatever the attempt. -/
def sameHost (a b : HostInfo) : Bool :=
  a.node.sameHost b.node

/-- The number of different hosts in a list. -/
def distinct (hosts : List HostInfo) : Nat :=
  (hosts.map fun h => h.node.host).eraseDups.length

/-- The key under which state of this host is kept. -/
def itemKey (h : HostInfo) (base : String) : String :=
  base ++ "." ++ h.node.host.text

end HostInfo

end RequestEngine
