/-
  RequestEngine.Level

  Consistency levels: how many replicas have to answer. Serial levels make a
  request go through agreement of the replicas; local levels involve only the
  replicas of the coordinator's datacenter. Levels are ordered by their wire
  values.
-/

namespace RequestEngine

/-- A consistency level. -/
inductive Level where
  | any | one | two | three | quorum | all | localQuorum | eachQuorum | serial | localSerial
  | localOne
  deriving DecidableEq, Repr

/-- A level that a conditional update can reach agreement at. -/
inductive SerialLevel where
  | serial | localSerial
  deriving DecidableEq, Repr

/-- No level has the given wire value. -/
structure UnknownWireValue where
  vocabulary : String
  value : Int
  deriving DecidableEq, Repr

namespace UnknownWireValue

/-- The text of the error. -/
def message (e : UnknownWireValue) : String :=
  "No discrimant in enum `" ++ e.vocabulary ++ "` matches the value `" ++ toString e.value ++ "`"

end UnknownWireValue

namespace SerialLevel

/-- The name of the level. -/
def name : SerialLevel → String
  | serial => "Serial"
  | localSerial => "LocalSerial"

/-- The value that stands for the level in a frame. -/
def wire : SerialLevel → Nat
  | serial => 8
  | localSerial => 9

/-- The level with a given wire value. -/
def ofWire (value : Int) : Except UnknownWireValue SerialLevel :=
  match value with
  | 8 => .ok serial
  | 9 => .ok localSerial
  | value => .error ⟨"SerialConsistency", value⟩

/-- All serial levels. -/
def all : List SerialLevel :=
  [serial, localSerial]

/-- The level of a given name. -/
def ofName? (s : String) : Option SerialLevel :=
  all.find? fun l => l.name == s

end SerialLevel

/-- The level asked for is not a serial one. -/
structure NotSerial where
  level : Level
  deriving DecidableEq, Repr

namespace Level

/-- The level used where none is given. -/
instance : Inhabited Level := ⟨localQuorum⟩

/-- All levels in the order of their wire values. -/
def everyLevel : List Level :=
  [any, one, two, three, quorum, all, localQuorum, eachQuorum, serial, localSerial, localOne]

/-- The name of the level. -/
def name : Level → String
  | any => "Any"
  | one => "One"
  | two => "Two"
  | three => "Three"
  | quorum => "Quorum"
  | all => "All"
  | localQuorum => "LocalQuorum"
  | eachQuorum => "EachQuorum"
  | serial => "Serial"
  | localSerial => "LocalSerial"
  | localOne => "LocalOne"

/-- The value that stands for the level in a frame. -/
def wire : Level → Nat
  | any => 0
  | one => 1
  | two => 2
  | three => 3
  | quorum => 4
  | all => 5
  | localQuorum => 6
  | eachQuorum => 7
  | serial => 8
  | localSerial => 9
  | localOne => 10

/-- The level with a given wire value. -/
def ofWire (value : Nat) : Except UnknownWireValue Level :=
  match everyLevel.find? fun l => l.wire == value with
  | some l => .ok l
  | none => .error ⟨"Consistency", value⟩

/-- The level of a given name. -/
def ofName? (s : String) : Option Level :=
  everyLevel.find? fun l => l.name == s

/-- Whether requests at this level go through agreement of the replicas. -/
def isSerial : Level → Bool
  | serial | localSerial => true
  | _ => false

/-- Whether only replicas of the coordinator's datacenter are involved. -/
def isLocal : Level → Bool
  | localOne | localQuorum | localSerial => true
  | _ => false

/-- The serial level that a level is, if it is one. -/
def toSerial : Level → Except NotSerial SerialLevel
  | serial => .ok .serial
  | localSerial => .ok .localSerial
  | l => .error ⟨l⟩

instance : Ord Level := ⟨fun a b => compare a.wire b.wire⟩

/-- Levels in ascending order. -/
def sort (levels : List Level) : List Level :=
  levels.mergeSort fun a b => a.wire ≤ b.wire

/-- How each level of a list compares with the one after it. -/
def neighbours (levels : List Level) : List Ordering :=
  levels.zipWith compare (levels.drop 1)

/-- The number of different levels in a list. -/
def distinct (levels : List Level) : Nat :=
  levels.eraseDups.length

theorem ofWire_wire (l : Level) : ofWire l.wire = .ok l := by
  cases l <;> rfl

end Level

namespace NotSerial

/-- The text of the error. -/
def message (e : NotSerial) : String :=
  "Expected Consistency Serial or LocalSerial, got: " ++ e.level.name

end NotSerial

end RequestEngine
