/-
  RequestEngine.Failure.Database

  Errors that the database sends back: their protocol codes and their texts,
  and the kinds of writes that a write error names by their wire text.
-/
import RequestEngine.Level
import RequestEngine.Text.Quoted

namespace RequestEngine

open Text

/-! ## Kinds of writes -/

/-- The kind of write that failed; `other` holds a wire text that names none of the known
    kinds. -/
inductive WriteType where
  | simple | batch | unloggedBatch | counter | batchLog | cas | view | cdc
  | other (wire : String)
  deriving DecidableEq, Repr

namespace WriteType

/-- The known kinds with their wire texts. -/
def known : List (String × WriteType) :=
  [("SIMPLE", simple), ("BATCH", batch), ("UNLOGGED_BATCH", unloggedBatch), ("COUNTER", counter),
    ("BATCH_LOG", batchLog), ("CAS", cas), ("VIEW", view), ("CDC", cdc)]

/-- The kind that a wire text names. -/
def ofWire (s : String) : WriteType :=
  match known.lookup s with
  | some w => w
  | none => other s

/-- The wire text of a kind. -/
def wire : WriteType → String
  | simple => "SIMPLE"
  | batch => "BATCH"
  | unloggedBatch => "UNLOGGED_BATCH"
  | counter => "COUNTER"
  | batchLog => "BATCH_LOG"
  | cas => "CAS"
  | view => "VIEW"
  | cdc => "CDC"
  | other s => s

/-- How messages name a kind. -/
def text : WriteType → String
  | simple => "Simple"
  | batch => "Batch"
  | unloggedBatch => "UnloggedBatch"
  | counter => "Counter"
  | batchLog => "BatchLog"
  | cas => "Cas"
  | view => "View"
  | cdc => "Cdc"
  | other s => "Other(" ++ quoted s ++ ")"

/-- Whether the kind is none of the known ones. -/
def isOther : WriteType → Bool
  | other _ => true
  | _ => false

end WriteType

/-! ## Database errors -/

/-- An error sent by the database in response to a request. -/
inductive DatabaseError where
  | syntaxError
  | invalid
  | alreadyExists (keyspace table : String)
  | functionFailure (keyspace function : String) (argTypes : List String)
  | authenticationError
  | unauthorized
  | configError
  | unavailable (level : Level) (required alive : Int)
  | overloaded
  | isBootstrapping
  | truncateError
  | readTimeout (level : Level) (received required : Int) (dataPresent : Bool)
  | writeTimeout (level : Level) (received required : Int) (writeType : WriteType)
  | readFailure (level : Level) (received required failures : Int) (dataPresent : Bool)
  | writeFailure (level : Level) (received required failures : Int) (writeType : WriteType)
  | unprepared (statementId : List UInt8)
  | serverError
  | protocolError
  | other (code : Int)
  deriving DecidableEq, Repr

namespace DatabaseError

/-- The protocol code of an error. -/
def code : DatabaseError → Int
  | serverError => 0x0000
  | protocolError => 0x000A
  | authenticationError => 0x0100
  | unavailable .. => 0x1000
  | overloaded => 0x1001
  | isBootstrapping => 0x1002
  | truncateError => 0x1003
  | writeTimeout .. => 0x1100
  | readTimeout .. => 0x1200
  | readFailure .. => 0x1300
  | functionFailure .. => 0x1400
  | writeFailure .. => 0x1500
  | syntaxError => 0x2000
  | unauthorized => 0x2100
  | invalid => 0x2200
  | configError => 0x2300
  | alreadyExists .. => 0x2400
  | unprepared .. => 0x2500
  | other code => code

/-- Named values in parentheses, as they follow a message. -/
def details (fields : List (String × String)) : String :=
  " (" ++ ", ".intercalate (fields.map fun f => f.1 ++ ": " ++ f.2) ++ ")"

/-- The text of an error. -/
def message : DatabaseError → String
  | syntaxError => "The submitted query has a syntax error"
  | invalid => "The query is syntactically correct but invalid"
  | alreadyExists keyspace table =>
    "Attempted to create a keyspace or a table that was already existing" ++
      details [("keyspace", keyspace), ("table", table)]
  | functionFailure keyspace function argTypes =>
    "User defined function failed during execution" ++
      details [("keyspace", keyspace), ("function", function), ("arg_types", quotedList argTypes)]
  | authenticationError => "Authentication failed - bad credentials"
  | unauthorized => "The logged user doesn't have the right to perform the query"
  | configError => "The query is invalid because of some configuration issue"
  | unavailable level required alive =>
    "Not enough nodes are alive to satisfy required consistency level" ++
      details [("consistency", level.name), ("required", toString required),
        ("alive", toString alive)]
  | overloaded => "The request cannot be processed because the coordinator node is overloaded"
  | isBootstrapping => "The coordinator node is still bootstrapping"
  | truncateError => "Error during truncate operation"
  | readTimeout level received required dataPresent =>
    "Not enough nodes responded to the read request in time to satisfy required consistency level"
      ++ details [("consistency", level.name), ("received", toString received),
        ("required", toString required), ("data_present", flag dataPresent)]
  | writeTimeout level received required writeType =>
    "Not enough nodes responded to the write request in time to satisfy required consistency level"
      ++ details [("consistency", level.name), ("received", toString received),
        ("required", toString required), ("write_type", writeType.text)]
  | readFailure level received required failures dataPresent =>
    "A non-timeout error during a read request" ++
      details [("consistency", level.name), ("received", toString received),
        ("required", toString required), ("numfailures", toString failures),
        ("data_present", flag dataPresent)]
  | writeFailure level received required failures writeType =>
    "A non-timeout error during a write request" ++
      details [("consistency", level.name), ("received", toString received),
        ("required", toString required), ("numfailures", toString failures),
        ("write_type", writeType.text)]
  | unprepared _ =>
    "Tried to execute a prepared statement that is not prepared. Driver should prepare it again"
  | serverError => "Internal server error. This indicates a server-side bug"
  | protocolError => "Invalid protocol message received from the driver"
  | other code => "Other error unknown to the native protocol. Error code: " ++ toString code

end DatabaseError

end RequestEngine
