import EventSourcing.Domain.Registry
import EventSourcing.Message.Version

/-!
An in-memory store of events. Each aggregate, addressed by domain and id, has a stream of events in
the order of their versions, perhaps a key that its id was derived from, and perhaps a snapshot.
-/

namespace EventSourcing

structure AggregateKey where
  domain : Int32
  id : Int64
  deriving DecidableEq, Repr

def AggregateKey.text (k : AggregateKey) : String :=
  Numeral.hex32 k.domain ++ "/" ++ Numeral.hex64 k.id

inductive StoreError
  | concurrencyConflict (aggregate : AggregateKey) (expected found : Int32)
  | keyCollision (key existing : String)
  | invalidEventKey (key : String)
  | notAnEvent (canonicalName : String)
  | unknownDomain (uri : String)
  | unknownMessageType (domain name : String)
  | serialization (e : SerializationError)
  | unavailable (reason : String)
  deriving DecidableEq, Repr

namespace StoreError

def message : StoreError → String
  | .concurrencyConflict aggregate expected found =>
    "Concurrency conflict for aggregate " ++ aggregate.text ++ ": expected version " ++
      Numeral.signedDecimal expected.toInt ++ ", found " ++ Numeral.signedDecimal found.toInt
  | .keyCollision key existing =>
    s!"Key collision: {Text.quoted key} resolves to an id already bound to {Text.quoted existing}"
  | .invalidEventKey key => s!"Invalid event key: {Text.quoted key}"
  | .notAnEvent canonicalName => s!"Not an event: {canonicalName}"
  | .unknownDomain uri => s!"Unknown domain: {uri}"
  | .unknownMessageType domain name => s!"Unknown message type {name} in domain {domain}"
  | .serialization e => s!"Serialization error: {e.message}"
  | .unavailable reason => s!"Event store unavailable: {reason}"

/-- A message that cannot be built cannot be appended either. -/
def ofMessageError : MessageError → StoreError
  | .unknownDomain uri => .unknownDomain uri
  | .unknownMessageType domain name => .unknownMessageType domain name
  | .serialization e => .serialization e

end StoreError

structure Store where
  streams : Table AggregateKey (List Message)
  keys : Table AggregateKey String
  snapshots : Table AggregateKey Record

namespace Store

def empty : Store := ⟨.empty, .empty, .empty⟩

def stream (s : Store) (k : AggregateKey) : List Message := (s.streams.get? k).getD []

/-- The version of the last event of an aggregate, or zero. -/
def currentVersion (s : Store) (k : AggregateKey) : Int32 :=
  ((s.stream k).getLast?.map Message.version).getD 0

def eventCount (s : Store) : Nat := s.streams.values.flatten.length

/-- Fails if another key than `key` is bound to the aggregate. -/
def checkKey (s : Store) (k : AggregateKey) (key : String) : Except StoreError Unit :=
  match s.keys.get? k with
  | some existing => if existing = key then .ok () else .error (.keyCollision key existing)
  | none => .ok ()

end Store
end EventSourcing
