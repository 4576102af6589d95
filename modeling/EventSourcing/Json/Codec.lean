import EventSourcing.Fault
import EventSourcing.IdSet
import EventSourcing.Json.Printer
import EventSourcing.Json.Reader
import EventSourcing.Message.Header
import EventSourcing.Message.TypeId

/-!
Types with a JSON form. Encoding writes the form as bytes; decoding reads bytes back and fails on
an empty input, on a text that is not JSON and on data of the wrong form.
-/

namespace EventSourcing.Json

class Codec (α : Type) where
  toJson : α → Value
  ofJson : Reader α

def encode {α : Type} [Codec α] (a : α) : Bytes := render (Codec.toJson a)

def readAs (α : Type) [Codec α] (source : Bytes) : Except ReadError α :=
  readDocument Codec.ofJson source

def decode {α : Type} [Codec α] (source : Bytes) : Except SerializationError α :=
  if source.isEmpty then .error ⟨"empty payload"⟩
  else (readAs α source).mapError fun e => ⟨e.message⟩

def ofBytes (b : Bytes) : Value := .list (b.map fun x => .ofInt x.toNat)

def ofOption (s : Option String) : Value :=
  match s with
  | some s => .ofText s
  | none => .null

instance : Codec TypeId where
  toJson t := .ofInt t.raw.toInt
  ofJson v := (readInt64 v).map TypeId.mk

/-- A set is the list of its members, in ascending order when written. -/
instance : Codec IdSet where
  toJson s := .list (s.members.map fun x => .ofInt x.toInt)
  ofJson v := (readList readInt64 v).map IdSet.ofList

instance : Codec Header where
  toJson h := .record [("_source", .ofInt h.source.toInt), ("_domain", .ofInt h.domain.toInt),
    ("_id", .ofInt h.id.toInt), ("_ver", .ofInt h.version.toInt)]
  ofJson v := do
    let fields ← readRecord "AggregateHeaderData" [.of "_source" readInt64,
      .of "_domain" readInt32, .of "_id" readInt64, .of "_ver" readInt32] v
    match fields with
    | [source, domain, id, version] =>
      return ⟨← readInt64 source, ← readInt32 domain, ← readInt64 id, ← readInt32 version⟩
    | _ => throw .malformed

/-- A record is refused unless its bytes hold a header. -/
instance : Codec Record where
  toJson r := .record [("_data", ofBytes r.bytes)]
  ofJson v := do
    match ← readRecord "RawBody" [.of "_data" (readList readByte)] v with
    | [data] => (Record.ofBytes (← readList readByte data)).mapError fun e => .refused e.message
    | _ => throw .malformed

end EventSourcing.Json
