import EventSourcing.Hash.Content
import EventSourcing.Message.Payload
import EventSourcing.Text.Lowercase

/-!
Messages. Commands and events travel in the same envelope: the header of the aggregate addressed,
the chain of records that caused the message, a timestamp, the type and the encoded payload.
-/

namespace EventSourcing

structure Message where
  header : Header
  origin : List Record
  timestamp : Int64
  typeId : TypeId
  data : Bytes
  deriving DecidableEq, Repr

/-- The name under which a message type is hashed. -/
def canonicalName (lowerName : String) (version : UInt8) : String :=
  lowerName ++ "_v" ++ Numeral.decimal version.toNat

/-- The id of the message type of this canonical name. -/
def typeIdOf (kind : Kind) (lowerName : String) (version : UInt8) : TypeId :=
  TypeId.pack kind (textHash (canonicalName lowerName version)) version

namespace Message

def id (m : Message) : Int64 := m.header.id

def version (m : Message) : Int32 := m.header.version

def domain (m : Message) : Int32 := m.header.domain

def isCommand (m : Message) : Bool := m.typeId.isCommand

def text (m : Message) : String :=
  "|".intercalate [Numeral.hex64 m.header.source, Numeral.hex32 m.header.domain,
    "ID:" ++ Numeral.hex64 m.header.id, "V:" ++ Numeral.hex32 m.header.version]

/-- The chain of a message caused by this one: its own header before its own chain. -/
def chain (m : Message) : List Record := Record.ofHeader m.header :: m.origin

/-- Whether the message has the type that `name` gets at the version it carries. -/
def carries (m : Message) (name : String) : Bool :=
  typeIdOf m.typeId.kind (Text.lowercase name) m.typeId.version = m.typeId

/-- Decodes the payload as `type`, which the message must carry. -/
def extract {α : Type} (m : Message) (type : PayloadType α) :
    Except SerializationError (Payload α) :=
  if !m.carries type.name then
    .error ⟨s!"message type {m.typeId.text} is not {type.name}"⟩
  else if m.data.isEmpty then .error ⟨"empty payload"⟩
  else Decoder.run type.decode type.name m.data

end Message

open Json in
instance : Codec Message where
  toJson m := .record [("_agg", Codec.toJson m.header),
    ("_orig", .list (m.origin.map Codec.toJson)), ("_ts", .ofInt m.timestamp.toInt),
    ("_type", Codec.toJson m.typeId), ("_data", ofBytes m.data)]
  ofJson v := do
    let readHeader : Reader Header := Codec.ofJson
    let readRecords : Reader (List Record) := readList Codec.ofJson
    let readType : Reader TypeId := Codec.ofJson
    let fields ← readRecord "MessageData" [.of "_agg" readHeader,
      .listOrEmpty "_orig" (Codec.ofJson : Reader Record), .of "_ts" readInt64,
      .of "_type" readType, .of "_data" (readList readByte)] v
    match fields with
    | [header, origin, timestamp, typeId, data] =>
      return ⟨← readHeader header, ← readRecords origin, ← readInt64 timestamp, ← readType typeId,
        ← readList readByte data⟩
    | _ => throw .malformed

end EventSourcing
