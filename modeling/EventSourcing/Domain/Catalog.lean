import EventSourcing.Domain.Uri
import EventSourcing.Message.Basic
import EventSourcing.Table

/-!
The message types of a compiled domain. The catalog lists commands before events and each of them
by canonical name, and it is indexed by display name and by packed id. A view of it answers for
one kind only.
-/

namespace EventSourcing

structure MessageType (α : Type) where
  domainId : Int64
  domainUri : String
  kind : Kind
  typeId : TypeId
  displayName : String
  lowerName : String
  canonicalName : String
  version : UInt8
  id : Int64
  decoder : Decoder α

namespace MessageType

variable {α : Type}

def isCommand (t : MessageType α) : Bool := t.kind = .command

def text (t : MessageType α) : String :=
  let mark := if t.isCommand then "C" else "E"
  s!"[{mark}] {t.displayName} v{Numeral.decimal t.version.toNat} type[{t.typeId.text}] id[{Numeral.hex64 t.id}]"

def decode (t : MessageType α) (data : Bytes) : Except SerializationError (Payload α) :=
  if data.isEmpty then .error ⟨s!"empty payload for {t.canonicalName}"⟩
  else Decoder.run t.decoder t.canonicalName data

def extract (t : MessageType α) (m : Message) : Except SerializationError (Payload α) :=
  if m.typeId ≠ t.typeId then
    .error ⟨s!"message type {m.typeId.text} is not {t.canonicalName}"⟩
  else t.decode m.data

def precedes (t u : MessageType α) : Bool :=
  match t.kind, u.kind with
  | .command, .event => true
  | .event, .command => false
  | _, _ => t.canonicalName ≤ u.canonicalName

end MessageType

structure Catalog (α : Type) where
  entries : List (MessageType α)
  commandCount : Nat
  names : Table String Nat
  ids : Table TypeId Nat

namespace Catalog

variable {α : Type}

/-- Sorts the members and indexes them; of two with one key the later one is found. -/
def ofMembers (members : List (MessageType α)) : Catalog α :=
  let entries := members.mergeSort MessageType.precedes
  { entries
    commandCount := entries.countP MessageType.isCommand
    names := Table.ofList (entries.zipIdx.map fun (t, i) => (t.displayName, i))
    ids := Table.ofList (entries.zipIdx.map fun (t, i) => (t.typeId, i)) }

def byName (c : Catalog α) (name : String) : Option (MessageType α) :=
  (c.names.get? name).bind (c.entries[·]?)

def byId (c : Catalog α) (id : TypeId) : Option (MessageType α) :=
  (c.ids.get? id).bind (c.entries[·]?)

/-- The entry of a payload type of the given name, if the type declares the domain's URI. -/
def byOwner (c : Catalog α) (name uri : String) : Option (MessageType α) :=
  (c.byName name).filter fun t => Uri.normalize uri = t.domainUri

def byInstance [Content α] (c : Catalog α) (p : Payload α) : Option (MessageType α) :=
  c.byOwner p.name p.uri

def byType (c : Catalog α) (t : PayloadType α) : Option (MessageType α) := c.byOwner t.name t.uri

/-- The part of a catalog that holds one kind. -/
structure View (α : Type) where
  catalog : Catalog α
  kind : Kind

def commands (c : Catalog α) : View α := ⟨c, .command⟩

def events (c : Catalog α) : View α := ⟨c, .event⟩

namespace View

def all (v : View α) : List (MessageType α) :=
  match v.kind with
  | .command => v.catalog.entries.take v.catalog.commandCount
  | .event => v.catalog.entries.drop v.catalog.commandCount

def keep (v : View α) (found : Option (MessageType α)) : Option (MessageType α) :=
  found.filter fun t => t.kind = v.kind

def byId (v : View α) (id : TypeId) : Option (MessageType α) := v.keep (v.catalog.byId id)

def byInstance [Content α] (v : View α) (p : Payload α) : Option (MessageType α) :=
  v.keep (v.catalog.byInstance p)

def byType (v : View α) (t : PayloadType α) : Option (MessageType α) := v.keep (v.catalog.byType t)

end View
end Catalog
end EventSourcing
