import EventSourcing.Domain.Aggregate
import EventSourcing.Domain.Catalog

/-!
Definitions of domains and their compilation. A definition names an aggregate type, a group of
commands and a group of events. Compiling checks it in a fixed order, derives the canonical name,
version and id of every member, and reports the first violation.
-/

namespace EventSourcing

/-- A payload type as a member of a group, with an optional version tag. -/
structure Member (α : Type) where
  type : PayloadType α
  tag : Option String

structure Group (α : Type) where
  kind : Kind
  members : List (Member α)

structure Definition (α σ : Type) where
  location : String
  uri : Option String
  aggregate : Option (AggregateType α σ)
  commands : Option (Group α)
  events : Option (Group α)

inductive CompileError
  | invalidDomainUri (uri : String)
  | aggregateNotProvided
  | invalidAggregate (name : String) (e : SerializationError)
  | commandsNotProvided
  | eventsNotProvided
  | invalidMessage (name uri : String)
  | invalidMessageVersion (name version : String)
  | duplicateMessage (name : String)
  deriving DecidableEq, Repr

def CompileError.message : CompileError → String
  | .invalidDomainUri uri => s!"invalid domain uri: {uri}"
  | .aggregateNotProvided => "aggregate not provided"
  | .invalidAggregate name e => s!"invalid aggregate: {name}: {e.message}"
  | .commandsNotProvided => "commands not provided"
  | .eventsNotProvided => "events not provided"
  | .invalidMessage name uri => s!"invalid message: {name} belongs to {uri}"
  | .invalidMessageVersion name version => s!"invalid message version: {name}: {version}"
  | .duplicateMessage name => s!"duplicate message: {name}"

structure Domain (α σ : Type) where
  uri : String
  id : Int64
  shortId : Int32
  name : String
  version : Int32
  aggregate : AggregateType α σ
  catalog : Catalog α

variable {α σ : Type}

/-- A version number, or the text that is none. -/
def readVersion (cs : List Char) : Except String UInt8 :=
  match Numeral.readUnsigned? 255 cs with
  | some n => .ok (UInt8.ofNat n)
  | none => .error (String.ofList cs)

/-- What follows the last `_v` of a name, if the name has one that is not at its very start. -/
def suffix? : List Char → Option (List Char)
  | [] => none
  | _ :: cs =>
    (suffix? cs).or <| match cs with
      | '_' :: 'v' :: rest => some rest
      | _ => none

namespace Member

/-- The tag decides if there is one, else the suffix of the name, else the version is 1. -/
def version (m : Member α) (lowerName : String) : Except CompileError UInt8 :=
  let read (cs : List Char) :=
    (readVersion cs).mapError (CompileError.invalidMessageVersion m.type.name)
  match m.tag with
  | some tag => read tag.toList
  | none =>
    match suffix? lowerName.toList with
    | some suffix => read suffix
    | none => .ok 1

/-- The entry of a member in the catalog of the domain at `uri`. -/
def compile (kind : Kind) (uri : String) (m : Member α) : Except CompileError (MessageType α) := do
  let lowerName := Text.lowercase m.type.name
  let version ← m.version lowerName
  if Uri.normalize m.type.uri ≠ uri then throw (.invalidMessage m.type.name m.type.uri)
  let canonicalName := canonicalName lowerName version
  let id := textHash canonicalName
  return {
    domainId := textHash uri
    domainUri := uri
    kind
    typeId := TypeId.pack kind id version
    displayName := m.type.name
    lowerName
    canonicalName
    version
    id
    decoder := m.type.decode }

/-- Appends the entry of a member, unless its display or canonical name is taken. -/
def compileOnto (kind : Kind) (uri : String) (entries : List (MessageType α)) (m : Member α) :
    Except CompileError (List (MessageType α)) := do
  let entry ← m.compile kind uri
  if entries.any fun e =>
      e.displayName = entry.displayName ∨ e.canonicalName = entry.canonicalName then
    throw (.duplicateMessage m.type.name)
  return entries ++ [entry]

end Member

/-- The members of a group that is given, of the right kind and not empty. -/
def Group.members? (kind : Kind) (g : Option (Group α)) : Option (List (Member α)) :=
  (g.filter fun g => g.kind = kind ∧ g.members ≠ []).map Group.members

namespace Definition

/-- The normal form of the override if it is not empty, else of the location. -/
def resolvedUri (d : Definition α σ) : String :=
  match d.uri with
  | some uri => Uri.normalize (if uri = "" then d.location else uri)
  | none => Uri.normalize d.location

def compile (d : Definition α σ) : Except CompileError (Domain α σ) := do
  let some aggregate := d.aggregate | throw .aggregateNotProvided
  match aggregate.encode aggregate.initial with
  | .error e => throw (.invalidAggregate aggregate.name e)
  | .ok _ => pure ()
  let uri := d.resolvedUri
  let some (name, version) := Uri.nameAndVersion? uri | throw (.invalidDomainUri uri)
  let some commands := Group.members? .command d.commands | throw .commandsNotProvided
  let some events := Group.members? .event d.events | throw .eventsNotProvided
  let entries ← commands.foldlM (Member.compileOnto .command uri) []
  let entries ← events.foldlM (Member.compileOnto .event uri) entries
  return {
    uri
    id := textHash uri
    shortId := textHash32 uri
    name
    version
    aggregate
    catalog := Catalog.ofMembers entries }

/-- The compiled domain; a definition that does not compile is a panic. -/
def compile! (d : Definition α σ) : Except Panic (Domain α σ) :=
  d.compile.mapError fun e => .of s!"domain failed to compile: {e.message}"

end Definition

namespace Domain

def messageType [Content α] (d : Domain α σ) (p : Payload α) : Option (MessageType α) :=
  d.catalog.byInstance p

/-- The entries of the given ids, in the order of the ids; unknown ids are left out. -/
def messages (d : Domain α σ) (ids : List TypeId) : List (MessageType α) :=
  ids.filterMap d.catalog.byId

def commands (d : Domain α σ) (ids : List TypeId) : List (MessageType α) :=
  ids.filterMap d.catalog.commands.byId

def events (d : Domain α σ) (ids : List TypeId) : List (MessageType α) :=
  ids.filterMap d.catalog.events.byId

/-- A line for the domain and an indented line for each entry. -/
def text (d : Domain α σ) : String :=
  let head := s!"{d.name} v{Numeral.signedDecimal d.version.toInt} uri[{d.uri}] id[{Numeral.hex32 d.shortId}] aggregate[{d.aggregate.name}]\n"
  head ++ String.join (d.catalog.entries.map fun t => s!"  {t.text}\n")

end Domain
end EventSourcing
