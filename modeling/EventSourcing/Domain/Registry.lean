import EventSourcing.Domain.Definition

/-!
The registry of the domains of one source. It always holds the system domain, whose command raises
an error and whose event reports it. Domains are found by short id and by URI, and both are
distinct.
-/

namespace EventSourcing

variable {α σ : Type}

def systemDefinition : Definition α σ where
  location := systemUri
  uri := none
  aggregate := some .errorLog
  commands := some ⟨.command, [⟨.raiseError, none⟩]⟩
  events := some ⟨.event, [⟨.errorRaised, none⟩]⟩

inductive RegistryError
  | duplicateDomain (uri : String)
  | system (e : CompileError)
  deriving DecidableEq, Repr

def RegistryError.message : RegistryError → String
  | .duplicateDomain uri => s!"duplicate domain: {uri}"
  | .system e => s!"system domain failed to compile: {e.message}"

inductive MessageError
  | unknownDomain (uri : String)
  | unknownMessageType (domain name : String)
  | serialization (e : SerializationError)
  deriving DecidableEq, Repr

def MessageError.message : MessageError → String
  | .unknownDomain uri => s!"unknown domain: {uri}"
  | .unknownMessageType domain name => s!"unknown message type {name} in domain {domain}"
  | .serialization e => s!"serialization error: {e.message}"

structure Registry (α σ : Type) where
  sourceUri : String
  sourceId : Int64
  domains : Table Int32 (Domain α σ)
  uris : Table String Int32

namespace Registry

def empty (sourceUri : String) : Registry α σ :=
  ⟨sourceUri, textHash sourceUri, .empty, .empty⟩

/-- Adds a domain whose short id and URI are both new. -/
def add (r : Registry α σ) (d : Domain α σ) : Except RegistryError (Registry α σ) :=
  if r.domains.contains d.shortId ∨ r.uris.contains d.uri then .error (.duplicateDomain d.uri)
  else .ok { r with domains := r.domains.insert d.shortId d, uris := r.uris.insert d.uri d.shortId }

def build (sourceUri : String) (domains : List (Domain α σ)) :
    Except RegistryError (Registry α σ) := do
  let system ← (systemDefinition : Definition α σ).compile.mapError .system
  (system :: domains).foldlM add (empty sourceUri)

def domain (r : Registry α σ) (shortId : Int32) : Option (Domain α σ) := r.domains.get? shortId

def domainByUri (r : Registry α σ) (uri : String) : Option (Domain α σ) :=
  (r.uris.get? (Uri.normalize uri)).bind r.domains.get?

def system (r : Registry α σ) : Option (Domain α σ) := r.domainByUri systemUri

variable [Content α]

def domainOf (r : Registry α σ) (p : Payload α) : Option (Domain α σ) := r.domainByUri p.uri

end Registry

variable [Content α]

def Domain.newMessage (d : Domain α σ) (source id : Int64) (version : Int32) (timestamp : Int64)
    (origin : List Record) (p : Payload α) : Except MessageError Message := do
  let some type := d.messageType p | throw (.unknownMessageType d.uri p.name)
  let data ← p.encode.mapError .serialization
  return ⟨⟨source, d.shortId, id, version⟩, origin, timestamp, type.typeId, data⟩

def Registry.newMessage (r : Registry α σ) (id : Int64) (version : Int32) (timestamp : Int64)
    (origin : List Record) (p : Payload α) : Except MessageError Message :=
  match r.domainOf p with
  | some d => d.newMessage r.sourceId id version timestamp origin p
  | none => .error (.unknownDomain p.uri)

end EventSourcing
