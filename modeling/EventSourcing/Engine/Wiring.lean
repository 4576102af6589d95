import EventSourcing.Engine.Script

/-!
The wiring of an engine: the command handler of each domain, and the services in the order in which
they were wired, with an index from event types to the services subscribed to them. Every wiring step
leaves a wiring behind, and the first step that is not allowed is reported in the end.
-/

namespace EventSourcing

inductive WiringError
  | unknownDomain (uri : String)
  | unknownMessage (domain name : String)
  | aggregateMismatch (domain expected found : String)
  | duplicateHandler (domain : String)
  | notAnEvent (canonicalName : String)
  deriving DecidableEq, Repr

def WiringError.message : WiringError → String
  | .unknownDomain uri => s!"Unknown domain: {uri}"
  | .unknownMessage domain name => s!"Unknown message {name} in domain {domain}"
  | .aggregateMismatch domain expected found =>
    s!"Aggregate mismatch for {domain}: domain uses {expected}, handler uses {found}"
  | .duplicateHandler domain => s!"Duplicate command handler for {domain}"
  | .notAnEvent canonicalName => s!"Not an event: {canonicalName}"

structure EventType where
  domain : Int32
  type : TypeId
  deriving DecidableEq, Repr

variable {α σ : Type} [Content α]

/-- Records a raised error on the error log. -/
def systemHandler : Handler α σ where
  aggregate := "ErrorLog"
  run i :=
    match i.payload with
    | .raiseError e => .call (.publish (.errorRaised ⟨e.message⟩) []) .done
    | p => .call (.error s!"Unsupported system command {p.name}") .done

structure Wiring (α σ : Type) where
  handlers : Table Int32 (Handler α σ)
  services : List (Service α)
  /-- The places of the subscribed services in the list of services. -/
  subscribers : Table EventType (List Nat)

inductive WiringStep (α σ : Type)
  | handler (uri : String) (h : Handler α σ)
  | service (s : Service α)

namespace Wiring

def empty : Wiring α σ := ⟨.empty, [], .empty⟩

/-- Wires the command handler of the domain at `uri`, whose aggregate type it must share. -/
def addHandler (w : Wiring α σ) (r : Registry α σ) (uri : String) (h : Handler α σ) :
    Except WiringError Unit × Wiring α σ :=
  match r.domainByUri uri with
  | none => (.error (.unknownDomain uri), w)
  | some d =>
    if d.aggregate.fullName ≠ h.aggregate then
      (.error (.aggregateMismatch d.uri d.aggregate.name (shortTypeName h.aggregate)), w)
    else if w.handlers.contains d.shortId then (.error (.duplicateHandler d.uri), w)
    else (.ok (), { w with handlers := w.handlers.insert d.shortId h })

def resolve (r : Registry α σ) (s : Subscription) : Except WiringError EventType := do
  let some d := r.domainByUri s.uri | throw (.unknownDomain s.uri)
  let some type := d.catalog.byName s.name | throw (.unknownMessage d.uri s.name)
  if type.isCommand then throw (.notAnEvent type.canonicalName)
  return ⟨d.shortId, type.typeId⟩

def subscribe (subscribers : Table EventType (List Nat)) (index : Nat) (t : EventType) :
    Table EventType (List Nat) :=
  subscribers.insert t ((subscribers.get? t).getD [] ++ [index])

def addService (w : Wiring α σ) (r : Registry α σ) (s : Service α) :
    Except WiringError Unit × Wiring α σ :=
  if (r.domainByUri s.uri).isNone then (.error (.unknownDomain s.uri), w)
  else
    match s.subscriptions.mapM (resolve r) with
    | .error e => (.error e, w)
    | .ok types =>
      let index := w.services.length
      let w := { w with services := w.services ++ [s] }
      (.ok (), { w with subscribers := types.foldl (subscribe · index ·) w.subscribers })

def add (w : Wiring α σ) (r : Registry α σ) :
    WiringStep α σ → Except WiringError Unit × Wiring α σ
  | .handler uri h => w.addHandler r uri h
  | .service s => w.addService r s

/-- The services subscribed to an event type, in the order of their wiring. -/
def subscribersOf (w : Wiring α σ) (t : EventType) : List (Service α) :=
  ((w.subscribers.get? t).getD []).filterMap (w.services[·]?)

def servicesFor (w : Wiring α σ) (event : Message) : List (Service α) :=
  w.subscribersOf ⟨event.domain, event.typeId⟩

end Wiring

structure WiringBuilder (α σ : Type) where
  wiring : Wiring α σ
  error : Option WiringError

namespace WiringBuilder

def add (b : WiringBuilder α σ) (r : Registry α σ) (step : WiringStep α σ) : WiringBuilder α σ :=
  match b.wiring.add r step with
  | (.ok (), wiring) => { b with wiring }
  | (.error e, wiring) => { wiring, error := b.error.or (some e) }

/-- The system domain has its handler from the start. -/
def start (r : Registry α σ) : WiringBuilder α σ :=
  add ⟨.empty, none⟩ r (.handler systemUri systemHandler)

def build (b : WiringBuilder α σ) : Except WiringError (Wiring α σ) :=
  match b.error with
  | some e => .error e
  | none => .ok b.wiring

end WiringBuilder

def Wiring.build (r : Registry α σ) (steps : List (WiringStep α σ)) :
    Except WiringError (Wiring α σ) :=
  (steps.foldl (·.add r ·) (WiringBuilder.start r)).build

end EventSourcing
