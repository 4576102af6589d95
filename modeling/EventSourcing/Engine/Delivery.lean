import EventSourcing.Engine.Command

/-!
Delivery of appended events. The dispatcher takes the events of the channel one at a time and runs
every service subscribed to them. A service may issue commands, which are handled at once and whose
events join the channel. A panic ends a delivery; the event being delivered is gone then.
-/

namespace EventSourcing

variable {α σ : Type} [Content α]

namespace Engine

/-- Handles a follow-on command of an event. Unless the options set another time, the command is
stamped with the current one. -/
def issueWith (e : Engine α σ) (event : Message) (p : Payload α) (options : Options) (w : World) :
    Except Panic (Except MessageError Message) × World :=
  let (time, w) := if options.timestamp = 0 then w.now else (options.timestamp, w)
  match e.registry.newMessage options.resolvedId options.version time event.chain p with
  | .error error => (.ok (.error error), w)
  | .ok command =>
    let (result, w) := e.handle command w
    (result.map .ok, w)

def issue (e : Engine α σ) (event : Message) (w : World) :
    Issue α → Except Panic (Except MessageError Message) × World
  | .publish p modifiers => e.issueWith event p (Options.default.apply modifiers) w
  | .error text =>
    let (p, options) := e.reporter.command w.reports text
    e.issueWith event p options { w with reports := w.reports + 1 }

def react (e : Engine α σ) (event : Message) : Reaction α → World → Except Panic Unit × World
  | .done, w => (.ok (), w)
  | .panic p, w => (.error p, w)
  | .meanwhile act rest, w => e.react event rest (act w)
  | .issue i next, w =>
    match e.issue event w i with
    | (.error p, w) => (.error p, w)
    | (.ok result, w) => e.react event (next result) w

/-- The reaction of a service to an event. An event that no registered domain can decode is a
panic. -/
def reaction (e : Engine α σ) (s : Service α) (event : Message) : Except Panic (Reaction α) := do
  let some d := e.registry.domain event.domain
    | throw (.of s!"event {event.text} belongs to an unregistered domain")
  let p ← (d.decodeEvent event).mapError fun
    | .unknownType type => .of s!"event {event.text} has unknown type {type.text}"
    | .unreadable error => .of s!"event {event.text} cannot be decoded: {error.message}"
  if (e.registry.domainByUri s.uri).isNone then
    throw (.of s!"service {s.name} belongs to an unregistered domain")
  return s.react event p

def deliver (e : Engine α σ) (s : Service α) (event : Message) (w : World) :
    Except Panic Unit × World :=
  match e.reaction s event with
  | .error p => (.error p, w)
  | .ok r =>
    match e.react event r w with
    | (.error p, w) => (.error p, w)
    | (.ok (), w) => (.ok (), w.count .eventsDispatched)

def deliverAll (e : Engine α σ) (event : Message) :
    List (Service α) → World → Except Panic Unit × World
  | [], w => (.ok (), w)
  | s :: rest, w =>
    match e.deliver s event w with
    | (.error p, w) => (.error p, w)
    | (.ok (), w) => e.deliverAll event rest w

/-- Runs the subscribers of an event, and says how many they are. Commands have none. -/
def dispatch (e : Engine α σ) (event : Message) (w : World) : Except Panic Nat × World :=
  if event.isCommand then (.ok 0, w)
  else
    let services := e.wiring.servicesFor event
    let (result, w) := e.deliverAll event services w
    (result.map fun _ => services.length, w)

def dispatchAll (e : Engine α σ) : List Message → World → Except Panic Unit × World
  | [], w => (.ok (), w)
  | event :: rest, w =>
    match e.dispatch event w with
    | (.error p, w) => (.error p, w)
    | (.ok _, w) => e.dispatchAll rest w

/-- Dispatches listed events while nobody is told of the events that follow on them. -/
def relay (e : Engine α σ) (events : List Message) (w : World) : Except Panic Unit × World :=
  let (result, after) := e.dispatchAll events { w with publisher := .noop }
  (result, { after with publisher := w.publisher })

end Engine

def World.take (w : World) : Option (Message × World) :=
  match w.publisher with
  | .channel (event :: rest) =>
    some (event, { w with publisher := .channel rest }.record (.taken event))
  | _ => none

namespace Engine

/-- Dispatches until the channel is empty, those events included that are published meanwhile, and
says how many events were taken. There is no answer if `fuel` events do not suffice. -/
def drain (e : Engine α σ) : Nat → World → Option (Except Panic Nat × World)
  | 0, w => if w.take.isSome then none else some (.ok 0, w)
  | fuel + 1, w =>
    match w.take with
    | none => some (.ok 0, w)
    | some (event, w) =>
      match e.dispatch event w with
      | (.error p, w) => some (.error p, w)
      | (.ok _, w) => (e.drain fuel w).map fun (result, w) => (result.map (· + 1), w)

end Engine
end EventSourcing
