import EventSourcing.Engine.Wiring

/-!
Handling a command. The command is accepted, the history of its aggregate is read and replayed, the
handler of its domain runs on the state, and exactly one event is appended and published: the one
that the handler published, or an error. If that event is refused, an error takes its place, and if
the error is refused too, the engine panics.
-/

namespace EventSourcing

structure Engine (α σ : Type) where
  registry : Registry α σ
  wiring : Wiring α σ
  reporter : Reporter α

inductive Rejection
  | unknownDomain (domain : Int32)
  | unknownCommand (type : TypeId) (uri : String)
  | unreadable (e : SerializationError)
  | noHandler (uri : String)
  deriving DecidableEq, Repr

def Rejection.message : Rejection → String
  | .unknownDomain domain => s!"Unknown domain [ {Numeral.hex32 domain} ]"
  | .unknownCommand type uri => s!"Unknown command type [ {type.text} ] in {uri}"
  | .unreadable e => s!"Unable to extract command payload: [ {e.message} ]"
  | .noHandler uri => s!"No command handler for {uri}"

inductive ReplayError
  | unknownType (type : TypeId)
  | unreadable (e : SerializationError)
  deriving DecidableEq, Repr

def ReplayError.message : ReplayError → String
  | .unknownType type => s!"unknown event type {type.text}"
  | .unreadable e => e.message

variable {α σ : Type}

def Domain.decodeEvent (d : Domain α σ) (event : Message) : Except ReplayError (Payload α) :=
  match d.catalog.events.byId event.typeId with
  | some type => (type.extract event).mapError .unreadable
  | none => .error (.unknownType event.typeId)

/-- The state after a history, from the initial one on, or the first event that cannot be replayed
with its place. -/
def Domain.replay (d : Domain α σ) (history : List Message) :
    Except (Nat × Message × ReplayError) (State σ) :=
  history.zipIdx.foldlM (fun state (event, i) =>
    match d.decodeEvent event with
    | .ok p => .ok (d.aggregate.apply state p)
    | .error e => .error (i, event, e)) d.aggregate.initial

/-- A command with what it takes to handle it. -/
structure Task (α σ : Type) where
  domain : Domain α σ
  handler : Handler α σ
  payload : Payload α

/-- Where a command stands before its handler runs. -/
inductive Readiness (α σ : Type)
  | failed (text : String)
  | ready (handler : Handler α σ) (i : Invocation α σ) (next : Int32)

namespace Engine

variable [Content α]

def accept (e : Engine α σ) (command : Message) : Except Rejection (Task α σ) := do
  let some domain := e.registry.domain command.domain | throw (.unknownDomain command.domain)
  let some type := domain.catalog.commands.byId command.typeId
    | throw (.unknownCommand command.typeId domain.uri)
  let payload ← (type.extract command).mapError .unreadable
  let some handler := e.wiring.handlers.get? domain.shortId | throw (.noHandler domain.uri)
  return { domain, handler, payload }

/-- Reads a history, a second time if the first reading is refused. -/
def load (domain : Int32) (a : Address) (w : World) : Except StoreError (List Message) × World :=
  match w.history domain a with
  | (.ok events, w) => (.ok events, w)
  | (.error _, w) => (w.count .hydrationRetries).history domain a

/-- Rebuilds the state of the aggregate that a command addresses. The version after its last one
must fit into 32 bits. -/
def hydrate (e : Engine α σ) (command : Message) (w : World) :
    Except Panic (Readiness α σ) × World :=
  match e.accept command with
  | .error rejection => (.ok (.failed rejection.message), w.enter .created)
  | .ok task =>
    let domain := task.domain
    let address := Address.of task.payload command.id
    match load domain.shortId address (w.enter .hydrating) with
    | (.error error, w) =>
      (.ok (.failed s!"Error loading aggregate events [ {error.message} ]"),
        w.enter .hydrationFailed)
    | (.ok events, w) =>
      let current := Int32.ofNat events.length
      match nextVersion? current with
      | none => (.error .addOverflow, w)
      | some next =>
        match domain.replay events with
        | .error (i, event, error) =>
          (.ok (.failed s!"Error extracting event [ {Numeral.decimal i} ] [ {event.text} ]: {error.message}"),
            w.enter .hydrationFailed)
        | .ok state =>
          let header := ⟨e.registry.sourceId, domain.shortId, address.aggregateId, current⟩
          (.ok (.ready task.handler ⟨header, state, command, task.payload⟩ next), w.enter .ready)

/-- Runs the handler, if the command came that far. A panic of the handler is an error of the
command. -/
def execute (e : Engine α σ) (readiness : Readiness α σ) (w : World) : Context α × World :=
  match readiness with
  | .failed text => ((Context.start 0 1 w.reports).error e.reporter text, w)
  | .ready handler i next =>
    let result := (handler.run i).run e.reporter (.start i.header.id next w.reports)
      (w.enter .executing)
    match result.panic with
    | none => (result.context, result.world)
    | some p =>
      (result.context.error e.reporter s!"Command handler panicked: {p.reason}", result.world)

/-- Appends a pending event, caused by what caused the command. -/
def appendPending (e : Engine α σ) (command : Message) (p : Payload α) (options : Options)
    (w : World) : Attempt StoreError Message × World :=
  let slot := match p.key with
    | some key => .key key
    | none => .version options.resolvedId options.version
  w.append e.registry slot command.origin p

/-- Appends the report that an event was refused. -/
def appendRefusal (e : Engine α σ) (command : Message) (refusal : StoreError) (w : World) :
    Except Panic Message × World :=
  let (p, options) := e.reporter.event w.reports s!"Error appending event [ {refusal.message} ]"
  let w := { w.count .appendRetries with reports := w.reports + 1 }
  match e.appendPending command p options w with
  | (.ok event, w) => (.ok event, w)
  | (.error (.panic p), w) => (.error p, w)
  | (.error (.error error), w) =>
    (.error (.of s!"event append failed twice for command {command.text}: {error.message}"),
      w.enter .appendFatal)

/-- Appends what is pending, or an error if nothing is. An event that cannot be appended is replaced
by the report of it. -/
def finalize (e : Engine α σ) (command : Message) (c : Context α) (w : World) :
    Except Panic Message × World :=
  let c := c.error e.reporter "Error event not published in handler"
  let w := { w with reports := c.reports }
  let w := if c.isError then (w.count .commandErrors).enter .errorPublished else w.enter .published
  match c.pending with
  | none => e.appendRefusal command (.unavailable "no event to append") w
  | some p =>
    match e.appendPending command p c.options w with
    | (.ok event, w) => (.ok event, w)
    | (.error (.panic p), w) => (.error p, w)
    | (.error (.error refusal), w) => e.appendRefusal command refusal w

def handle (e : Engine α σ) (command : Message) (w : World) : Except Panic Message × World :=
  match e.hydrate command (w.count .commandsHandled) with
  | (.error p, w) => (.error p, w)
  | (.ok readiness, w) =>
    let (c, w) := e.execute readiness w
    match e.finalize command c w with
    | (.error p, w) => (.error p, w)
    | (.ok event, w) => (.ok event, ((w.enter .appended).publish event).count .commandsTimed)

end Engine
end EventSourcing
