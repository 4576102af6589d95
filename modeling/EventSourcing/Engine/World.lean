import EventSourcing.Store.Append
import EventSourcing.Store.Query

/-!
What an engine works on: the store, the publisher of appended events, the clock, and a journal of
what happened. Single reads and appends may be refused by the store.
-/

namespace EventSourcing

inductive Stage
  | created
  | hydrating
  | ready
  | hydrationFailed
  | executing
  | published
  | errorPublished
  | appended
  | appendFatal
  deriving DecidableEq, Repr

def Stage.text : Stage → String
  | .created => "Created"
  | .hydrating => "Hydrating"
  | .ready => "Ready"
  | .hydrationFailed => "HydrationFailed"
  | .executing => "Executing"
  | .published => "Published"
  | .errorPublished => "ErrorPublished"
  | .appended => "Appended"
  | .appendFatal => "AppendFatal"

inductive Metric
  | commandsHandled
  | hydrationRetries
  | commandErrors
  | appendRetries
  | commandsTimed
  | storeAppends
  | eventsDispatched
  deriving DecidableEq, Repr

namespace Metric

def all : List Metric :=
  [commandsHandled, hydrationRetries, commandErrors, appendRetries, commandsTimed, storeAppends,
    eventsDispatched]

def name : Metric → String
  | commandsHandled => "commands_handled_total"
  | hydrationRetries => "command_hydration_retries_total"
  | commandErrors => "command_errors_total"
  | appendRetries => "command_append_retries_total"
  | commandsTimed => "command_duration_seconds"
  | storeAppends => "event_store_appends_total"
  | eventsDispatched => "events_dispatched_total"

end Metric

inductive Entry
  | stage (s : Stage)
  | metric (m : Metric)
  /-- An event was appended. -/
  | appended (event : Message)
  /-- An append has failed. -/
  | refused (fault : Fault StoreError)
  /-- The dispatcher took an event from the channel. -/
  | taken (event : Message)
  | note (text : String)
  deriving DecidableEq, Repr

/-- What an entry adds one to. -/
def Entry.metric? : Entry → Option Metric
  | .metric m => some m
  | .appended _ => some .storeAppends
  | _ => none

inductive Publisher
  | noop
  /-- Keeps all events. -/
  | recording (log : List Message)
  /-- Keeps the events that no dispatcher has taken yet. -/
  | channel (queue : List Message)
  | closed
  deriving DecidableEq, Repr

def Publisher.publish (m : Message) : Publisher → Publisher
  | .recording log => .recording (log ++ [m])
  | .channel queue => .channel (queue ++ [m])
  | p => p

/-- What the next reads and appends are refused with, in their order; a call without an entry, or
with an empty one, is served. What is read is shown through `view`. -/
structure Outage where
  reads : List (Option StoreError)
  appends : List (Option StoreError)
  view : List Message → List Message

def Outage.none : Outage := ⟨[], [], id⟩

structure Clock where
  time : Nat → Int64
  readings : Nat

structure World where
  store : Store
  outage : Outage
  publisher : Publisher
  clock : Clock
  /-- How many error reports were made. -/
  reports : Nat
  journal : List Entry

inductive Address
  | id (id : Int64)
  | key (key : String)
  deriving DecidableEq, Repr

namespace Address

/-- A payload with a key goes to the aggregate of the key, whatever id comes with it. -/
def of {α : Type} [Content α] (p : Payload α) (id : Int64) : Address :=
  match p.key with
  | some k => .key k
  | none => .id id

def aggregateId : Address → Int64
  | .id i => i
  | .key k => textHash k

end Address

/-- Where an event is appended: at a version of an aggregate, or at the end of a keyed one. -/
inductive Slot
  | version (id : Int64) (version : Int32)
  | key (key : String)
  deriving DecidableEq, Repr

namespace World

def fresh (publisher : Publisher) (time : Nat → Int64) : World :=
  ⟨.empty, .none, publisher, ⟨time, 0⟩, 0, []⟩

def record (w : World) (e : Entry) : World := { w with journal := w.journal ++ [e] }

def enter (w : World) (s : Stage) : World := w.record (.stage s)

def count (w : World) (m : Metric) : World := w.record (.metric m)

def note (w : World) (text : String) : World := w.record (.note text)

def counted (w : World) (m : Metric) : Nat := w.journal.countP (·.metric? = some m)

def publish (w : World) (m : Message) : World :=
  { w with publisher := w.publisher.publish m }

/-- The time, which is never read twice. -/
def now (w : World) : Int64 × World :=
  (w.clock.time w.clock.readings,
    { w with clock := { w.clock with readings := w.clock.readings + 1 } })

def history (w : World) (domain : Int32) (a : Address) :
    Except StoreError (List Message) × World :=
  let served : Except StoreError (List Message) := match a with
    | .id id => .ok (w.store.events ⟨domain, id⟩ 0)
    | .key key => w.store.keyedEvents domain key 0
  let rest := { w with outage := { w.outage with reads := w.outage.reads.tail } }
  match w.outage.reads.head? with
  | some (some e) => (.error e, rest)
  | _ => (served.map w.outage.view, rest)

def append {α σ : Type} [Content α] (w : World) (r : Registry α σ) (slot : Slot)
    (origin : List Record) (p : Payload α) : Attempt StoreError Message × World :=
  let (time, w) := w.now
  let rest := { w with outage := { w.outage with appends := w.outage.appends.tail } }
  match w.outage.appends.head? with
  | some (some e) => (refuse e, rest.record (.refused (.error e)))
  | _ =>
    let served := match slot with
      | .version id version => w.store.append r time id version origin p
      | .key key => w.store.appendKeyed r time key origin p
    match served with
    | (.ok m, store) => (.ok m, { rest with store }.record (.appended m))
    | (.error fault, store) => (.error fault, { rest with store }.record (.refused fault))

end World
end EventSourcing
