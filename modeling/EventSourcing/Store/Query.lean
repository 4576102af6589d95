import EventSourcing.Store.Basic

/-!
Reading a store. Events are found by version, by the time of their appending, by domain and by key,
and a snapshot comes with the events after it.
-/

namespace EventSourcing

namespace Message

/-- Whether the message was stamped between `first` and `last`, both included. -/
def inPeriod (first last : Int64) (m : Message) : Bool :=
  first ≤ m.timestamp ∧ m.timestamp ≤ last

def precedes (m n : Message) : Bool :=
  m.timestamp < n.timestamp ∨ m.timestamp = n.timestamp ∧
    (m.id < n.id ∨ m.id = n.id ∧ m.version ≤ n.version)

end Message

namespace Store

def event? (s : Store) (k : AggregateKey) (version : Int32) : Option Message :=
  (s.stream k).find? (·.version = version)

def events (s : Store) (k : AggregateKey) (first : Int32) : List Message :=
  (s.stream k).filter (first ≤ ·.version)

def eventsInPeriod (s : Store) (k : AggregateKey) (first last : Int64) : List Message :=
  (s.stream k).filter (Message.inPeriod first last)

/-- The events of all aggregates of a domain, in the order by time, id and version. -/
def domainEvents (s : Store) (domain : Int32) (first last : Int64) : List Message :=
  let streams := s.streams.entries.filter (·.1.domain = domain)
  ((streams.flatMap (·.2)).filter (Message.inPeriod first last)).mergeSort Message.precedes

/-- The events of the aggregate that a key addresses. -/
def keyedEvents (s : Store) (domain : Int32) (key : String) (first : Int32) :
    Except StoreError (List Message) := do
  if key = "" then throw (.invalidEventKey key)
  let k : AggregateKey := ⟨domain, textHash key⟩
  s.checkKey k key
  return s.events k first

def snapshot? (s : Store) (k : AggregateKey) : Option Record := s.snapshots.get? k

/-- The snapshot of an aggregate and the events after it, or all events if there is none. The version
after that of the snapshot must fit into 32 bits. -/
def eventsWithSnapshot (s : Store) (k : AggregateKey) :
    Except Panic (List Message × Option Record) :=
  match s.snapshot? k with
  | none => .ok (s.events k 0, none)
  | some record =>
    match nextVersion? record.version with
    | some first => .ok (s.events k first, some record)
    | none => .error .addOverflow

end Store
end EventSourcing
