import EventSourcing.Store.Basic

/-!
Appending events. An event goes to the end of the stream of the aggregate addressed, and only if its
version follows the last one there. A keyed event takes the next version by itself and binds its key
to the aggregate. Every call answers the store that it leaves behind, also where it fails.
-/

namespace EventSourcing

variable {α σ : Type} [Content α]

def Registry.eventDomain (r : Registry α σ) (p : Payload α) : Except StoreError Int32 := do
  let some d := r.domainOf p | throw (.unknownDomain p.uri)
  match d.messageType p with
  | some type => if type.isCommand then throw (.notAnEvent type.canonicalName) else return d.shortId
  | none => throw (.unknownMessageType d.uri p.name)

namespace Store

def push (s : Store) (k : AggregateKey) (m : Message) : Store :=
  { s with streams := s.streams.insert k (s.stream k ++ [m]) }

def bind (s : Store) (k : AggregateKey) (key : String) : Store :=
  if s.keys.contains k then s else { s with keys := s.keys.insert k key }

theorem stream_push (s : Store) (k x : AggregateKey) (m : Message) :
    (s.push k m).stream x = if k = x then s.stream k ++ [m] else s.stream x := by
  unfold push stream
  rw [Table.get?_insert]
  split <;> rfl

theorem stream_bind (s : Store) (k x : AggregateKey) (key : String) :
    (s.bind k key).stream x = s.stream x := by
  unfold bind
  split <;> rfl

/-- Appends an event whose version follows the current one. The version before the given one must
fit into 32 bits. -/
def appendAt (s : Store) (r : Registry α σ) (now : Int64) (k : AggregateKey) (version : Int32)
    (origin : List Record) (p : Payload α) : Attempt StoreError Message × Store :=
  match previousVersion? version with
  | none => (.error (.panic .subOverflow), s)
  | some expected =>
    let found := s.currentVersion k
    if found ≠ expected then (refuse (.concurrencyConflict k expected found), s)
    else
      match r.newMessage k.id version now origin p with
      | .error e => (refuse (.ofMessageError e), s)
      | .ok m => (.ok m, s.push k m)

def append (s : Store) (r : Registry α σ) (now : Int64) (id : Int64) (version : Int32)
    (origin : List Record) (p : Payload α) : Attempt StoreError Message × Store :=
  match r.eventDomain p with
  | .error e => (refuse e, s)
  | .ok domain => s.appendAt r now ⟨domain, id⟩ version origin p

/-- Appends to the aggregate whose id is the hash of the key. -/
def appendKeyed (s : Store) (r : Registry α σ) (now : Int64) (key : String) (origin : List Record)
    (p : Payload α) : Attempt StoreError Message × Store :=
  if key = "" then (refuse (.invalidEventKey key), s)
  else
    match r.eventDomain p with
    | .error e => (refuse e, s)
    | .ok domain =>
      let k : AggregateKey := ⟨domain, textHash key⟩
      match s.checkKey k key with
      | .error e => (refuse e, s)
      | .ok () =>
        match nextVersion? (s.currentVersion k) with
        | none => (.error (.panic .addOverflow), s)
        | some version =>
          match s.appendAt r now k version origin p with
          | (.error fault, s) => (.error fault, s)
          | (.ok m, s) => (.ok m, s.bind k key)

end Store
end EventSourcing
