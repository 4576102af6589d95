import EventSourcing.Message.Basic

/-!
Options of a message to be built: whom it is addressed to, by id or by key, its version and its
timestamp. Options are changed by modifiers, applied in order.
-/

namespace EventSourcing

structure Options where
  id : Int64
  key : String
  /-- The version as set; `Options.version` is the one that counts. -/
  givenVersion : Int32
  timestamp : Int64
  deriving DecidableEq, Repr

namespace Options

def new (id : Int64) (version : Int32) (timestamp : Int64) : Options := ⟨id, "", version, timestamp⟩

def keyed (key : String) (version : Int32) (timestamp : Int64) : Options :=
  ⟨0, key, version, timestamp⟩

def default : Options := new 0 0 0

/-- At least 1. -/
def version (o : Options) : Int32 := if o.givenVersion < 1 then 1 else o.givenVersion

/-- The id if it is set, else the hash of the key if there is one, else zero. -/
def resolvedId (o : Options) : Int64 :=
  if o.id ≠ 0 then o.id else if o.key ≠ "" then textHash o.key else 0

def setId (o : Options) (id : Int64) : Options := { o with id }

/-- A key takes the place of the id. -/
def setKey (o : Options) (key : String) : Options := { o with key, id := 0 }

def setVersion (o : Options) (version : Int32) : Options := { o with givenVersion := version }

def setTimestamp (o : Options) (timestamp : Int64) : Options := { o with timestamp }

end Options

inductive Modifier
  | id (id : Int64)
  | key (key : String)
  | version (version : Int32)
  | timestamp (timestamp : Int64)
  | options (o : Options)
  | keep
  /-- Any other change, which an application brings itself. -/
  | custom (change : Options → Options)

namespace Modifier

def apply (o : Options) : Modifier → Options
  | .id i => o.setId i
  | .key k => o.setKey k
  | .version v => o.setVersion v
  | .timestamp t => o.setTimestamp t
  | .options o' => o'
  | .keep => o
  | .custom change => change o

/-- Addresses the aggregate of a record, or nobody else than before. -/
def ofRecord? : Option Record → Modifier
  | some r => .id r.id
  | none => .keep

/-- Addresses member `index` of the message's chain, counted from the most recent cause. -/
def originStack (m : Message) (index : UInt64) : Modifier := ofRecord? m.origin[index.toNat]?

/-- Addresses the most recent cause. -/
def originId (m : Message) : Modifier := originStack m 0

/-- Addresses member `index` of the message's chain, counted from the root. The index is raised by
one in 64 bits. -/
def originQueue (m : Message) (index : UInt64) : Except Panic Modifier :=
  if index.toNat + 1 < UInt64.size then
    let n := m.origin.length
    .ok (ofRecord? (if index.toNat + 1 ≤ n then m.origin[n - (index.toNat + 1)]? else none))
  else .error .addOverflow

end Modifier

def Options.apply (o : Options) (modifiers : List Modifier) : Options :=
  modifiers.foldl Modifier.apply o

end EventSourcing
