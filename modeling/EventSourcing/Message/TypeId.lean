import EventSourcing.Numeral

/-!
Identifiers of message types. One 64-bit word holds the kind of the message in its top bit
(set for a command), a version in the next seven bits and a type id in the low fifty-six.
Wider inputs are cut to their slot.
-/

namespace EventSourcing

inductive Kind
  | command
  | event
  deriving DecidableEq, Repr

structure TypeId where
  raw : Int64
  deriving DecidableEq, Repr

namespace TypeId

def commandMask : UInt64 := 0x8000000000000000

def versionMask : UInt64 := 0x7f00000000000000

def idMask : UInt64 := 0x00ffffffffffffff

def bits (t : TypeId) : UInt64 := t.raw.toUInt64

def isCommand (t : TypeId) : Bool := t.bits &&& commandMask = commandMask

def kind (t : TypeId) : Kind := if t.isCommand then .command else .event

def version (t : TypeId) : UInt8 := ((t.bits &&& versionMask) >>> 56).toUInt8

def typeId (t : TypeId) : Int64 := (t.bits &&& idMask).toInt64

/-- The version and the type id in their slots, with the kind's bit clear. -/
def slots (typeId : Int64) (version : UInt8) : UInt64 :=
  ((version.toUInt64 <<< 56) &&& versionMask) ||| (typeId.toUInt64 &&& idMask)

def pack (kind : Kind) (typeId : Int64) (version : UInt8) : TypeId :=
  match kind with
  | .command => ⟨(commandMask ||| slots typeId version).toInt64⟩
  | .event => ⟨(~~~commandMask &&& slots typeId version).toInt64⟩

def text (t : TypeId) : String := Numeral.paddedHex 16 t.bits.toNat

/-- The order of the packed words as signed numbers: commands come first. -/
def precedes (t u : TypeId) : Bool := t.raw ≤ u.raw

def sort (ts : List TypeId) : List TypeId := ts.mergeSort precedes

end TypeId
end EventSourcing
