import EventSourcing.Bytes
import EventSourcing.Numeral

/-!
The identity of an aggregate instance: 24 bytes, big-endian, of a source, a domain, an id and a
version. A header is the decoded form. A record keeps the bytes as they are, reads each field when
asked, and may carry a state behind the header.
-/

namespace EventSourcing

inductive HeaderError
  | tooShort (length : Nat)
  deriving DecidableEq, Repr

def HeaderError.message : HeaderError → String
  | .tooShort n => s!"aggregate header requires 24 bytes, got {Numeral.decimal n}"

structure Header where
  source : Int64
  domain : Int32
  id : Int64
  version : Int32
  deriving DecidableEq, Repr

def slice (b : Bytes) (start count : Nat) : Bytes := (b.drop start).take count

namespace Header

def zero : Header := ⟨0, 0, 0, 0⟩

def bytes (h : Header) : Bytes :=
  Bytes.ofInt64 h.source ++ Bytes.ofInt32 h.domain ++ Bytes.ofInt64 h.id ++ Bytes.ofInt32 h.version

def ofBytes (b : Bytes) : Except HeaderError Header :=
  if b.length < 24 then .error (.tooShort b.length)
  else .ok ⟨Bytes.toInt64 (slice b 0 8), Bytes.toInt32 (slice b 8 4),
    Bytes.toInt64 (slice b 12 8), Bytes.toInt32 (slice b 20 4)⟩

/-- The four fields in hexadecimal, separated by bars. -/
def text (h : Header) : String :=
  "|".intercalate [Numeral.hex64 h.source, Numeral.hex32 h.domain, Numeral.hex64 h.id,
    Numeral.hex32 h.version]

@[simp] theorem length_bytes (h : Header) : h.bytes.length = 24 := by simp [bytes]

end Header

structure Record where
  bytes : Bytes
  full : 24 ≤ bytes.length
  deriving DecidableEq, Repr

namespace Record

def ofBytes (b : Bytes) : Except HeaderError Record :=
  if h : b.length < 24 then .error (.tooShort b.length) else .ok ⟨b, Nat.le_of_not_lt h⟩

def snapshot (h : Header) (state : Bytes) : Record := ⟨h.bytes ++ state, by simp⟩

def ofHeader (h : Header) : Record := snapshot h []

def source (r : Record) : Int64 := Bytes.toInt64 (slice r.bytes 0 8)

def domain (r : Record) : Int32 := Bytes.toInt32 (slice r.bytes 8 4)

def id (r : Record) : Int64 := Bytes.toInt64 (slice r.bytes 12 8)

def version (r : Record) : Int32 := Bytes.toInt32 (slice r.bytes 20 4)

def uuid (r : Record) : Bytes := r.bytes.take 24

def state (r : Record) : Bytes := r.bytes.drop 24

/-- Decodes all fields in one pass over the bytes. -/
def header (r : Record) : Header :=
  let (source, rest) := r.bytes.splitAt 8
  let (domain, rest) := rest.splitAt 4
  let (id, rest) := rest.splitAt 8
  ⟨Bytes.toInt64 source, Bytes.toInt32 domain, Bytes.toInt64 id, Bytes.toInt32 (rest.take 4)⟩

def text (r : Record) : String := Header.text ⟨r.source, r.domain, r.id, r.version⟩

end Record
end EventSourcing
