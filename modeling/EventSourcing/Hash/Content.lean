import EventSourcing.Hash.Sha256

/-!
Stable identifiers: the leading bytes of the SHA-256 digest of a canonical text, read as a signed
number. Domains, message types and keyed aggregates are identified this way.
-/

namespace EventSourcing

def contentHash (data : Bytes) : Int64 := Bytes.toInt64 ((Sha256.digest data).take 8)

def contentHash32 (data : Bytes) : Int32 := Bytes.toInt32 ((Sha256.digest data).take 4)

def textHash (s : String) : Int64 := contentHash (Bytes.ofText s)

def textHash32 (s : String) : Int32 := contentHash32 (Bytes.ofText s)

end EventSourcing
