/-!
Byte strings. Text is stored as its UTF-8 bytes, and whole numbers as a fixed number of bytes,
the most significant first.
-/

namespace EventSourcing

abbrev Bytes := List UInt8

namespace Bytes

def ofText (s : String) : Bytes := s.toUTF8.data.toList

/-- The text whose UTF-8 form is `b`, if there is one. -/
def text? (b : Bytes) : Option String := String.fromUTF8? ⟨b.toArray⟩

/-- The last `width` base-256 digits of `n`, most significant first. -/
def bigEndian : Nat → Nat → Bytes
  | 0, _ => []
  | width + 1, n => bigEndian width (n / 256) ++ [UInt8.ofNat n]

def toNat (b : Bytes) : Nat := b.foldl (fun acc x => acc * 256 + x.toNat) 0

def ofInt64 (i : Int64) : Bytes := bigEndian 8 i.toUInt64.toNat

def ofInt32 (i : Int32) : Bytes := bigEndian 4 i.toUInt32.toNat

def toInt64 (b : Bytes) : Int64 := (UInt64.ofNat (toNat b)).toInt64

def toInt32 (b : Bytes) : Int32 := (UInt32.ofNat (toNat b)).toInt32

@[simp] theorem length_bigEndian (width n : Nat) : (bigEndian width n).length = width := by
  induction width generalizing n with
  | zero => rfl
  | succ width ih => simp [bigEndian, ih]

@[simp] theorem length_ofInt64 (i : Int64) : (ofInt64 i).length = 8 := length_bigEndian 8 _

@[simp] theorem length_ofInt32 (i : Int32) : (ofInt32 i).length = 4 := length_bigEndian 4 _

end Bytes
end EventSourcing
