import Mathlib.Algebra.Group.Nat.Defs
import EventSourcing.Message.Header

/-! Records read back. Whole numbers are written in base 256 with as many digits as their type
needs, so they are read back as they were, and a record shows the fields of the header that it was
made from, whatever state stands behind the header. -/

namespace EventSourcing

namespace Bytes

theorem toNat_bigEndian (width n : Nat) : toNat (bigEndian width n) = n % 256 ^ width := by
  induction width generalizing n with
  | zero => exact (Nat.mod_one n).symm
  | succ width ih =>
    have hlast : (UInt8.ofNat n).toNat = n % 256 := UInt8.toNat_ofNat'
    have hinit := ih (n / 256)
    rw [toNat] at hinit
    rw [toNat, bigEndian, List.foldl_append, hinit, List.foldl_cons, List.foldl_nil, hlast,
      Nat.pow_succ, Nat.mul_comm (256 ^ width), Nat.mod_mul]
    omega

theorem toInt64_ofInt64 (i : Int64) : toInt64 (ofInt64 i) = i := by
  have hlt : i.toUInt64.toNat < 256 ^ 8 := i.toUInt64.toNat_lt
  rw [toInt64, ofInt64, toNat_bigEndian, Nat.mod_eq_of_lt hlt, UInt64.ofNat_toNat]
  rfl

theorem toInt32_ofInt32 (i : Int32) : toInt32 (ofInt32 i) = i := by
  have hlt : i.toUInt32.toNat < 256 ^ 4 := i.toUInt32.toNat_lt
  rw [toInt32, ofInt32, toNat_bigEndian, Nat.mod_eq_of_lt hlt, UInt32.ofNat_toNat]
  rfl

end Bytes

namespace Record

theorem fields_snapshot (h : Header) (state : Bytes) :
    (snapshot h state).source = h.source ∧ (snapshot h state).domain = h.domain ∧
      (snapshot h state).id = h.id ∧ (snapshot h state).version = h.version := by
  have hsource : slice (h.bytes ++ state) 0 8 = .ofInt64 h.source := by
    simp [slice, Header.bytes]
  have hdomain : slice (h.bytes ++ state) 8 4 = .ofInt32 h.domain := by
    simp [slice, Header.bytes]
  have hid : slice (h.bytes ++ state) 12 8 = .ofInt64 h.id := by
    simp [slice, Header.bytes, List.drop_append, List.drop_eq_nil_of_le]
  have hversion : slice (h.bytes ++ state) 20 4 = .ofInt32 h.version := by
    simp [slice, Header.bytes, List.drop_append, List.drop_eq_nil_of_le]
  refine ⟨?_, ?_, ?_, ?_⟩
  · exact (congrArg Bytes.toInt64 hsource).trans (Bytes.toInt64_ofInt64 h.source)
  · exact (congrArg Bytes.toInt32 hdomain).trans (Bytes.toInt32_ofInt32 h.domain)
  · exact (congrArg Bytes.toInt64 hid).trans (Bytes.toInt64_ofInt64 h.id)
  · exact (congrArg Bytes.toInt32 hversion).trans (Bytes.toInt32_ofInt32 h.version)

theorem state_snapshot (h : Header) (state : Bytes) : (snapshot h state).state = state :=
  List.drop_left' h.length_bytes

theorem ofHeader_injective : Function.Injective ofHeader := by
  intro h h' heq
  obtain ⟨hsource, hdomain, hid, hversion⟩ := fields_snapshot h []
  obtain ⟨hsource', hdomain', hid', hversion'⟩ := fields_snapshot h' []
  unfold ofHeader at heq
  rw [heq] at hsource hdomain hid hversion
  obtain ⟨_, _, _, _⟩ := h
  obtain ⟨_, _, _, _⟩ := h'
  rw [Header.mk.injEq]
  exact ⟨hsource.symm.trans hsource', hdomain.symm.trans hdomain', hid.symm.trans hid',
    hversion.symm.trans hversion'⟩

end Record
end EventSourcing
