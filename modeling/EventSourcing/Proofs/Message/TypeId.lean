import EventSourcing.Message.TypeId

/-! The slots of a packed message type id. The masks share no bit, so each slot is read back as it was
written, cut to its width, and two packed ids are equal just when all three slots are. -/

namespace EventSourcing.TypeId

section Masks

variable {a x mask : UInt64}

theorem bit_of_disjoint (h : a &&& mask = 0) {i : Nat} (hi : i < 64) :
    (a.toBitVec[i] && mask.toBitVec[i]) = false := by
  rw [← BitVec.getElem_and, ← UInt64.toBitVec_and, h]
  exact BitVec.getElem_zero hi

theorem or_and_of_disjoint (h : a &&& mask = 0) : (a ||| x) &&& mask = x &&& mask := by
  rw [← UInt64.toBitVec_inj]
  simp only [UInt64.toBitVec_and, UInt64.toBitVec_or]
  ext i hi
  have hbit := bit_of_disjoint h hi
  simp only [BitVec.getElem_and, BitVec.getElem_or]
  cases hm : mask.toBitVec[i] <;> simp_all

theorem not_and_and_of_disjoint (h : a &&& mask = 0) : (~~~a &&& x) &&& mask = x &&& mask := by
  rw [← UInt64.toBitVec_inj]
  simp only [UInt64.toBitVec_and, UInt64.toBitVec_not]
  ext i hi
  have hbit := bit_of_disjoint h hi
  simp only [BitVec.getElem_and, BitVec.getElem_not]
  cases hm : mask.toBitVec[i] <;> simp_all

theorem and_and_of_disjoint (h : a &&& mask = 0) : (x &&& a) &&& mask = 0 := by
  rw [UInt64.and_assoc, h, UInt64.and_zero]

end Masks

theorem forall_byte {P : UInt8 → Prop} (h : ∀ n < 256, P (UInt8.ofNat n)) (v : UInt8) : P v := by
  have hv := h v.toNat v.toNat_lt
  rwa [UInt8.ofNat_toNat] at hv

theorem and_127_of_lt (v : UInt8) : v < 128 → v &&& 127 = v :=
  forall_byte (P := fun v => v < 128 → v &&& 127 = v) (by decide +kernel) v

theorem shifted_version (v : UInt8) :
    (v.toUInt64 <<< 56) &&& versionMask = (v &&& 127).toUInt64 <<< 56 :=
  forall_byte (P := fun v => (v.toUInt64 <<< 56) &&& versionMask = (v &&& 127).toUInt64 <<< 56)
    (by decide +kernel) v

theorem shifted_back (v : UInt8) : ((v &&& 127).toUInt64 <<< 56 >>> 56).toUInt8 = v &&& 127 :=
  forall_byte (P := fun v => ((v &&& 127).toUInt64 <<< 56 >>> 56).toUInt8 = v &&& 127)
    (by decide +kernel) v

/-- The bits of an id that its slot keeps. -/
def idBits (typeId : Int64) : UInt64 := typeId.toUInt64 &&& idMask

theorem bits_pack_and (kind : Kind) (t : Int64) (v : UInt8) {mask : UInt64}
    (h : commandMask &&& mask = 0) : (pack kind t v).bits &&& mask = slots t v &&& mask := by
  cases kind with
  | command =>
    simp only [bits, pack, UInt64.toUInt64_toInt64]
    exact or_and_of_disjoint h
  | event =>
    simp only [bits, pack, UInt64.toUInt64_toInt64]
    exact not_and_and_of_disjoint h

theorem kind_pack (kind : Kind) (t : Int64) (v : UInt8) : (pack kind t v).kind = kind := by
  have hslots : slots t v &&& commandMask = 0 := by
    unfold slots
    rw [or_and_of_disjoint (and_and_of_disjoint (by decide)), and_and_of_disjoint (by decide)]
  cases kind with
  | command =>
    have hbit : (commandMask ||| slots t v) &&& commandMask = commandMask := by
      rw [UInt64.or_comm, or_and_of_disjoint hslots, UInt64.and_self]
    simp [TypeId.kind, isCommand, bits, pack, hbit]
  | event =>
    have hbit : (~~~commandMask &&& slots t v) &&& commandMask = 0 := by
      rw [UInt64.and_assoc, hslots, UInt64.and_zero]
    have hne : (0 : UInt64) ≠ commandMask := by decide
    simp [TypeId.kind, isCommand, bits, pack, hbit, hne]

/-- The version slot has seven bits. -/
theorem version_pack (kind : Kind) (t : Int64) (v : UInt8) : (pack kind t v).version = v &&& 127 := by
  have hslots : slots t v &&& versionMask = (v &&& 127).toUInt64 <<< 56 := by
    unfold slots
    rw [UInt64.or_comm, or_and_of_disjoint (and_and_of_disjoint (by decide)), UInt64.and_assoc,
      UInt64.and_self, shifted_version]
  rw [version, bits_pack_and kind t v (by decide), hslots, shifted_back]

theorem typeId_pack (kind : Kind) (t : Int64) (v : UInt8) :
    (pack kind t v).typeId = (idBits t).toInt64 := by
  have hslots : slots t v &&& idMask = idBits t := by
    unfold slots idBits
    rw [or_and_of_disjoint (and_and_of_disjoint (by decide)), UInt64.and_assoc, UInt64.and_self]
  rw [typeId, bits_pack_and kind t v (by decide), hslots]

theorem pack_eq_pack_iff {kind kind' : Kind} {t t' : Int64} {v v' : UInt8} :
    pack kind t v = pack kind' t' v' ↔
      kind = kind' ∧ idBits t = idBits t' ∧ v &&& 127 = v' &&& 127 := by
  refine ⟨?_, ?_⟩
  · intro h
    refine ⟨?_, ?_, ?_⟩
    · rw [← kind_pack kind t v, h, kind_pack]
    · have hid := congrArg typeId h
      rw [typeId_pack, typeId_pack] at hid
      simpa using congrArg Int64.toUInt64 hid
    · rw [← version_pack kind t v, h, version_pack]
  · rintro ⟨rfl, ht, hv⟩
    have hslots : slots t v = slots t' v' := by
      unfold slots
      unfold idBits at ht
      rw [shifted_version, shifted_version, ht, hv]
    unfold pack
    rw [hslots]

theorem isCommand_iff_kind (t : TypeId) : t.isCommand = true ↔ t.kind = .command := by
  unfold TypeId.kind
  split
  · next h => simp [h]
  · next h => simp [h]

end EventSourcing.TypeId
