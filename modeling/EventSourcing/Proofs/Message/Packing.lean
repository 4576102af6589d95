import Mathlib.Data.Nat.Bitwise
import EventSourcing.Proofs.Message.TypeId

/-! Packed ids as numbers. A word of 64 bits is made up of its three slots: the bit of the kind, the
version in the seven bits below it and the type id in the rest. So a word and its slots determine each
other, and the order of the words as signed numbers, in which the top bit counts negative, goes by the
kind first, then by the version and last by the type id. -/

namespace EventSourcing.TypeId

structure Slots where
  kind : Kind
  version : BitVec 7
  typeId : BitVec 56
  deriving DecidableEq

def Slots.word (s : Slots) : TypeId :=
  pack s.kind (Int64.ofNat s.typeId.toNat) (UInt8.ofNat s.version.toNat)

/-- The first id sorts before the second one or is the same: commands come before events, within a kind
the lower version first, and within a version the lower type id, read without a sign. -/
def InOrder (id id' : TypeId) : Prop :=
  id.kind = .command ∧ id'.kind = .event ∨
    id.kind = id'.kind ∧ (id.version < id'.version ∨
      id.version = id'.version ∧ id.typeId.toUInt64 ≤ id'.typeId.toUInt64)

/-- A signed number is its word, with the top bit counted negative. -/
theorem toInt_eq (t : Int64) :
    t.toInt = if t.toUInt64.toNat < 0x8000000000000000 then (t.toUInt64.toNat : Int)
      else t.toUInt64.toNat - 0x10000000000000000 := by
  show t.toBitVec.toInt = _
  rw [BitVec.toInt_eq_toNat_cond, Int64.toNat_toBitVec]
  split
  · rw [if_pos (by omega)]
  · rw [if_neg (by omega)]
    rfl

theorem toInt_emod (t : Int64) :
    t.toInt % 0x100000000000000 = (t.toUInt64.toNat % 0x100000000000000 : Nat) := by
  rw [toInt_eq]
  split
  · omega
  · omega

section Numbers

variable (id : TypeId)

theorem toNat_version : id.version.toNat = id.bits.toNat / 0x100000000000000 % 128 := by
  have hmask : versionMask.toNat >>> 56 = 2 ^ 7 - 1 := by decide
  have hslot : ((id.bits &&& versionMask) >>> 56).toNat =
      id.bits.toNat / 0x100000000000000 % 128 := by
    rw [UInt64.toNat_shiftRight, UInt64.toNat_and]
    show (id.bits.toNat &&& versionMask.toNat) >>> 56 = _
    rw [Nat.shiftRight_and_distrib, hmask, Nat.and_two_pow_sub_one_eq_mod,
      Nat.shiftRight_eq_div_pow]
  unfold version
  rw [UInt64.toNat_toUInt8, hslot]
  omega

theorem toNat_typeId : id.typeId.toUInt64.toNat = id.bits.toNat % 0x100000000000000 := by
  unfold typeId
  rw [UInt64.toUInt64_toInt64, UInt64.toNat_and]
  exact Nat.and_two_pow_sub_one_eq_mod id.bits.toNat 56

theorem kind_eq_command_iff : id.kind = .command ↔ 0x8000000000000000 ≤ id.bits.toNat := by
  have hlt : id.bits.toNat < 0x10000000000000000 := id.bits.toNat_lt
  have hbit : (id.bits &&& commandMask).toNat = id.bits.toNat / 2 ^ 63 % 2 * 2 ^ 63 := by
    rw [UInt64.toNat_and]
    show id.bits.toNat &&& 2 ^ 63 = _
    rw [Nat.and_two_pow, Nat.toNat_testBit]
  rw [← isCommand_iff_kind]
  unfold isCommand
  rw [decide_eq_true_iff, ← UInt64.toNat_inj, hbit]
  show _ = 2 ^ 63 ↔ _
  omega

/-- The slots make up the word. -/
theorem toNat_bits :
    id.bits.toNat = (if id.kind = .command then 0x8000000000000000 else 0) +
      id.version.toNat * 0x100000000000000 + id.typeId.toUInt64.toNat := by
  have hlt : id.bits.toNat < 0x10000000000000000 := id.bits.toNat_lt
  rw [toNat_version, toNat_typeId]
  split
  · next h =>
    have hle := id.kind_eq_command_iff.1 h
    omega
  · next h =>
    have hnot := mt id.kind_eq_command_iff.2 h
    omega

theorem toInt_raw :
    id.raw.toInt = (if id.kind = .command then -0x8000000000000000 else 0) +
      (id.version.toNat * 0x100000000000000 + id.typeId.toUInt64.toNat : Nat) := by
  have hbits := id.toNat_bits
  have hcommand := id.kind_eq_command_iff
  unfold bits at hbits hcommand
  rw [toInt_eq]
  split at hbits
  · next h =>
    have hle := hcommand.1 h
    rw [if_neg (by omega), if_pos h]
    omega
  · next h =>
    have hnot := mt hcommand.2 h
    rw [if_pos (by omega), if_neg h]
    omega

theorem toInt_typeId : id.typeId.toInt = id.typeId.toUInt64.toNat := by
  have hslot := id.toNat_typeId
  rw [toInt_eq, if_pos (by omega)]

end Numbers

section Order

variable {id id' : TypeId}

theorem eq_of_slots (hkind : id.kind = id'.kind) (hversion : id.version = id'.version)
    (htype : id.typeId = id'.typeId) : id = id' := by
  have hbits : id.bits = id'.bits := by
    rw [← UInt64.toNat_inj, toNat_bits, toNat_bits, hkind, hversion, htype]
  obtain ⟨⟨word⟩⟩ := id
  obtain ⟨⟨word'⟩⟩ := id'
  have hword : word = word' := hbits
  rw [hword]

theorem precedes_iff_inOrder : id.precedes id' = true ↔ id.InOrder id' := by
  have hversion := id.toNat_version
  have hversion' := id'.toNat_version
  have htype := id.toNat_typeId
  have htype' := id'.toNat_typeId
  unfold precedes InOrder
  rw [decide_eq_true_iff, Int64.le_iff_toInt_le, toInt_raw, toInt_raw, UInt8.lt_iff_toNat_lt,
    ← UInt8.toNat_inj, UInt64.le_iff_toNat_le]
  -- A lower kind outweighs all versions, and a lower version all type ids.
  cases hkind : id.kind <;> cases hkind' : id'.kind
  · simp
    omega
  · simp
    omega
  · simp
    omega
  · simp
    omega

theorem precedes_trans (id id' id'' : TypeId) (h : id.precedes id' = true)
    (h' : id'.precedes id'' = true) : id.precedes id'' = true := by
  unfold precedes at *
  simp only [decide_eq_true_eq] at *
  exact Int64.le_trans h h'

theorem precedes_total (id id' : TypeId) : (id.precedes id' || id'.precedes id) = true := by
  unfold precedes
  simp [Int64.le_total]

theorem pairwise_inOrder_sort (ids : List TypeId) : (sort ids).Pairwise InOrder := by
  refine (List.pairwise_mergeSort precedes_trans precedes_total ids).imp ?_
  intro id id' h
  exact precedes_iff_inOrder.1 h

end Order

section Packing

variable {kind kind' : Kind} {t t' : Int64} {v v' : UInt8}

theorem toNat_version_pack : (pack kind t v).version.toNat = v.toNat % 128 := by
  rw [version_pack, UInt8.toNat_and]
  exact Nat.and_two_pow_sub_one_eq_mod v.toNat 7

theorem toInt_typeId_pack : (pack kind t v).typeId.toInt = t.toInt % 0x100000000000000 := by
  rw [toInt_typeId, toInt_emod, typeId_pack, UInt64.toUInt64_toInt64]
  unfold idBits
  rw [UInt64.toNat_and]
  exact congrArg Nat.cast (Nat.and_two_pow_sub_one_eq_mod t.toUInt64.toNat 56)

theorem pack_eq_iff_mod :
    pack kind t v = pack kind' t' v' ↔ kind = kind' ∧ v.toNat % 128 = v'.toNat % 128 ∧
      t.toInt % 0x100000000000000 = t'.toInt % 0x100000000000000 := by
  have hversion : (pack kind t v).version = (pack kind' t' v').version ↔
      v.toNat % 128 = v'.toNat % 128 := by
    rw [← UInt8.toNat_inj, toNat_version_pack, toNat_version_pack]
  have htype : (pack kind t v).typeId = (pack kind' t' v').typeId ↔
      t.toInt % 0x100000000000000 = t'.toInt % 0x100000000000000 := by
    rw [← Int64.toInt_inj, toInt_typeId_pack, toInt_typeId_pack]
  rw [← hversion, ← htype]
  constructor
  · intro h
    refine ⟨?_, congrArg version h, congrArg typeId h⟩
    rw [← kind_pack kind t v, h, kind_pack]
  · intro ⟨hkind, hversion, htype⟩
    apply eq_of_slots
    · rw [kind_pack, kind_pack, hkind]
    · exact hversion
    · exact htype

theorem pack_slots (id : TypeId) : pack id.kind id.typeId id.version = id := by
  apply eq_of_slots
  · exact kind_pack _ _ _
  · have hslot := id.toNat_version
    rw [← UInt8.toNat_inj, toNat_version_pack]
    omega
  · have hslot := id.toNat_typeId
    rw [← Int64.toInt_inj, toInt_typeId_pack, toInt_emod, toInt_typeId]
    omega

/-- The two words of a version and a type id differ in the bit of the kind. -/
theorem bits_pack_xor (t : Int64) (v : UInt8) :
    (pack .command t v).bits ^^^ (pack .event t v).bits = commandMask := by
  show (commandMask ||| slots t v) ^^^ (~~~commandMask &&& slots t v) = commandMask
  rw [← UInt64.toBitVec_inj]
  simp only [UInt64.toBitVec_xor, UInt64.toBitVec_or, UInt64.toBitVec_and, UInt64.toBitVec_not]
  ext i hi
  simp only [BitVec.getElem_xor, BitVec.getElem_or, BitVec.getElem_and, BitVec.getElem_not]
  cases commandMask.toBitVec[i] <;> cases (slots t v).toBitVec[i] <;> rfl

end Packing

namespace Slots

theorem kind_word (s : Slots) : s.word.kind = s.kind := kind_pack _ _ _

theorem toNat_version_word (s : Slots) : s.word.version.toNat = s.version.toNat := by
  have hlt : s.version.toNat < 128 := s.version.isLt
  unfold word
  rw [toNat_version_pack, UInt8.toNat_ofNat']
  omega

theorem toInt_typeId_word (s : Slots) : s.word.typeId.toInt = s.typeId.toNat := by
  have hlt : s.typeId.toNat < 0x100000000000000 := s.typeId.isLt
  unfold word
  rw [toInt_typeId_pack, Int64.toInt_ofNat_of_lt (by omega)]
  omega

theorem word_injective : Function.Injective word := by
  intro s s' h
  have hkind : s.kind = s'.kind := by rw [← kind_word, h, kind_word]
  have hversion : s.version = s'.version := by
    apply BitVec.eq_of_toNat_eq
    rw [← toNat_version_word, h, toNat_version_word]
  have htype : s.typeId = s'.typeId := by
    apply BitVec.eq_of_toNat_eq
    rw [← Int.ofNat_inj, ← toInt_typeId_word, h, toInt_typeId_word]
  cases s
  cases s'
  cases hkind
  cases hversion
  cases htype
  rfl

theorem word_surjective : Function.Surjective word := by
  intro id
  refine ⟨⟨id.kind, .ofNat 7 id.version.toNat, .ofNat 56 id.typeId.toUInt64.toNat⟩, ?_⟩
  have hversion := id.toNat_version
  have htype := id.toNat_typeId
  apply eq_of_slots
  · exact kind_word _
  · rw [← UInt8.toNat_inj, toNat_version_word, BitVec.toNat_ofNat]
    omega
  · rw [← Int64.toInt_inj, toInt_typeId_word, toInt_typeId, BitVec.toNat_ofNat]
    omega

end Slots

/-- Words and triples of slots stand for each other. Packing cuts a version to seven bits and a type id
to fifty-six and keeps the kind, so the command and the event of the same version and type id differ in
the bit of the kind alone, two packed ids are the same just if they agree in all that is kept, and a word
that is taken apart and packed again is as it was. The words are sorted by their slots. -/
theorem packing_is_faithful :
    Function.Bijective Slots.word ∧
      (∀ (kind : Kind) (t : Int64) (v : UInt8), (pack kind t v).kind = kind ∧
        (pack kind t v).version.toNat = v.toNat % 128 ∧
        (pack kind t v).typeId.toInt = t.toInt % 0x100000000000000) ∧
      (∀ (t : Int64) (v : UInt8), (pack .command t v).bits ^^^ (pack .event t v).bits = commandMask) ∧
      (∀ (kind kind' : Kind) (t t' : Int64) (v v' : UInt8), pack kind t v = pack kind' t' v' ↔
        kind = kind' ∧ v.toNat % 128 = v'.toNat % 128 ∧
          t.toInt % 0x100000000000000 = t'.toInt % 0x100000000000000) ∧
      (∀ id : TypeId, pack id.kind id.typeId id.version = id) ∧
      (∀ id id' : TypeId, precedes id id' = true ↔ InOrder id id') ∧
      ∀ ids : List TypeId, (sort ids).Perm ids ∧ (sort ids).Pairwise InOrder := by
  refine ⟨⟨Slots.word_injective, Slots.word_surjective⟩, ?_, bits_pack_xor, ?_, pack_slots, ?_, ?_⟩
  · intro kind t v
    exact ⟨kind_pack kind t v, toNat_version_pack, toInt_typeId_pack⟩
  · intro kind kind' t t' v v'
    exact pack_eq_iff_mod
  · intro id id'
    exact precedes_iff_inOrder
  · intro ids
    exact ⟨List.mergeSort_perm ids precedes, pairwise_inOrder_sort ids⟩

example : (pack .command (-1) 129).text = "81FFFFFFFFFFFFFF" := by decide +kernel

end EventSourcing.TypeId
