import EventSourcing.Message.Options

/-! The members of a chain as addressees. Counted from the root, a chain is the reversed one, so each
member is addressed alike from both ends, and a place that the chain does not have is left alone. There is
one index from the root that is not even looked up: the greatest one has no successor. -/

namespace EventSourcing.Modifier

/-- Sets the id to that of the record, whatever the options are, and nothing else. -/
def Addresses (x : Modifier) (r : Record) : Prop := ∀ o : Options, x.apply o = { o with id := r.id }

def Idle (x : Modifier) : Prop := ∀ o : Options, x.apply o = o

variable {m : Message} {i j : UInt64}

section Lookup

variable {chain : List Record} {n : Nat}

theorem addresses_ofRecord? {r : Record} (h : chain[n]? = some r) : (ofRecord? chain[n]?).Addresses r := by
  rw [h]
  intro o
  rfl

theorem idle_ofRecord? (h : chain.length ≤ n) : (ofRecord? chain[n]?).Idle := by
  rw [List.getElem?_eq_none h]
  intro o
  rfl

end Lookup

/-- All indices but the greatest one have a successor. -/
theorem succ_lt_size_iff : i.toNat + 1 < UInt64.size ↔ i ≠ 0xffffffffffffffff := by
  have hlt : i.toNat < UInt64.size := i.toNat_lt
  rw [Ne, ← UInt64.toNat_inj]
  show i.toNat + 1 < UInt64.size ↔ ¬ i.toNat = UInt64.size - 1
  omega

/-- Below the greatest index, the chain from its root is the chain reversed. -/
theorem originQueue_eq_ok (h : i ≠ 0xffffffffffffffff) :
    originQueue m i = .ok (ofRecord? m.origin.reverse[i.toNat]?) := by
  unfold originQueue
  rw [if_pos (succ_lt_size_iff.2 h)]
  apply congrArg (Except.ok ∘ ofRecord?)
  split
  · next hlt =>
    rw [List.getElem?_reverse hlt]
    apply congrArg (m.origin[·]?)
    omega
  · next hge =>
    symm
    apply List.getElem?_eq_none
    rw [List.length_reverse]
    omega

theorem originQueue_eq_overflow (h : i = 0xffffffffffffffff) :
    originQueue m i = .error .addOverflow :=
  if_neg (mt succ_lt_size_iff.1 (not_not_intro h))

/-- The member at a place from the root is at the mirrored place from the other end. -/
theorem originQueue_eq_ok_mirrored (hi : i ≠ 0xffffffffffffffff) (hlt : i.toNat < m.origin.length) :
    originQueue m i = .ok (ofRecord? m.origin[m.origin.length - 1 - i.toNat]?) := by
  rw [originQueue_eq_ok hi, List.getElem?_reverse hlt]

/-- From both ends of a chain each of its members is addressed alike, in mirrored places and whatever the
options are, and beyond the other end the options are left as they are. But from the root the greatest
index is an overflow, however long the chain is. -/
theorem origin_modifiers_mirror (m : Message) (i : UInt64) :
    (i.toNat < m.origin.length → i ≠ 0xffffffffffffffff →
        ∃ r, m.origin[m.origin.length - 1 - i.toNat]? = some r ∧
          (∃ x, originQueue m i = .ok x ∧ x.Addresses r) ∧
          ∀ j : UInt64, j.toNat = m.origin.length - 1 - i.toNat → (originStack m j).Addresses r) ∧
      (m.origin.length ≤ i.toNat →
        (originStack m i).Idle ∧ (i ≠ 0xffffffffffffffff → ∃ x, originQueue m i = .ok x ∧ x.Idle)) ∧
      (i = 0xffffffffffffffff → originQueue m i = .error .addOverflow) := by
  refine ⟨?_, ?_, originQueue_eq_overflow⟩
  · intro hlt hi
    obtain ⟨r, hmember⟩ : ∃ r, m.origin[m.origin.length - 1 - i.toNat]? = some r :=
      ⟨_, List.getElem?_eq_getElem (by omega)⟩
    refine ⟨r, hmember, ⟨_, originQueue_eq_ok_mirrored hi hlt, addresses_ofRecord? hmember⟩, ?_⟩
    intro j hj
    rw [← hj] at hmember
    exact addresses_ofRecord? hmember
  · intro hbeyond
    refine ⟨idle_ofRecord? hbeyond, ?_⟩
    intro hi
    refine ⟨_, originQueue_eq_ok hi, idle_ofRecord? ?_⟩
    rw [List.length_reverse]
    exact hbeyond

def thirdEffect : Message where
  header := ⟨0, 0, 1, 1⟩
  origin := [.ofHeader ⟨0, 0, 100, 1⟩, .ofHeader ⟨0, 0, 200, 1⟩, .ofHeader ⟨0, 0, 300, 1⟩]
  timestamp := 0
  typeId := typeIdOf .event "valuecleared" 1
  data := []

theorem origin_modifiers_mirror_root :
    (0 : UInt64).toNat < thirdEffect.origin.length ∧ thirdEffect.origin.length ≤ (9 : UInt64).toNat ∧
      (∃ x, originQueue thirdEffect 0 = .ok x ∧ x.Addresses (.ofHeader ⟨0, 0, 300, 1⟩)) ∧
      (originStack thirdEffect 2).Addresses (.ofHeader ⟨0, 0, 300, 1⟩) ∧
      (originStack thirdEffect 9).Idle ∧ ∃ x, originQueue thirdEffect 9 = .ok x ∧ x.Idle := by
  have hfirst : (0 : UInt64).toNat < thirdEffect.origin.length := by decide
  have hbeyond : thirdEffect.origin.length ≤ (9 : UInt64).toNat := by decide
  obtain ⟨r, hr, hqueue, hstack⟩ := (origin_modifiers_mirror thirdEffect 0).1 hfirst (by decide)
  obtain ⟨hidle, hqueued⟩ := (origin_modifiers_mirror thirdEffect 9).2.1 hbeyond
  cases hr
  exact ⟨hfirst, hbeyond, hqueue, hstack 2 (by decide), hidle, hqueued (by decide)⟩

/-- The greatest index is beyond the chain, and is no idle modifier from the root as it is from the
other end. -/
theorem originQueue_greatest_overflows :
    thirdEffect.origin.length ≤ (0xffffffffffffffff : UInt64).toNat ∧
      (originStack thirdEffect 0xffffffffffffffff).Idle ∧
      originQueue thirdEffect 0xffffffffffffffff = .error .addOverflow ∧
      ¬ ∃ x, originQueue thirdEffect 0xffffffffffffffff = .ok x ∧ x.Idle := by
  have hbeyond : thirdEffect.origin.length ≤ (0xffffffffffffffff : UInt64).toNat := by decide
  have hoverflow : originQueue thirdEffect 0xffffffffffffffff = .error .addOverflow :=
    originQueue_eq_overflow rfl
  refine ⟨hbeyond, idle_ofRecord? hbeyond, hoverflow, ?_⟩
  intro ⟨x, hx, _⟩
  rw [hoverflow] at hx
  cases hx

end EventSourcing.Modifier
