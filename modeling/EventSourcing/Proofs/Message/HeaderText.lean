import EventSourcing.Proofs.Message.Decoding
import EventSourcing.Proofs.Numeral

/-! The text of a header. Its four parts stand between bars, and no bar stands in a hexadecimal number, so
the text falls apart into just these parts. Each part writes its field as an unsigned number of as many
bits as the field has, and of each such number only one signed field is the two's complement. So the text
of a header, in either form, is read back as the header. -/

namespace EventSourcing

namespace Numeral

def readHex64? (text : List Char) : Option Int64 :=
  ((readHex? text).filter (· < UInt64.size)).map fun n => (UInt64.ofNat n).toInt64

def readHex32? (text : List Char) : Option Int32 :=
  ((readHex? text).filter (· < UInt32.size)).map fun n => (UInt32.ofNat n).toInt32

theorem readHex64?_hex64 (i : Int64) : readHex64? (hex64 i).toList = some i := by
  have hlt : i.toUInt64.toNat < UInt64.size := i.toUInt64.toNat_lt
  unfold readHex64? hex64
  rw [readHex?_hex, Option.filter_some, if_pos (decide_eq_true hlt), Option.map_some,
    UInt64.ofNat_toNat]
  rfl

theorem readHex32?_hex32 (i : Int32) : readHex32? (hex32 i).toList = some i := by
  have hlt : i.toUInt32.toNat < UInt32.size := i.toUInt32.toNat_lt
  unfold readHex32? hex32
  rw [readHex?_hex, Option.filter_some, if_pos (decide_eq_true hlt), Option.map_some,
    UInt32.ofNat_toNat]
  rfl

end Numeral

namespace Header

/-- Reads the text of a header: four hexadecimal numbers between bars, of 64, 32, 64 and 32 bits. -/
def ofText? (text : String) : Option Header :=
  match text.toList.splitOn '|' with
  | [source, domain, id, version] => do
    return ⟨← Numeral.readHex64? source, ← Numeral.readHex32? domain, ← Numeral.readHex64? id,
      ← Numeral.readHex32? version⟩
  | _ => none

theorem splitOn_text (h : Header) :
    h.text.toList.splitOn '|' =
      [(Numeral.hex64 h.source).toList, (Numeral.hex32 h.domain).toList,
        (Numeral.hex64 h.id).toList, (Numeral.hex32 h.version).toList] := by
  have hbar (n : Nat) : '|' ∉ (Numeral.hex n).toList := Numeral.not_mem_hex rfl n
  unfold text
  rw [String.toList_intercalate]
  apply List.splitOn_intercalate
  · simp [Numeral.hex64, Numeral.hex32, hbar]
  · simp

theorem ofText?_text (h : Header) : ofText? h.text = some h := by
  unfold ofText?
  rw [h.splitOn_text]
  simp only [Numeral.readHex64?_hex64, Numeral.readHex32?_hex32]
  rfl

theorem text_injective : Function.Injective text := by
  intro h h' htext
  have hread := h.ofText?_text
  rw [htext, ofText?_text] at hread
  exact (Option.some.inj hread).symm

end Header

/-- The text of a header is read back as its four fields, and so is the text of a record. So the texts of
two headers, each of them in either form, are equal only if all four fields are. -/
theorem text_determines_header :
    (∀ h : Header, Header.ofText? h.text = some h) ∧
      (∀ r : Record, Header.ofText? r.text = some ⟨r.source, r.domain, r.id, r.version⟩) ∧
      (∀ h h' : Header, h.text = h'.text ↔ h.source = h'.source ∧ h.domain = h'.domain ∧
        h.id = h'.id ∧ h.version = h'.version) ∧
      (∀ (h : Header) (r : Record), h.text = r.text ↔ h.source = r.source ∧ h.domain = r.domain ∧
        h.id = r.id ∧ h.version = r.version) ∧
      ∀ r r' : Record, r.text = r'.text ↔ r.source = r'.source ∧ r.domain = r'.domain ∧
        r.id = r'.id ∧ r.version = r'.version := by
  have hfields (h h' : Header) : h.text = h'.text ↔ h.source = h'.source ∧ h.domain = h'.domain ∧
      h.id = h'.id ∧ h.version = h'.version := by
    rw [Header.text_injective.eq_iff]
    obtain ⟨_, _, _, _⟩ := h
    obtain ⟨_, _, _, _⟩ := h'
    rw [Header.mk.injEq]
  refine ⟨Header.ofText?_text, ?_, hfields, ?_, ?_⟩
  · intro r
    exact Header.ofText?_text ⟨r.source, r.domain, r.id, r.version⟩
  · intro h r
    exact hfields h ⟨r.source, r.domain, r.id, r.version⟩
  · intro r r'
    exact hfields ⟨r.source, r.domain, r.id, r.version⟩ ⟨r'.source, r'.domain, r'.id, r'.version⟩

/-- Negative fields are written by their two's complement. -/
example : Header.ofText? "FFFFFFFFFFFFFFFF|FFFFFFFF|A|2" = some ⟨-1, -1, 10, 2⟩ := by decide

end EventSourcing
