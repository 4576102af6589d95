import Mathlib.Data.Nat.Digits.Lemmas
import EventSourcing.Numeral

/-! What the readers of numbers accept. A text is read as a number just if it writes the number: in
decimal digits, of which there is at least one, with a sign before them or without. The digits that
a number is written with are those of the positional system, without leading zeros, and a hexadecimal
number is read back from them. -/

namespace EventSourcing.Numeral

/-- The text consists of the digits of `n`, and perhaps of leading zeros. -/
def Digits (text : List Char) (n : Nat) : Prop :=
  ∃ ds : List Nat, ds ≠ [] ∧ (∀ d ∈ ds, d < 10) ∧ text = ds.map sign ∧ n = Nat.ofDigits 10 ds.reverse

/-- The text writes `n`, perhaps with a plus sign. -/
def WritesUnsigned (text : List Char) (n : Nat) : Prop :=
  Digits text n ∨ ∃ digits, text = '+' :: digits ∧ Digits digits n

/-- The text writes `i`, perhaps with a plus sign, or with a minus sign. -/
def WritesSigned (text : List Char) (i : Int) : Prop :=
  (∃ n : Nat, WritesUnsigned text n ∧ i = n) ∨
    ∃ digits n, text = '-' :: digits ∧ Digits digits n ∧ i = -(n : Int)

theorem ofDigits_eq (b : Nat) (ds : List Nat) : ofDigits b ds = Nat.ofDigits b ds.reverse := by
  rw [Nat.ofDigits_eq_foldr, List.foldr_reverse, ofDigits]
  congr 1
  funext acc d
  simp [Nat.mul_comm, Nat.add_comm]

theorem toNat_sign : ∀ d < 10, (sign d).toNat = 48 + d := by decide

theorem between_iff {low c high : Char} :
    (low ≤ c ∧ c ≤ high) ↔ low.toNat ≤ c.toNat ∧ c.toNat ≤ high.toNat := by
  rw [Char.le_def, Char.le_def, UInt32.le_iff_toNat_le, UInt32.le_iff_toNat_le]
  rfl

theorem decimalDigit?_eq_some_iff (c : Char) (d : Nat) :
    decimalDigit? c = some d ↔ d < 10 ∧ c = sign d := by
  have hrange : ('0' ≤ c ∧ c ≤ '9') ↔ 48 ≤ c.toNat ∧ c.toNat ≤ 57 := between_iff
  unfold decimalDigit?
  simp only [hrange]
  refine ⟨?_, ?_⟩
  · intro h
    split at h
    · next hc =>
      cases h
      refine ⟨by omega, ?_⟩
      unfold sign
      rw [if_pos (by omega), Nat.add_sub_cancel' hc.1, Char.ofNat_toNat]
    · cases h
  · rintro ⟨hd, rfl⟩
    rw [toNat_sign d hd, if_pos (by omega), Nat.add_sub_cancel_left]

theorem hexDigit?_sign : ∀ d < 16, hexDigit? (sign d) = some d := by decide

theorem hexDigit?_eq_some_iff (c : Char) (d : Nat) :
    hexDigit? c = some d ↔ d < 16 ∧ c = sign d := by
  have hdecimal : ('0' ≤ c ∧ c ≤ '9') ↔ 48 ≤ c.toNat ∧ c.toNat ≤ 57 := between_iff
  have hletter : ('A' ≤ c ∧ c ≤ 'F') ↔ 65 ≤ c.toNat ∧ c.toNat ≤ 70 := between_iff
  constructor
  · intro h
    unfold hexDigit? at h
    simp only [hdecimal, hletter] at h
    unfold sign
    split at h
    · next hc =>
      cases h
      rw [if_pos (by omega), Nat.add_sub_cancel' hc.1, Char.ofNat_toNat]
      exact ⟨by omega, rfl⟩
    split at h
    · next hc =>
      cases h
      rw [if_neg (by omega), Nat.add_sub_cancel' (by omega), Char.ofNat_toNat]
      exact ⟨by omega, rfl⟩
    · cases h
  · intro ⟨hd, hc⟩
    rw [hc, hexDigit?_sign d hd]

section Signs

variable {b : Nat} {digit? : Char → Option Nat} (h : ∀ c d, digit? c = some d ↔ d < b ∧ c = sign d)
include h

theorem mapM_digit?_eq_some_iff {text : List Char} {ds : List Nat} :
    text.mapM digit? = some ds ↔ (∀ d ∈ ds, d < b) ∧ text = ds.map sign := by
  induction text generalizing ds with
  | nil =>
    rw [List.mapM_nil]
    refine ⟨?_, ?_⟩
    · intro h
      cases h
      exact ⟨nofun, rfl⟩
    · rintro ⟨-, h⟩
      rw [List.map_eq_nil_iff.1 h.symm]
      rfl
  | cons c rest ih =>
    rw [List.mapM_cons]
    simp only [Option.bind_eq_bind, Option.bind_eq_some_iff, h, ih]
    refine ⟨?_, ?_⟩
    · rintro ⟨d, ⟨hd, rfl⟩, ds', ⟨hds, rfl⟩, h⟩
      cases h
      exact ⟨List.forall_mem_cons.2 ⟨hd, hds⟩, rfl⟩
    · rintro ⟨hds, h⟩
      cases ds with
      | nil => cases h
      | cons d ds =>
        obtain ⟨rfl, rfl⟩ := List.cons.inj h
        obtain ⟨hd, hds⟩ := List.forall_mem_cons.1 hds
        exact ⟨d, ⟨hd, rfl⟩, ds, ⟨hds, rfl⟩, rfl⟩

/-- What is no digit does not stand among the signs of digits. -/
theorem not_mem_map_sign {c : Char} (hc : digit? c = none) {ds : List Nat} (hds : ∀ d ∈ ds, d < b) :
    c ∉ ds.map sign := by
  intro hmem
  obtain ⟨d, hd, rfl⟩ := List.mem_map.1 hmem
  rw [(h (sign d) d).2 ⟨hds d hd, rfl⟩] at hc
  cases hc

end Signs

theorem readDigits?_eq_some_iff {text : List Char} {n : Nat} :
    readDigits? text = some n ↔ Digits text n := by
  cases text with
  | nil =>
    refine ⟨nofun, ?_⟩
    rintro ⟨ds, hne, -, h, -⟩
    exact absurd (List.map_eq_nil_iff.1 h.symm) hne
  | cons c rest =>
    show ((c :: rest).mapM decimalDigit?).map (ofDigits 10) = some n ↔ _
    rw [Option.map_eq_some_iff]
    refine exists_congr fun ds => ?_
    rw [mapM_digit?_eq_some_iff decimalDigit?_eq_some_iff, ofDigits_eq]
    refine ⟨?_, ?_⟩
    · rintro ⟨⟨hds, h⟩, rfl⟩
      refine ⟨?_, hds, h, rfl⟩
      rintro rfl
      cases h
    · rintro ⟨-, hds, h, rfl⟩
      exact ⟨⟨hds, h⟩, rfl⟩

/-- No sign is a digit. -/
theorem Digits.head_ne {c : Char} {rest : List Char} {n : Nat} (h : Digits (c :: rest) n)
    (hc : decimalDigit? c = none) : False := by
  obtain ⟨ds, -, hds, htext, -⟩ := h
  apply not_mem_map_sign decimalDigit?_eq_some_iff hc hds
  rw [← htext]
  exact List.mem_cons_self

theorem readUnsigned?_eq_some_iff {max : Nat} {text : List Char} {n : Nat} :
    readUnsigned? max text = some n ↔ WritesUnsigned text n ∧ n ≤ max := by
  unfold readUnsigned?
  dsimp only
  rw [Option.filter_eq_some_iff, decide_eq_true_eq]
  refine and_congr_left fun _ => ?_
  unfold WritesUnsigned
  split
  · next digits =>
    rw [readDigits?_eq_some_iff]
    refine ⟨fun h => .inr ⟨digits, rfl, h⟩, ?_⟩
    rintro (h | ⟨_, h, hdigits⟩)
    · exact (h.head_ne rfl).elim
    · cases h
      exact hdigits
  · next hplus =>
    rw [readDigits?_eq_some_iff]
    refine ⟨.inl, ?_⟩
    rintro (h | ⟨digits, h, -⟩)
    · exact h
    · exact absurd h (hplus digits)

theorem readSigned?_eq_some_iff {min max : Int} {text : List Char} {i : Int} :
    readSigned? min max text = some i ↔ WritesSigned text i ∧ min ≤ i ∧ i ≤ max := by
  unfold readSigned?
  dsimp only
  rw [Option.filter_eq_some_iff, decide_eq_true_eq]
  refine and_congr_left fun _ => ?_
  unfold WritesSigned WritesUnsigned
  split
  · next digits =>
    simp only [Option.map_eq_some_iff, readDigits?_eq_some_iff]
    refine ⟨?_, ?_⟩
    · rintro ⟨n, hn, rfl⟩
      exact .inl ⟨n, .inr ⟨digits, rfl, hn⟩, rfl⟩
    · rintro (⟨n, h | ⟨_, h, hn⟩, rfl⟩ | ⟨_, n, h, -⟩)
      · exact (h.head_ne rfl).elim
      · cases h
        exact ⟨n, hn, rfl⟩
      · cases h
  · next digits =>
    simp only [Option.map_eq_some_iff, readDigits?_eq_some_iff]
    refine ⟨?_, ?_⟩
    · rintro ⟨n, hn, rfl⟩
      exact .inr ⟨digits, n, rfl, hn, rfl⟩
    · rintro (⟨n, h | ⟨_, h, -⟩, rfl⟩ | ⟨_, n, h, hn, rfl⟩)
      · exact (h.head_ne rfl).elim
      · cases h
      · cases h
        exact ⟨n, hn, rfl⟩
  · next hplus hminus =>
    simp only [Option.map_eq_some_iff, readDigits?_eq_some_iff]
    refine ⟨?_, ?_⟩
    · rintro ⟨n, hn, rfl⟩
      exact .inl ⟨n, .inl hn, rfl⟩
    · rintro (⟨n, h | ⟨digits, h, -⟩, rfl⟩ | ⟨digits, n, h, -⟩)
      · exact ⟨n, h, rfl⟩
      · exact absurd h (hplus digits)
      · exact absurd h (hminus digits)

theorem digitsOnto_eq {b : Nat} (hb : 1 < b) {fuel n : Nat} (h : n < fuel) (rest : List Nat) :
    digitsOnto b fuel n rest = (if n = 0 then [0] else (Nat.digits b n).reverse) ++ rest := by
  induction fuel generalizing n rest with
  | zero => omega
  | succ fuel ih =>
    rw [digitsOnto]
    split
    · next hn =>
      split
      · next h0 => rw [h0]; rfl
      · next h0 => rw [Nat.digits_of_lt b n h0 hn]; rfl
    · next hn =>
      have hpos : 0 < n := by omega
      have hdiv : n / b ≠ 0 := by
        rw [Nat.div_ne_zero_iff]
        omega
      have hlt : n / b < n := Nat.div_lt_self hpos hb
      rw [ih (by omega), if_neg hdiv, if_neg (by omega), Nat.digits_def' hb hpos, List.reverse_cons,
        List.append_assoc]
      rfl

section Digits

variable {b : Nat} (hb : 1 < b)
include hb

theorem digits_zero : digits b 0 = [0] := by
  rw [digits, digitsOnto_eq hb (by omega)]
  rfl

theorem digits_eq {n : Nat} (hn : n ≠ 0) : digits b n = (Nat.digits b n).reverse := by
  rw [digits, digitsOnto_eq hb (by omega), if_neg hn, List.append_nil]

theorem digits_ne_nil (n : Nat) : digits b n ≠ [] := by
  by_cases hn : n = 0
  · rw [hn, digits_zero hb]
    exact List.cons_ne_nil 0 []
  · rw [digits_eq hb hn, Ne, List.reverse_eq_nil_iff]
    exact Nat.digits_ne_nil_iff_ne_zero.2 hn

theorem digits_lt (n : Nat) : ∀ d ∈ digits b n, d < b := by
  intro d hd
  by_cases hn : n = 0
  · rw [hn, digits_zero hb, List.mem_singleton] at hd
    omega
  · rw [digits_eq hb hn, List.mem_reverse] at hd
    exact Nat.digits_lt_base hb hd

theorem ofDigits_digits (n : Nat) : ofDigits b (digits b n) = n := by
  by_cases hn : n = 0
  · rw [hn, digits_zero hb, ofDigits_eq]
    rfl
  · rw [ofDigits_eq, digits_eq hb hn, List.reverse_reverse, Nat.ofDigits_digits]

/-- Only zero has a zero in front. -/
theorem digits_of_head?_eq_zero {n : Nat} (h : (digits b n).head? = some 0) : digits b n = [0] := by
  by_cases hn : n = 0
  · rw [hn, digits_zero hb]
  · have hne : Nat.digits b n ≠ [] := Nat.digits_ne_nil_iff_ne_zero.2 hn
    rw [digits_eq hb hn, List.head?_reverse, List.getLast?_eq_some_getLast hne] at h
    exact absurd (Option.some.inj h) (Nat.getLast_digit_ne_zero b hn)

end Digits

section Decimal

theorem toList_decimal (n : Nat) : (decimal n).toList = (digits 10 n).map sign := String.toList_ofList

theorem digits_decimal (n : Nat) : Digits (decimal n).toList n := by
  refine ⟨digits 10 n, digits_ne_nil (by omega) n, digits_lt (by omega) n, toList_decimal n, ?_⟩
  rw [← ofDigits_eq, ofDigits_digits (by omega)]

theorem not_mem_decimal {c : Char} (hc : decimalDigit? c = none) (n : Nat) : c ∉ (decimal n).toList := by
  rw [toList_decimal]
  exact not_mem_map_sign decimalDigit?_eq_some_iff hc (digits_lt (by omega) n)

end Decimal

section Hexadecimal

def readHex? : List Char → Option Nat
  | [] => none
  | text => (text.mapM hexDigit?).map (ofDigits 16)

theorem toList_hex (n : Nat) : (hex n).toList = (digits 16 n).map sign := String.toList_ofList

theorem readHex?_hex (n : Nat) : readHex? (hex n).toList = some n := by
  have hdigits := digits_lt (b := 16) (by omega) n
  have hread : ((digits 16 n).map sign).mapM hexDigit? = some (digits 16 n) :=
    (mapM_digit?_eq_some_iff hexDigit?_eq_some_iff).2 ⟨hdigits, rfl⟩
  rw [toList_hex, readHex?, hread, Option.map_some, ofDigits_digits (by omega)]
  simp [digits_ne_nil]

/-- What is no digit stands in no number, so it may separate numbers. -/
theorem not_mem_hex {c : Char} (hc : hexDigit? c = none) (n : Nat) : c ∉ (hex n).toList := by
  rw [toList_hex]
  exact not_mem_map_sign hexDigit?_eq_some_iff hc (digits_lt (by omega) n)

end Hexadecimal

end EventSourcing.Numeral
