import EventSourcing.Json.Printer
import EventSourcing.Proofs.Message.TypeId
import EventSourcing.Proofs.Numeral

/-! The tokens of a written text. A token is read off the front of a text and leaves an end of it, so
the tokens of a text are those of its front followed by those of the rest, unless the rest runs into
the front. Only numbers can run on, and no number is continued by what stands behind a value. -/

namespace EventSourcing.Json

section Suffix

variable {b rest : Bytes}

theorem lexText_suffix {us : List TextUnit} (h : lexText b = some (us, rest)) : rest <:+ b := by
  fun_induction lexText b generalizing us rest with
  | case1 => cases h
  | case2 rest' =>
    cases h
    exact List.suffix_cons _ rest'
  | case3 => cases h
  | case4 h1 h2 h3 h4 rest' _ ih =>
    simp only [Option.bind_eq_bind, Option.bind_eq_some_iff] at h
    obtain ⟨u, -, ⟨us', rest''⟩, hrest, h⟩ := h
    cases h
    exact (ih hrest).trans (List.suffix_append [_, _, h1, h2, h3, h4] rest')
  | case5 => cases h
  | case6 e rest' _ _ ih =>
    simp only [Option.bind_eq_bind, Option.bind_eq_some_iff] at h
    obtain ⟨x, -, ⟨us', rest''⟩, hrest, h⟩ := h
    cases h
    exact (ih hrest).trans (List.suffix_append [_, e] rest')
  | case7 => cases h
  | case8 b rest' _ _ _ ih =>
    simp only [Option.bind_eq_bind, Option.bind_eq_some_iff] at h
    obtain ⟨⟨us', rest''⟩, hrest, h⟩ := h
    cases h
    exact (ih hrest).trans (List.suffix_cons b rest')

theorem lexDigits_suffix (b : Bytes) : (lexDigits b).2 <:+ b := List.dropWhile_suffix isDigit

/-- What is behind a digit is behind the first byte. -/
theorem lexDigits_suffix_tail (h : (lexDigits b).1 ≠ []) : (lexDigits b).2 <:+ b.tail := by
  cases b with
  | nil => exact List.suffix_rfl
  | cons x tail =>
    by_cases hx : isDigit x = true
    · simp only [lexDigits, List.dropWhile_cons, hx, if_true]
      exact lexDigits_suffix tail
    · simp [lexDigits, hx] at h

theorem lexFraction_suffix {fraction : Option (List Nat)}
    (h : lexFraction b = some (fraction, rest)) :
    rest <:+ b := by
  revert h
  fun_cases lexFraction b with
  | case1 =>
    intro h
    cases h
    exact List.suffix_rfl
  | case2 =>
    intro h
    cases h
  | case3 tail ds rest' _ hdigits =>
    intro h
    cases h
    have hsuffix := lexDigits_suffix tail
    rw [hdigits] at hsuffix
    exact hsuffix.trans (List.suffix_cons _ tail)
  | case4 =>
    intro h
    cases h
    exact List.suffix_rfl

theorem lexExponentDigits_suffix {negative : Bool} {exponent : Option Int}
    (h : lexExponentDigits negative b = some (exponent, rest)) : rest <:+ b := by
  revert h
  fun_cases lexExponentDigits negative b with
  | case1 =>
    intro h
    cases h
  | case2 ds rest' _ hdigits =>
    intro h
    cases h
    have hsuffix := lexDigits_suffix b
    rwa [hdigits] at hsuffix

theorem lexExponent_suffix {exponent : Option Int} (h : lexExponent b = some (exponent, rest)) :
    rest <:+ b := by
  revert h
  fun_cases lexExponent b with
  | case1 =>
    intro h
    cases h
    exact List.suffix_rfl
  | case2 =>
    intro h
    cases h
  | case3 x _ tail =>
    intro h
    exact (lexExponentDigits_suffix h).trans (List.suffix_append [x, _] tail)
  | case4 x _ tail =>
    intro h
    exact (lexExponentDigits_suffix h).trans (List.suffix_append [x, _] tail)
  | case5 x _ s tail =>
    intro h
    exact (lexExponentDigits_suffix h).trans (List.suffix_cons x (s :: tail))
  | case6 =>
    intro h
    cases h
    exact List.suffix_rfl

theorem lexUnsigned_suffix {negative : Bool} {n : Number}
    (h : lexUnsigned negative b = some (n, rest)) :
    rest <:+ b.tail := by
  unfold lexUnsigned at h
  dsimp only at h
  split at h
  · cases h
  · next hdigits =>
    simp only [Option.bind_eq_bind, Option.bind_eq_some_iff] at h
    obtain ⟨⟨fraction, rest'⟩, hfraction, ⟨exponent, rest''⟩, hexponent, h⟩ := h
    cases h
    have hne : (lexDigits b).1 ≠ [] := fun hnil => hdigits (.inl hnil)
    exact (lexExponent_suffix hexponent).trans
      ((lexFraction_suffix hfraction).trans (lexDigits_suffix_tail hne))

theorem afterWord?_suffix {word : String} (h : afterWord? word b = some rest) : rest <:+ b := by
  unfold afterWord? at h
  dsimp only at h
  split at h
  · cases h
    exact List.drop_suffix _ b
  · cases h

theorem lexToken_suffix {x : UInt8} {t : Token} (h : lexToken x b = some (t, rest)) :
    rest <:+ b := by
  have hword : ∀ word token, (afterWord? word b).map (token, ·) = some (t, rest) → rest <:+ b := by
    intro word token h
    obtain ⟨rest', hrest, h⟩ := Option.map_eq_some_iff.1 h
    cases h
    exact afterWord?_suffix hrest
  revert h
  fun_cases lexToken x b with
  | case1 | case2 | case3 | case4 | case5 | case6 =>
    intro h
    cases h
    exact List.suffix_rfl
  | case7 | case8 | case9 =>
    intro h
    exact hword _ _ h
  | case10 =>
    intro h
    obtain ⟨⟨us, rest'⟩, hrest, h⟩ := Option.map_eq_some_iff.1 h
    cases h
    exact lexText_suffix hrest
  | case11 =>
    intro h
    obtain ⟨⟨n, rest'⟩, hrest, h⟩ := Option.map_eq_some_iff.1 h
    cases h
    exact (lexUnsigned_suffix hrest).trans (List.tail_suffix b)
  | case12 =>
    intro h
    obtain ⟨⟨n, rest'⟩, hrest, h⟩ := Option.map_eq_some_iff.1 h
    cases h
    exact lexUnsigned_suffix hrest

end Suffix

/-- Beyond the length of the text, more steps find no more tokens. -/
theorem tokensWithin_eq {fuel : Nat} {b : Bytes} (h : b.length ≤ fuel) :
    tokensWithin fuel b = tokens b := by
  suffices hfuel : ∀ fuel' ≥ b.length, tokensWithin fuel b = tokensWithin fuel' b from
    hfuel b.length (Nat.le_refl _)
  induction fuel generalizing b with
  | zero =>
    intro fuel' _
    rw [List.eq_nil_of_length_eq_zero (Nat.le_zero.1 h)]
    cases fuel' <;> rfl
  | succ fuel ih =>
    intro fuel' h'
    cases b with
    | nil => cases fuel' <;> rfl
    | cons x rest =>
      cases fuel' with
      | zero => cases h'
      | succ fuel' =>
        have h : rest.length ≤ fuel := Nat.le_of_succ_le_succ h
        have h' : rest.length ≤ fuel' := Nat.le_of_succ_le_succ h'
        rw [tokensWithin, tokensWithin]
        split
        · exact ih h fuel' h'
        · split
          · next t rest' ht =>
            have hrest := (lexToken_suffix ht).length_le
            rw [ih (by omega) fuel' (by omega)]
          · rfl

@[simp] theorem tokens_nil : tokens [] = [] := rfl

theorem tokens_cons {x : UInt8} {b rest : Bytes} {t : Token} (hblank : isBlank x = false)
    (h : lexToken x b = some (t, rest)) : tokens (x :: b) = t :: tokens rest := by
  have hrest := (lexToken_suffix h).length_le
  rw [tokens, List.length_cons, tokensWithin, hblank]
  simp only [Bool.false_eq_true, if_false, h]
  rw [tokensWithin_eq hrest]

section Text

/-- The units of a text up to its closing quote, and what follows. -/
inductive Quoted : Bytes → List TextUnit → Bytes → Prop
  | quote (rest : Bytes) : Quoted (byte '"' :: rest) [] rest
  | raw {b : UInt8} {rest tail : Bytes} {us : List TextUnit} (hquote : b ≠ byte '"')
      (hslash : b ≠ byte '\\') (hcontrol : ¬ b < 0x20) (h : Quoted rest us tail) :
    Quoted (b :: rest) (.raw b :: us) tail
  | short {e b : UInt8} {rest tail : Bytes} {us : List TextUnit} (hu : e ≠ byte 'u')
      (he : shortEscape? e = some b) (h : Quoted rest us tail) :
    Quoted (byte '\\' :: e :: rest) (.raw b :: us) tail
  | code {h1 h2 h3 h4 : UInt8} {u : Nat} {rest tail : Bytes} {us : List TextUnit}
      (hu : hex4? h1 h2 h3 h4 = some u) (h : Quoted rest us tail) :
    Quoted (byte '\\' :: byte 'u' :: h1 :: h2 :: h3 :: h4 :: rest) (.code u :: us) tail

theorem Quoted.lexText_eq {b tail : Bytes} {us : List TextUnit} (h : Quoted b us tail) :
    lexText b = some (us, tail) := by
  have hslash : byte '\\' ≠ byte '"' := by decide
  induction h with
  | quote rest =>
    rw [lexText.eq_def]
    exact if_pos rfl
  | raw hquote hslash hcontrol _ ih =>
    rw [lexText.eq_def]
    simp only [hquote, hslash, hcontrol, ih, if_false]
    rfl
  | short hu he _ ih =>
    rw [lexText.eq_def]
    simp only [hslash, hu, he, ih, if_false, if_true]
    rfl
  | code hu _ ih =>
    rw [lexText.eq_def]
    simp only [hslash, hu, ih, if_false, if_true]
    rfl

/-- An escaped control character is one unit, which is no surrogate. -/
theorem hex4?_control (b : UInt8) : b < 0x20 →
    hex4? (byte '0') (byte '0') (lowerHexDigit (b.toNat / 16)) (lowerHexDigit (b.toNat % 16)) =
        some b.toNat ∧
      isLowSurrogate b.toNat = false ∧ isHighSurrogate b.toNat = false ∧ codePoint b.toNat = [b] :=
  TypeId.forall_byte (P := fun b => b < 0x20 → hex4? (byte '0') (byte '0')
      (lowerHexDigit (b.toNat / 16)) (lowerHexDigit (b.toNat % 16)) = some b.toNat ∧
    isLowSurrogate b.toNat = false ∧ isHighSurrogate b.toNat = false ∧ codePoint b.toNat = [b])
    (by decide +kernel) b

theorem joinUnits_control {b : UInt8} (h : b < 0x20) (us : List TextUnit) :
    joinUnits (.code b.toNat :: us) = (joinUnits us).map (b :: ·) := by
  obtain ⟨-, hlow, hhigh, hpoint⟩ := hex4?_control b h
  rw [joinUnits.eq_def]
  simp only [hlow, hhigh, hpoint, Bool.false_eq_true, if_false]
  rfl

/-- One unit is read off the form of one byte, and joins to the byte. -/
theorem exists_unit_of_escapeByte (b : UInt8) : ∃ unit : TextUnit,
    (∀ rest us tail, Quoted rest us tail → Quoted (escapeByte b ++ rest) (unit :: us) tail) ∧
      ∀ us, joinUnits (unit :: us) = (joinUnits us).map (b :: ·) := by
  fun_cases escapeByte b with
  | case1 h =>
    rcases h with rfl | rfl
    · exact ⟨.raw _, fun _ _ _ => .short (by decide) rfl, fun _ => rfl⟩
    · exact ⟨.raw _, fun _ _ _ => .short (by decide) rfl, fun _ => rfl⟩
  | case2 | case3 | case4 | case5 | case6 =>
    subst b
    exact ⟨.raw _, fun _ _ _ => .short (by decide) rfl, fun _ => rfl⟩
  | case7 _ _ _ _ _ _ hcontrol =>
    exact ⟨.code b.toNat, fun _ _ _ => .code (hex4?_control b hcontrol).1,
      joinUnits_control hcontrol⟩
  | case8 hspecial _ _ _ _ _ hcontrol =>
    refine ⟨.raw b, fun _ _ _ => .raw ?_ ?_ hcontrol, fun _ => rfl⟩
    · exact fun h => hspecial (.inl h)
    · exact fun h => hspecial (.inr h)

theorem exists_quoted (text rest : Bytes) : ∃ us,
    Quoted (text.flatMap escapeByte ++ byte '"' :: rest) us rest ∧ joinUnits us = some text := by
  induction text with
  | nil => exact ⟨[], .quote rest, rfl⟩
  | cons b text ih =>
    obtain ⟨us, hquoted, hjoin⟩ := ih
    obtain ⟨unit, hunit, hbyte⟩ := exists_unit_of_escapeByte b
    refine ⟨unit :: us, ?_, ?_⟩
    · rw [List.flatMap_cons, List.append_assoc]
      exact hunit _ us rest hquoted
    · rw [hbyte, hjoin]
      rfl

theorem text?_ofText (s : String) : Bytes.text? (Bytes.ofText s) = some s := by
  unfold Bytes.text? String.fromUTF8?
  exact dif_pos s.isValidUTF8

theorem tokens_renderText (s : String) (rest : Bytes) :
    tokens (renderText s ++ rest) = .text (some s) :: tokens rest := by
  obtain ⟨us, hquoted, hjoin⟩ := exists_quoted (Bytes.ofText s) rest
  have htext : unitsText? us = some s := by
    rw [unitsText?, hjoin]
    exact text?_ofText s
  have htoken : lexToken (byte '"') ((Bytes.ofText s).flatMap escapeByte ++ byte '"' :: rest) =
      some (.text (some s), rest) := by
    rw [← htext]
    exact congrArg (Option.map _) hquoted.lexText_eq
  have hrender : renderText s ++ rest =
      byte '"' :: ((Bytes.ofText s).flatMap escapeByte ++ byte '"' :: rest) := by
    simp [renderText]
  rw [hrender]
  exact tokens_cons (by decide) htoken

end Text

theorem afterWord?_ofText (word : String) (rest : Bytes) :
    afterWord? word (Bytes.ofText word ++ rest) = some rest := by
  simp [afterWord?]

theorem tokens_null (rest : Bytes) : tokens (Bytes.ofText "null" ++ rest) = .null :: tokens rest :=
  tokens_cons (by decide) (congrArg (Option.map _) (afterWord?_ofText "ull" rest))

theorem tokens_true (rest : Bytes) :
    tokens (Bytes.ofText "true" ++ rest) = .bool true :: tokens rest :=
  tokens_cons (by decide) (congrArg (Option.map _) (afterWord?_ofText "rue" rest))

theorem tokens_false (rest : Bytes) :
    tokens (Bytes.ofText "false" ++ rest) = .bool false :: tokens rest :=
  tokens_cons (by decide) (congrArg (Option.map _) (afterWord?_ofText "alse" rest))

/-- Nothing follows, or what ends a value or separates it from the next. -/
def Delimited : Bytes → Prop
  | [] => True
  | b :: _ => b = byte ',' ∨ b = byte ']' ∨ b = byte '\x7d'

section Number

variable {rest : Bytes}

theorem renderDigit : ∀ d < 10, isDigit (UInt8.ofNat (48 + d)) = true ∧
    (UInt8.ofNat (48 + d)).toNat - 48 = d := by decide

theorem lexDigits_renderDigits {ds : List Nat} (hds : ∀ d ∈ ds, d < 10) (h : Delimited rest) :
    lexDigits (renderDigits ds ++ rest) = (ds, rest) := by
  induction ds with
  | nil =>
    cases rest with
    | nil => rfl
    | cons b rest =>
      have hb : isDigit b = false := by
        rcases h with rfl | rfl | rfl <;> decide
      simp [lexDigits, renderDigits, hb]
  | cons d ds ih =>
    obtain ⟨hd, hds⟩ := List.forall_mem_cons.1 hds
    obtain ⟨hdigit, hvalue⟩ := renderDigit d hd
    have hrest := Prod.mk.inj (ih hds)
    show lexDigits (UInt8.ofNat (48 + d) :: (renderDigits ds ++ rest)) = _
    unfold lexDigits
    rw [List.takeWhile_cons_of_pos hdigit, List.dropWhile_cons_of_pos hdigit, List.map_cons, hvalue,
      hrest.1, hrest.2]

theorem lexFraction_of_delimited (h : Delimited rest) : lexFraction rest = some (none, rest) := by
  cases rest with
  | nil => rfl
  | cons b rest => rcases h with rfl | rfl | rfl <;> rfl

theorem lexExponent_of_delimited (h : Delimited rest) : lexExponent rest = some (none, rest) := by
  cases rest with
  | nil => rfl
  | cons b rest => rcases h with rfl | rfl | rfl <;> rfl

theorem lexUnsigned_renderDigits (negative : Bool) (n : Nat) (h : Delimited rest) :
    lexUnsigned negative (renderDigits (Numeral.digits 10 n) ++ rest) =
      some (⟨negative, n, none, none⟩, rest) := by
  have hbase : 1 < 10 := by decide
  have hstart : ¬ (Numeral.digits 10 n = [] ∨
      (1 < (Numeral.digits 10 n).length ∧ (Numeral.digits 10 n).head? = some 0)) := by
    rintro (hnil | ⟨hlength, hzero⟩)
    · exact Numeral.digits_ne_nil hbase n hnil
    · rw [Numeral.digits_of_head?_eq_zero hbase hzero] at hlength
      exact absurd hlength (by decide)
  unfold lexUnsigned
  rw [lexDigits_renderDigits (Numeral.digits_lt hbase n) h]
  dsimp only
  rw [if_neg hstart, lexFraction_of_delimited h, Numeral.ofDigits_digits hbase]
  simp only [Option.bind_eq_bind, Option.bind_some, lexExponent_of_delimited h]
  rfl

theorem lexToken_digit {d : Nat} (hd : d < 10) (b : Bytes) :
    lexToken (UInt8.ofNat (48 + d)) b =
      (lexUnsigned false (UInt8.ofNat (48 + d) :: b)).map fun (n, rest) => (.number n, rest) := by
  have hne : ∀ d < 10, UInt8.ofNat (48 + d) ∉
      ['[', ']', '\x7b', '\x7d', ',', ':', 'n', 't', 'f', '"', '-'].map byte := by decide
  have hx := hne d hd
  generalize UInt8.ofNat (48 + d) = x at hx ⊢
  simp only [List.map_cons, List.mem_cons, not_or] at hx
  simp only [lexToken, hx, if_false]

/-- A whole number is one token, whatever its size. -/
theorem tokens_renderNumber (negative : Bool) (n : Nat) (h : Delimited rest) :
    tokens (renderNumber ⟨negative, n, none, none⟩ ++ rest) =
      .number ⟨negative, n, none, none⟩ :: tokens rest := by
  have hlex := lexUnsigned_renderDigits negative n h
  cases negative with
  | true =>
    have hrender : renderNumber ⟨true, n, none, none⟩ ++ rest =
        byte '-' :: (renderDigits (Numeral.digits 10 n) ++ rest) := by
      simp [renderNumber]
    rw [hrender]
    exact tokens_cons (by decide) (congrArg (Option.map _) hlex)
  | false =>
    have hrender : renderNumber ⟨false, n, none, none⟩ ++ rest =
        renderDigits (Numeral.digits 10 n) ++ rest := by
      simp [renderNumber]
    rw [hrender]
    have hdigits := Numeral.digits_lt (by decide : 1 < 10) n
    cases hds : Numeral.digits 10 n with
    | nil => exact absurd hds (Numeral.digits_ne_nil (by decide) n)
    | cons d ds =>
      rw [hds] at hlex hdigits
      have hd := hdigits d List.mem_cons_self
      have hblank : ∀ d < 10, isBlank (UInt8.ofNat (48 + d)) = false := by decide
      refine tokens_cons (hblank d hd) ?_
      rw [lexToken_digit hd]
      exact congrArg (Option.map _) hlex

end Number

end EventSourcing.Json
