import EventSourcing.Bytes
import EventSourcing.Json.Number

/-!
The tokens of a JSON text. A text that stops being JSON somewhere has the tokens up to there and
then a malformed one. A string token holds its text, or nothing if its bytes or escapes are not a
text: such a string does no harm where it is skipped.
-/

namespace EventSourcing.Json

inductive Token
  | openArray
  | closeArray
  | openObject
  | closeObject
  | comma
  | colon
  | null
  | bool (b : Bool)
  | number (n : Number)
  | text (s : Option String)
  | malformed
  deriving DecidableEq, Repr

def byte (c : Char) : UInt8 := UInt8.ofNat c.toNat

/-- What a string is made of: bytes that stand for themselves and escaped 16-bit units. -/
inductive TextUnit
  | raw (b : UInt8)
  | code (u : Nat)
  deriving DecidableEq, Repr

/-- The byte that a one-letter escape stands for. -/
def shortEscape? (b : UInt8) : Option UInt8 :=
  if b = byte '"' ∨ b = byte '\\' ∨ b = byte '/' then some b
  else if b = byte 'b' then some 8
  else if b = byte 'f' then some 12
  else if b = byte 'n' then some 10
  else if b = byte 'r' then some 13
  else if b = byte 't' then some 9
  else none

def hexValue? (b : UInt8) : Option Nat :=
  if byte '0' ≤ b ∧ b ≤ byte '9' then some (b.toNat - 48)
  else if byte 'a' ≤ b ∧ b ≤ byte 'f' then some (b.toNat - 87)
  else if byte 'A' ≤ b ∧ b ≤ byte 'F' then some (b.toNat - 55)
  else none

def hex4? (a b c d : UInt8) : Option Nat := do
  let a ← hexValue? a
  let b ← hexValue? b
  let c ← hexValue? c
  let d ← hexValue? d
  pure (((a * 16 + b) * 16 + c) * 16 + d)

/-- The units of a string up to its closing quote, and what follows. Control characters must be
escaped. -/
def lexText : Bytes → Option (List TextUnit × Bytes)
  | [] => none
  | b :: rest =>
    if b = byte '"' then some ([], rest)
    else if b = byte '\\' then
      match rest with
      | [] => none
      | e :: rest =>
        if e = byte 'u' then
          match rest with
          | h1 :: h2 :: h3 :: h4 :: rest => do
            let u ← hex4? h1 h2 h3 h4
            let (us, rest) ← lexText rest
            pure (.code u :: us, rest)
          | _ => none
        else do
          let x ← shortEscape? e
          let (us, rest) ← lexText rest
          pure (.raw x :: us, rest)
    else if b < 0x20 then none
    else do
      let (us, rest) ← lexText rest
      pure (.raw b :: us, rest)

def isHighSurrogate (u : Nat) : Bool := 0xd800 ≤ u && u < 0xdc00

def isLowSurrogate (u : Nat) : Bool := 0xdc00 ≤ u && u < 0xe000

def codePoint (n : Nat) : Bytes := Bytes.ofText (String.singleton (Char.ofNat n))

def joinUnits : List TextUnit → Option Bytes
  | [] => some []
  | .raw b :: rest => (joinUnits rest).map (b :: ·)
  | .code u :: rest =>
    if isLowSurrogate u then none
    else if isHighSurrogate u then
      match rest with
      | .code v :: rest =>
        if isLowSurrogate v then
          (joinUnits rest).map
            (codePoint (0x10000 + (u - 0xd800) * 0x400 + (v - 0xdc00)) ++ ·)
        else none
      | _ => none
    else (joinUnits rest).map (codePoint u ++ ·)

def unitsText? (us : List TextUnit) : Option String := (joinUnits us).bind Bytes.text?

def isDigit (b : UInt8) : Bool := byte '0' ≤ b && b ≤ byte '9'

def lexDigits (b : Bytes) : List Nat × Bytes :=
  ((b.takeWhile isDigit).map fun d => d.toNat - 48, b.dropWhile isDigit)

def lexFraction : Bytes → Option (Option (List Nat) × Bytes)
  | [] => some (none, [])
  | b :: rest =>
    if b = byte '.' then
      match lexDigits rest with
      | ([], _) => none
      | (ds, rest) => some (some ds, rest)
    else some (none, b :: rest)

def lexExponentDigits (negative : Bool) (b : Bytes) : Option (Option Int × Bytes) :=
  match lexDigits b with
  | ([], _) => none
  | (ds, rest) =>
    let n : Int := Numeral.ofDigits 10 ds
    some (some (if negative then -n else n), rest)

def lexExponent : Bytes → Option (Option Int × Bytes)
  | [] => some (none, [])
  | b :: rest =>
    if b = byte 'e' ∨ b = byte 'E' then
      match rest with
      | [] => none
      | s :: rest' =>
        if s = byte '+' then lexExponentDigits false rest'
        else if s = byte '-' then lexExponentDigits true rest'
        else lexExponentDigits false rest
    else some (none, b :: rest)

/-- A number without its sign; the whole part has no leading zero. -/
def lexUnsigned (negative : Bool) (b : Bytes) : Option (Number × Bytes) := do
  let (ds, rest) := lexDigits b
  if ds = [] ∨ (1 < ds.length ∧ ds.head? = some 0) then none
  else
    let (fraction, rest) ← lexFraction rest
    let (exponent, rest) ← lexExponent rest
    pure (⟨negative, Numeral.ofDigits 10 ds, fraction, exponent⟩, rest)

/-- What follows `word`, if `b` starts with it. -/
def afterWord? (word : String) (b : Bytes) : Option Bytes :=
  let w := Bytes.ofText word
  if b.take w.length = w then some (b.drop w.length) else none

def lexToken (b : UInt8) (rest : Bytes) : Option (Token × Bytes) :=
  if b = byte '[' then some (.openArray, rest)
  else if b = byte ']' then some (.closeArray, rest)
  else if b = byte '\x7b' then some (.openObject, rest)
  else if b = byte '\x7d' then some (.closeObject, rest)
  else if b = byte ',' then some (.comma, rest)
  else if b = byte ':' then some (.colon, rest)
  else if b = byte 'n' then (afterWord? "ull" rest).map (.null, ·)
  else if b = byte 't' then (afterWord? "rue" rest).map (.bool true, ·)
  else if b = byte 'f' then (afterWord? "alse" rest).map (.bool false, ·)
  else if b = byte '"' then (lexText rest).map fun (us, rest) => (.text (unitsText? us), rest)
  else if b = byte '-' then (lexUnsigned true rest).map fun (n, rest) => (.number n, rest)
  else (lexUnsigned false (b :: rest)).map fun (n, rest) => (.number n, rest)

def isBlank (b : UInt8) : Bool := b = byte ' ' || b = byte '\t' || b = byte '\r' || b = byte '\n'

/-- The tokens of `source`; `fuel` bounds the number of steps. -/
def tokensWithin : Nat → Bytes → List Token
  | 0, _ => []
  | _ + 1, [] => []
  | fuel + 1, b :: rest =>
    if isBlank b then tokensWithin fuel rest
    else match lexToken b rest with
      | some (t, rest) => t :: tokensWithin fuel rest
      | none => [.malformed]

def tokens (source : Bytes) : List Token := tokensWithin source.length source

end EventSourcing.Json
