/-!
Positional numerals: the digits of a number in a base, most significant first, and the number
that a list of digits stands for. Decimal and upper-case hexadecimal texts are built from them.
-/

namespace EventSourcing.Numeral

/-- The digits of `n` in base `b`, in front of `rest`; `fuel` bounds their number. -/
def digitsOnto (b : Nat) : Nat → Nat → List Nat → List Nat
  | 0, _, rest => rest
  | fuel + 1, n, rest =>
    if n < b then n :: rest else digitsOnto b fuel (n / b) (n % b :: rest)

/-- The digits of `n` in base `b` without leading zeros; zero has the single digit 0. -/
def digits (b n : Nat) : List Nat := digitsOnto b (n + 1) n []

def ofDigits (b : Nat) (ds : List Nat) : Nat := ds.foldl (fun acc d => acc * b + d) 0

/-- The digit signs are `0`–`9` and `A`–`F`. -/
def sign (d : Nat) : Char := Char.ofNat (if d < 10 then 48 + d else 55 + d)

def decimalDigit? (c : Char) : Option Nat :=
  if '0' ≤ c ∧ c ≤ '9' then some (c.toNat - 48) else none

def hexDigit? (c : Char) : Option Nat :=
  if '0' ≤ c ∧ c ≤ '9' then some (c.toNat - 48)
  else if 'A' ≤ c ∧ c ≤ 'F' then some (c.toNat - 55)
  else none

def decimal (n : Nat) : String := String.ofList ((digits 10 n).map sign)

def signedDecimal : Int → String
  | .ofNat n => decimal n
  | .negSucc n => "-" ++ decimal (n + 1)

def hex (n : Nat) : String := String.ofList ((digits 16 n).map sign)

/-- Upper-case hexadecimal, filled up with zeros to `width` signs. -/
def paddedHex (width n : Nat) : String :=
  let ds := (digits 16 n).map sign
  String.ofList (List.replicate (width - ds.length) '0' ++ ds)

/-- A 64-bit number in hexadecimal, negative ones by their two's complement. -/
def hex64 (i : Int64) : String := hex i.toUInt64.toNat

/-- A 32-bit number in hexadecimal, negative ones by their two's complement. -/
def hex32 (i : Int32) : String := hex i.toUInt32.toNat

/-- The number that a non-empty list of decimal digit signs writes. -/
def readDigits? : List Char → Option Nat
  | [] => none
  | cs => (cs.mapM decimalDigit?).map (ofDigits 10)

/-- An unsigned number up to `max`; a plus sign and leading zeros are allowed. -/
def readUnsigned? (max : Nat) (cs : List Char) : Option Nat :=
  let n? := match cs with
    | '+' :: r => readDigits? r
    | r => readDigits? r
  n?.filter (· ≤ max)

/-- A signed number from `min` to `max`; a sign of either kind and leading zeros are allowed. -/
def readSigned? (min max : Int) (cs : List Char) : Option Int :=
  let i? : Option Int := match cs with
    | '+' :: r => (readDigits? r).map Int.ofNat
    | '-' :: r => (readDigits? r).map fun n => -Int.ofNat n
    | r => (readDigits? r).map Int.ofNat
  i?.filter fun i => min ≤ i ∧ i ≤ max

end EventSourcing.Numeral
