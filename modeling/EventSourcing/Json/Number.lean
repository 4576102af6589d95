import EventSourcing.Numeral

/-!
Numbers as they stand in a JSON text, and what they denote. A number without fraction and exponent
that fits 64 bits denotes a whole number; any other denotes a floating-point number, or nothing
when it is too large. Minus zero is a floating-point number.
-/

namespace EventSourcing.Json

structure Number where
  negative : Bool
  whole : Nat
  /-- The digits behind the point. -/
  fraction : Option (List Nat)
  exponent : Option Int
  deriving DecidableEq, Repr

def Number.ofInt : Int → Number
  | .ofNat n => ⟨false, n, none, none⟩
  | .negSucc n => ⟨true, n + 1, none, none⟩

inductive Quantity
  | integer (i : Int)
  | floating (x : Float)
  | tooLarge

def significandMax : Nat := UInt64.size - 1

/-- Drops trailing digits until the number fits 64 bits, and says how many. -/
def clip : Nat → Nat → Nat × Nat
  | 0, n => (n, 0)
  | fuel + 1, n =>
    if n ≤ significandMax then (n, 0)
    else
      let (m, k) := clip fuel (n / 10)
      (m, k + 1)

/-- Takes in digits behind the point for as long as the significand fits 64 bits, and lowers the
exponent by one for each. -/
def absorbFraction (significand : Nat) (exponent : Int) : List Nat → Nat × Int
  | [] => (significand, exponent)
  | d :: ds =>
    if significand * 10 + d ≤ significandMax then
      absorbFraction (significand * 10 + d) (exponent - 1) ds
    else (significand, exponent)

def powerOfTen (n : Nat) : Float := Float.ofScientific 1 false n

/-- `x * 10 ^ exponent`, by one multiplication or by divisions with at most `10 ^ 308` each. -/
def scale : Nat → Float → Int → Option Float
  | 0, x, _ => some x
  | fuel + 1, x, exponent =>
    if exponent.natAbs ≤ 308 then
      if 0 ≤ exponent then
        let y := x * powerOfTen exponent.natAbs
        if y.isInf then none else some y
      else some (x / powerOfTen exponent.natAbs)
    else if x == 0 then some x
    else if 0 ≤ exponent then none
    else scale fuel (x / powerOfTen 308) (exponent + 308)

namespace Number

def floating (n : Number) : Quantity :=
  let (significand, dropped) := clip n.whole n.whole
  let (significand, exponent) := absorbFraction significand dropped (n.fraction.getD [])
  match scale 4 (UInt64.ofNat significand).toFloat (exponent + n.exponent.getD 0) with
  | some x => .floating (if n.negative then -x else x)
  | none => .tooLarge

def quantity (n : Number) : Quantity :=
  if n.fraction.isSome ∨ n.exponent.isSome then n.floating
  else if n.negative then
    if 0 < n.whole ∧ Int64.minValue.toInt ≤ -(n.whole : Int) then .integer (-(n.whole : Int)) else n.floating
  else if n.whole ≤ significandMax then .integer n.whole
  else n.floating

end Number
end EventSourcing.Json
