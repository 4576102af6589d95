import EventSourcing.Numeral

/-!
The text of a finite binary floating-point number: the fewest significant digits that read back as
the same number, nearest to it. Numbers of a moderate size are written positionally, with at least
one digit behind the point, and all others with an exponent.
-/

namespace EventSourcing.Text

/-- A positive number `mantissa * 2 ^ exponent`, with the gap below it half as wide as the gap
above when `narrow` holds. -/
structure Binary where
  mantissa : Nat
  exponent : Int
  narrow : Bool

def Binary.ofBits (bits : Nat) : Binary :=
  let field : Nat := bits / Nat.pow 2 52 % Nat.pow 2 11
  let fraction : Nat := bits % Nat.pow 2 52
  if field = 0 then ⟨fraction, -1074, false⟩
  else ⟨Nat.pow 2 52 + fraction, (field : Int) - 1075, fraction = 0 && field > 1⟩

/-- The number, both ends of the reals that round to it, and the common denominator of the three,
in quarters of the last binary place. -/
structure Interval where
  (value low high unit : Nat)
  closed : Bool

def Binary.interval (x : Binary) : Interval :=
  let up := Nat.pow 2 (x.exponent - 2).toNat
  let low := if x.narrow then 4 * x.mantissa - 1 else 4 * x.mantissa - 2
  ⟨4 * x.mantissa * up, low * up, (4 * x.mantissa + 2) * up, Nat.pow 2 (2 - x.exponent).toNat,
    x.mantissa % 2 = 0⟩

def Interval.holds (i : Interval) (num den : Nat) : Bool :=
  if i.closed then i.low * den ≤ num * i.unit && num * i.unit ≤ i.high * den
  else i.low * den < num * i.unit && num * i.unit < i.high * den

def Interval.leading (i : Interval) : Int :=
  if i.unit ≤ i.value then (Numeral.digits 10 (i.value / i.unit)).length - 1
  else
    let scale := (List.range 400).find? fun k => i.unit ≤ i.value * Nat.pow 10 (k + 1)
    Int.negSucc (scale.getD 0)

/-- The neighbour of the number on the grid of step `10 ^ place` that reads back as the number;
of two such the nearer, and the even one of two that are equally near. -/
def Interval.onGrid? (i : Interval) (place : Int) : Option Nat :=
  let up := Nat.pow 10 place.toNat
  let down := Nat.pow 10 (-place).toNat
  let below := i.value * down / (i.unit * up)
  let fits (n : Nat) := i.holds (n * up) down
  let overshoot := (below + 1) * i.unit * up - i.value * down
  let undershoot := i.value * down - below * i.unit * up
  let belowIsNearer := undershoot < overshoot || undershoot = overshoot && below % 2 = 0
  if fits below && (belowIsNearer || !fits (below + 1)) then some below
  else if fits (below + 1) then some (below + 1)
  else none

/-- The digits as a whole number and the place of the last one. The search starts one place above
the leading digit, where a number just below a power of ten has its one digit. -/
def Interval.shortest (i : Interval) : Nat × Int :=
  let places := (List.range 19).map fun (k : Nat) => i.leading + 1 - (k : Int)
  (places.findSome? fun place => (i.onGrid? place).map (·, place)).getD (0, 0)

def positional (digits : Nat) (place : Int) : String :=
  if 0 ≤ place then Numeral.decimal (digits * Nat.pow 10 place.toNat) ++ ".0"
  else
    let scale := (-place).toNat
    let ds := (Numeral.digits 10 digits).map Numeral.sign
    let ds := List.replicate (scale + 1 - ds.length) '0' ++ ds
    String.ofList (ds.take (ds.length - scale) ++ '.' :: ds.drop (ds.length - scale))

/-- The digits with a point behind the first one, unless it is the only one, and the signed exponent
of that first digit. -/
def scientific (digits : List Char) (exponent : Int) : String :=
  let point := if digits.length ≤ 1 then [] else ['.']
  let sign := if exponent < 0 then "e-" else "e+"
  String.ofList (digits.take 1 ++ point ++ digits.drop 1) ++ sign ++
    Numeral.decimal exponent.natAbs

/-- `digits * 10 ^ place`, positionally if its leading digit stands at the fifth place behind the
point or before it, and at the sixteenth place before the point or behind it. -/
def decimalText (digits : Nat) (place : Int) : String :=
  let signs := (Numeral.digits 10 digits).map Numeral.sign
  let exponent := place + signs.length - 1
  if -5 ≤ exponent ∧ exponent < 16 then positional digits place else scientific signs exponent

def floatText (x : Float) : String :=
  let bits := x.toBits.toNat
  let magnitude := bits % Nat.pow 2 63
  let unsigned :=
    if magnitude = 0 then "0.0"
    else
      let (digits, place) := (Binary.ofBits magnitude).interval.shortest
      decimalText digits place
  if bits < Nat.pow 2 63 then unsigned else "-" ++ unsigned

end EventSourcing.Text
