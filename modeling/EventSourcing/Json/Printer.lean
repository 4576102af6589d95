import EventSourcing.Json.Value

/-!
JSON texts of values: no blanks, entries in their order, and escapes only where a string needs
them.
-/

namespace EventSourcing.Json

def lowerHexDigit (n : Nat) : UInt8 := UInt8.ofNat (if n < 10 then 48 + n else 87 + n)

/-- The form of one byte inside a string. Bytes from 0x80 on belong to longer characters and stand
for themselves. -/
def escapeByte (b : UInt8) : Bytes :=
  if b = byte '"' ∨ b = byte '\\' then [byte '\\', b]
  else if b = 8 then [byte '\\', byte 'b']
  else if b = 9 then [byte '\\', byte 't']
  else if b = 10 then [byte '\\', byte 'n']
  else if b = 12 then [byte '\\', byte 'f']
  else if b = 13 then [byte '\\', byte 'r']
  else if b < 0x20 then
    [byte '\\', byte 'u', byte '0', byte '0',
      lowerHexDigit (b.toNat / 16), lowerHexDigit (b.toNat % 16)]
  else [b]

def renderText (s : String) : Bytes :=
  byte '"' :: (Bytes.ofText s).flatMap escapeByte ++ [byte '"']

def renderDigits (ds : List Nat) : Bytes := ds.map fun d => UInt8.ofNat (48 + d)

def renderInt : Int → Bytes
  | .ofNat n => renderDigits (Numeral.digits 10 n)
  | .negSucc n => byte '-' :: renderDigits (Numeral.digits 10 (n + 1))

def renderNumber (n : Number) : Bytes :=
  let sign := if n.negative then [byte '-'] else []
  let fraction := match n.fraction with
    | some ds => byte '.' :: renderDigits ds
    | none => []
  let exponent := match n.exponent with
    | some e => byte 'e' :: renderInt e
    | none => []
  sign ++ renderDigits (Numeral.digits 10 n.whole) ++ fraction ++ exponent

mutual

def render : Value → Bytes
  | .null => Bytes.ofText "null"
  | .bool true => Bytes.ofText "true"
  | .bool false => Bytes.ofText "false"
  | .number n => renderNumber n
  | .text s => renderText (s.getD "")
  | .array items _ => byte '[' :: renderItems items ++ [byte ']']
  | .object entries _ => byte '\x7b' :: renderEntries entries ++ [byte '\x7d']
  | .broken => []

def renderItems : List Value → Bytes
  | [] => []
  | [v] => render v
  | v :: vs => render v ++ byte ',' :: renderItems vs

def renderEntries : List (Option String × Value) → Bytes
  | [] => []
  | [(k, v)] => renderText (k.getD "") ++ byte ':' :: render v
  | (k, v) :: es => renderText (k.getD "") ++ byte ':' :: render v ++ byte ',' :: renderEntries es

end

end EventSourcing.Json
