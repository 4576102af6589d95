import EventSourcing.Json.Value
import EventSourcing.Text.Quoted
import EventSourcing.Text.Shortest

/-!
Readers of typed data from JSON values. A reader walks a value in the order of the text and
reports the first fault it meets: a place where the text is not JSON, or data of the wrong form.
-/

namespace EventSourcing.Json

inductive Found
  | null
  | bool (b : Bool)
  | integer (i : Int)
  | floating (x : Float)
  | text (s : String)
  | array
  | object

def Found.describe : Found → String
  | .null => "null"
  | .bool true => "boolean `true`"
  | .bool false => "boolean `false`"
  | .integer i => s!"integer `{Numeral.signedDecimal i}`"
  | .floating x => s!"floating point `{Text.floatText x}`"
  | .text s => s!"string {Text.quoted s}"
  | .array => "sequence"
  | .object => "map"

inductive ReadError
  | malformed
  | invalidType (found : Found) (expected : String)
  | invalidValue (found : Int) (expected : String)
  | invalidLength (length : Nat) (expected : String)
  | missingField (name : String)
  | duplicateField (name : String)
  | refused (reason : String)

def ReadError.message : ReadError → String
  | .malformed => "bad JSON"
  | .invalidType found expected => s!"invalid type: {found.describe}, expected {expected}"
  | .invalidValue found expected =>
    s!"invalid value: {(Found.integer found).describe}, expected {expected}"
  | .invalidLength n expected => s!"invalid length {Numeral.decimal n}, expected {expected}"
  | .missingField name => s!"missing field `{name}`"
  | .duplicateField name => s!"duplicate field `{name}`"
  | .refused reason => reason

abbrev Reader (α : Type) := Value → Except ReadError α

def mismatch (expected : String) : Value → ReadError
  | .null => .invalidType .null expected
  | .bool b => .invalidType (.bool b) expected
  | .number n =>
    match n.quantity with
    | .integer i => .invalidType (.integer i) expected
    | .floating x => .invalidType (.floating x) expected
    | .tooLarge => .malformed
  | .text (some s) => .invalidType (.text s) expected
  | .text none => .malformed
  | .array _ _ => .invalidType .array expected
  | .object _ _ => .invalidType .object expected
  | .broken => .malformed

def readText : Reader String
  | .text (some s) => .ok s
  | v => .error (mismatch "a string" v)

/-- A whole number from `min` to `max`, of a type called `expected`. -/
def readInt (min max : Int) (expected : String) (v : Value) : Except ReadError Int :=
  match v with
  | .number n =>
    match n.quantity with
    | .integer i =>
      if min ≤ i ∧ i ≤ max then .ok i else .error (.invalidValue i expected)
    | _ => .error (mismatch expected v)
  | _ => .error (mismatch expected v)

def readInt64 : Reader Int64 := fun v =>
  (readInt Int64.minValue.toInt Int64.maxValue.toInt "i64" v).map Int64.ofInt

def readInt32 : Reader Int32 := fun v =>
  (readInt Int32.minValue.toInt Int32.maxValue.toInt "i32" v).map Int32.ofInt

def readUInt64 : Reader UInt64 := fun v =>
  (readInt 0 (UInt64.size - 1) "u64" v).map fun i => UInt64.ofNat i.toNat

def readByte : Reader UInt8 := fun v =>
  (readInt 0 255 "u8" v).map fun i => UInt8.ofNat i.toNat

def readOption {α : Type} (read : Reader α) : Reader (Option α)
  | .null => .ok none
  | v => (read v).map some

def readItems {α : Type} (read : Reader α) (closed : Bool) : List Value → Except ReadError (List α)
  | [] => if closed then .ok [] else .error .malformed
  | v :: vs => do
    let x ← read v
    let xs ← readItems read closed vs
    pure (x :: xs)

def readList {α : Type} (read : Reader α) : Reader (List α)
  | .array items closed => readItems read closed items
  | v => .error (mismatch "a sequence" v)

/-- A field of a record. `absent` stands in for a field that an object leaves out, and `cut` for
one that an array is too short for. -/
structure Field where
  name : String
  check : Value → Except ReadError Unit
  absent : Option Value := none
  cut : Option Value := none

namespace Field

def of {α : Type} (name : String) (read : Reader α) : Field :=
  { name, check := fun v => (read v).map fun _ => () }

/-- A field that may be left out of an object, and then is null. -/
def optional {α : Type} (name : String) (read : Reader α) : Field :=
  { name, check := fun v => (readOption read v).map fun _ => (), absent := some .null }

/-- A field that may be left out of an object or cut off an array, and then is an empty list. -/
def listOrEmpty {α : Type} (name : String) (read : Reader α) : Field :=
  { name, check := fun v => (readList read v).map fun _ => (), absent := some (.list []),
    cut := some (.list []) }

end Field

/-- Passes over the entries of an object and collects the values of known fields by name. -/
def collect (fields : List Field) (closed : Bool) :
    List (Option String × Value) → List (String × Value) →
      Except ReadError (List (String × Value))
  | [], seen => if closed then .ok seen else .error .malformed
  | (none, _) :: _, _ => .error .malformed
  | (some k, v) :: rest, seen =>
    match fields.find? (·.name = k) with
    | some f => do
      if (seen.lookup k).isSome then throw (.duplicateField k)
      f.check v
      collect fields closed rest ((k, v) :: seen)
    | none => if v.complete then collect fields closed rest seen else .error .malformed

/-- The values of the fields in declared order, for the fields that were not met as well. -/
def settle (seen : List (String × Value)) : List Field → Except ReadError (List Value)
  | [] => .ok []
  | f :: fs =>
    match (seen.lookup f.name).or f.absent with
    | some v => (settle seen fs).map (v :: ·)
    | none => .error (.missingField f.name)

def plural (n : Nat) : String := if n = 1 then "1 element" else s!"{Numeral.decimal n} elements"

/-- The values of the fields from the items of an array, `met` of which are already taken. -/
def takeFields (name : String) (all : Nat) (closed : Bool) :
    Nat → List Field → List Value → Except ReadError (List Value)
  | _, [], [] => if closed then .ok [] else .error .malformed
  | _, [], _ :: _ => .error .malformed
  | met, f :: fs, v :: vs => do
    f.check v
    let rest ← takeFields name all closed (met + 1) fs vs
    pure (v :: rest)
  | met, f :: fs, [] =>
    if !closed then .error .malformed
    else match f.cut with
      | some v => (takeFields name all closed (met + 1) fs []).map (v :: ·)
      | none => .error (.invalidLength met s!"struct {name} with {plural all}")

/-- A record of the given name: an object with its fields in any order, or an array with all of
them in declared order. -/
def readRecord (name : String) (fields : List Field) : Reader (List Value)
  | .object entries closed => do
    let seen ← collect fields closed entries []
    settle seen fields
  | .array items closed => takeFields name fields.length closed 0 fields items
  | v => .error (mismatch s!"struct {name}" v)

/-- A whole text: a value that `read` reads, with nothing but blanks behind it. -/
def readDocument {α : Type} (read : Reader α) (source : Bytes) : Except ReadError α := do
  let document := parse source
  let x ← read document.value
  if document.trailing then throw .malformed
  pure x

end EventSourcing.Json
