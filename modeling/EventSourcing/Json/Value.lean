import EventSourcing.Json.Token

/-!
JSON values as a text spells them. The tree keeps what a reader has seen before the text stopped
being JSON: a broken place holds `broken`, and every array and object around it stays open. So a
reader that walks the tree from left to right meets faults in the order of the text.
-/

namespace EventSourcing.Json

inductive Value
  | null
  | bool (b : Bool)
  | number (n : Number)
  | text (s : Option String)
  | array (items : List Value) (closed : Bool)
  | object (entries : List (Option String × Value)) (closed : Bool)
  | broken

namespace Value

def ofInt (i : Int) : Value := .number (.ofInt i)

def ofText (s : String) : Value := .text (some s)

def list (items : List Value) : Value := .array items true

def record (fields : List (String × Value)) : Value :=
  .object (fields.map fun (k, v) => (some k, v)) true

/-- Whether the text is JSON up to the end of the value. -/
def complete : Value → Bool
  | .array _ closed => closed
  | .object _ closed => closed
  | .broken => false
  | _ => true

end Value

mutual

/-- The value at the front of the tokens, and the tokens behind it. -/
def takeValue : Nat → List Token → Value × List Token
  | _, .null :: rest => (.null, rest)
  | _, .bool b :: rest => (.bool b, rest)
  | _, .number n :: rest => (.number n, rest)
  | _, .text s :: rest => (.text s, rest)
  | _, .openArray :: .closeArray :: rest => (.array [] true, rest)
  | _, .openObject :: .closeObject :: rest => (.object [] true, rest)
  | fuel + 1, .openArray :: rest =>
    let (items, closed, rest) := takeItems fuel rest
    (.array items closed, rest)
  | fuel + 1, .openObject :: rest =>
    let (entries, closed, rest) := takeEntries fuel rest
    (.object entries closed, rest)
  | _, _ => (.broken, [])

def takeItems : Nat → List Token → List Value × Bool × List Token
  | 0, _ => ([], false, [])
  | fuel + 1, ts =>
    match takeValue fuel ts with
    | (v, .closeArray :: rest) => ([v], true, rest)
    | (v, .comma :: rest) =>
      let (vs, closed, rest) := takeItems fuel rest
      (v :: vs, closed, rest)
    | (v, _) => ([v], false, [])

def takeEntries : Nat → List Token → List (Option String × Value) × Bool × List Token
  | fuel + 1, .text k :: .colon :: ts =>
    match takeValue fuel ts with
    | (v, .closeObject :: rest) => ([(k, v)], true, rest)
    | (v, .comma :: rest) =>
      let (es, closed, rest) := takeEntries fuel rest
      ((k, v) :: es, closed, rest)
    | (v, _) => ([(k, v)], false, [])
  | _, .text k :: _ => ([(k, .broken)], false, [])
  | _, _ => ([], false, [])

end

structure Document where
  value : Value
  trailing : Bool

def parse (source : Bytes) : Document :=
  let ts := tokens source
  let (value, rest) := takeValue (2 * ts.length) ts
  ⟨value, !rest.isEmpty⟩

end EventSourcing.Json
