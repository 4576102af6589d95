import EventSourcing.Domain.Definition

/-!
A sample domain: aggregates that hold a single text, which commands set and clear.
-/

namespace EventSourcing.ValueChanger

def uri : String := "github.com/acme/domains/valuechanger/v1"

/-- The value on which the janitor clears an aggregate. -/
def reset : String := "reset"

structure SetValue where
  value : String
  deriving DecidableEq, Repr

structure ClearValue where
  deriving DecidableEq, Repr

structure ValueSet where
  value : String
  previous : String
  deriving DecidableEq, Repr

structure ValueCleared where
  previous : String
  deriving DecidableEq, Repr

open Json in
instance : Codec SetValue where
  toJson c := .record [("value", .ofText c.value)]
  ofJson v := do
    match ← readRecord "SetValue" [.of "value" readText] v with
    | [value] => return ⟨← readText value⟩
    | _ => throw .malformed

open Json in
instance : Codec ClearValue where
  toJson _ := .record []
  ofJson v := (readRecord "ClearValue" [] v).map fun _ => ⟨⟩

open Json in
instance : Codec ValueSet where
  toJson e := .record [("value", .ofText e.value), ("previous", .ofText e.previous)]
  ofJson v := do
    match ← readRecord "ValueSet" [.of "value" readText, .of "previous" readText] v with
    | [value, previous] => return ⟨← readText value, ← readText previous⟩
    | _ => throw .malformed

open Json in
instance : Codec ValueCleared where
  toJson e := .record [("previous", .ofText e.previous)]
  ofJson v := do
    match ← readRecord "ValueCleared" [.of "previous" readText] v with
    | [previous] => return ⟨← readText previous⟩
    | _ => throw .malformed

inductive Change
  | setValue (c : SetValue)
  | clearValue (c : ClearValue)
  | valueSet (e : ValueSet)
  | valueCleared (e : ValueCleared)
  deriving DecidableEq, Repr

instance : Content Change where
  name
    | .setValue _ => "SetValue"
    | .clearValue _ => "ClearValue"
    | .valueSet _ => "ValueSet"
    | .valueCleared _ => "ValueCleared"
  uri _ := uri
  key _ := none
  encode
    | .setValue c => .ok (Json.encode c)
    | .clearValue c => .ok (Json.encode c)
    | .valueSet e => .ok (Json.encode e)
    | .valueCleared e => .ok (Json.encode e)

def setValueType : PayloadType Change := .ofJson SetValue "SetValue" uri (.custom ∘ .setValue)

def clearValueType : PayloadType Change :=
  .ofJson ClearValue "ClearValue" uri (.custom ∘ .clearValue)

def valueSetType : PayloadType Change := .ofJson ValueSet "ValueSet" uri (.custom ∘ .valueSet)

def valueClearedType : PayloadType Change :=
  .ofJson ValueCleared "ValueCleared" uri (.custom ∘ .valueCleared)

/-- The current text, the number of changes and the hashes of all texts ever set. -/
structure Value where
  value : String
  changes : UInt64
  seen : IdSet
  deriving DecidableEq, Repr

open Json in
instance : Codec Value where
  toJson s := .record [("value", .ofText s.value), ("changes", .ofInt s.changes.toNat),
    ("seen", Codec.toJson s.seen)]
  ofJson v := do
    let readSet : Reader IdSet := Codec.ofJson
    match ← readRecord "Value" [.of "value" readText, .of "changes" readUInt64,
        .of "seen" readSet] v with
    | [value, changes, seen] =>
      return ⟨← readText value, ← readUInt64 changes, ← readSet seen⟩
    | _ => throw .malformed

namespace Value

def initial : Value := ⟨"", 0, .empty⟩

def apply (s : Value) : Change → Value
  | .valueSet e => ⟨e.value, s.changes + 1, s.seen.insert (textHash e.value)⟩
  | .valueCleared _ => { s with value := "", changes := s.changes + 1 }
  | _ => s

end Value

def aggregate : AggregateType Change Value :=
  .ofCustom "Value" Value.initial
    (fun s p => match p with
      | .custom change => s.apply change
      | _ => s)
    (fun s => .ok (Json.encode s))

def definition : Definition Change Value where
  location := uri
  uri := none
  aggregate := some aggregate
  commands := some ⟨.command, [⟨setValueType, none⟩, ⟨clearValueType, none⟩]⟩
  events := some ⟨.event, [⟨valueSetType, none⟩, ⟨valueClearedType, none⟩]⟩

end EventSourcing.ValueChanger
