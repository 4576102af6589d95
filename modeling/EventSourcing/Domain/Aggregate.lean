import EventSourcing.Message.Payload

/-!
Aggregates: a state that events are applied to, from an initial one on. Every engine has an
aggregate of its own, the log of raised errors; an application brings a type `σ` of further states.
-/

namespace EventSourcing

structure ErrorLog where
  count : UInt64
  last : Option String
  deriving DecidableEq, Repr

instance : Json.Codec ErrorLog where
  toJson l := .record [("count", .ofInt l.count.toNat), ("last", Json.ofOption l.last)]
  ofJson v := do
    match ← Json.readRecord "ErrorLog"
        [.of "count" Json.readUInt64, .optional "last" Json.readText] v with
    | [count, last] => return ⟨← Json.readUInt64 count, ← Json.readOption Json.readText last⟩
    | _ => throw .malformed

inductive State (σ : Type)
  | errorLog (log : ErrorLog)
  | custom (s : σ)
  deriving DecidableEq, Repr

/-- What follows the last double colon, if there is one. -/
def behindColons? : List Char → Option (List Char)
  | [] => none
  | c :: cs =>
    (behindColons? cs).or <| match c, cs with
      | ':', ':' :: rest => some rest
      | _, _ => none

/-- The name of a type without the path to it and without its arguments. -/
def shortTypeName (fullName : String) : String :=
  let base := fullName.toList.takeWhile (· ≠ '<')
  String.ofList ((behindColons? base).getD base)

/-- Aggregate types of one full name are the same type. -/
structure AggregateType (α σ : Type) where
  /-- The name with the path to the type and with its arguments. -/
  fullName : String
  initial : State σ
  apply : State σ → Payload α → State σ
  encode : State σ → Except SerializationError Bytes

namespace AggregateType

variable {α σ : Type}

def name (a : AggregateType α σ) : String := shortTypeName a.fullName

def errorLog : AggregateType α σ where
  fullName := "ErrorLog"
  initial := .errorLog ⟨0, none⟩
  apply
    | .errorLog log, .errorRaised e => .errorLog ⟨log.count + 1, some e.message⟩
    | s, _ => s
  encode
    | .errorLog log => .ok (Json.encode log)
    | .custom _ => .error ⟨"not an error log"⟩

/-- An aggregate type over the application's states. -/
def ofCustom (fullName : String) (initial : σ) (apply : σ → Payload α → σ)
    (encode : σ → Except SerializationError Bytes) : AggregateType α σ where
  fullName
  initial := .custom initial
  apply
    | .custom s, p => .custom (apply s p)
    | s, _ => s
  encode
    | .custom s => encode s
    | .errorLog _ => .error ⟨"an error log"⟩

/-- The form in which a type is shown to a programmer. -/
def debugText (a : AggregateType α σ) : String :=
  "AggregatePrototype \x7b type_name: " ++ Text.quoted a.name ++ " \x7d"

def replay (a : AggregateType α σ) (events : List (Payload α)) : State σ :=
  events.foldl a.apply a.initial

end AggregateType
end EventSourcing
