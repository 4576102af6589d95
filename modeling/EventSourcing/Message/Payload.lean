import EventSourcing.Json.Codec

/-!
Payloads of messages. Every engine knows two payloads of its own, the command that raises an error
and the event that reports one; an application brings a type `α` of further contents. A payload
type is what receives such a payload: its name, the URI of the domain it belongs to and a decoder.
-/

namespace EventSourcing

/-- The URI of the domain that every engine has. -/
def systemUri : String := "cqrs/system/v1"

structure RaiseError where
  message : String
  deriving DecidableEq, Repr

structure ErrorRaised where
  message : String
  deriving DecidableEq, Repr

instance : Json.Codec RaiseError where
  toJson e := .record [("message", .ofText e.message)]
  ofJson v := do
    match ← Json.readRecord "RaiseError" [.of "message" Json.readText] v with
    | [message] => return ⟨← Json.readText message⟩
    | _ => throw .malformed

instance : Json.Codec ErrorRaised where
  toJson e := .record [("message", .ofText e.message)]
  ofJson v := do
    match ← Json.readRecord "ErrorRaised" [.of "message" Json.readText] v with
    | [message] => return ⟨← Json.readText message⟩
    | _ => throw .malformed

/-- What an application's contents tell about themselves. -/
class Content (α : Type) where
  name : α → String
  uri : α → String
  /-- The key that the aggregate's id is derived from, if there is one. -/
  key : α → Option String
  encode : α → Except SerializationError Bytes

inductive Payload (α : Type)
  | raiseError (e : RaiseError)
  | errorRaised (e : ErrorRaised)
  | custom (content : α)
  deriving DecidableEq, Repr

namespace Payload

variable {α : Type} [Content α]

def name : Payload α → String
  | raiseError _ => "RaiseError"
  | errorRaised _ => "ErrorRaised"
  | custom c => Content.name c

def uri : Payload α → String
  | raiseError _ => systemUri
  | errorRaised _ => systemUri
  | custom c => Content.uri c

/-- The key, unless it is empty. -/
def key : Payload α → Option String
  | custom c => (Content.key c).filter (· ≠ "")
  | _ => none

def encode : Payload α → Except SerializationError Bytes
  | raiseError e => .ok (Json.encode e)
  | errorRaised e => .ok (Json.encode e)
  | custom c => Content.encode c

end Payload

abbrev Decoder (α : Type) := Bytes → Attempt SerializationError (Payload α)

structure PayloadType (α : Type) where
  name : String
  uri : String
  decode : Decoder α

namespace PayloadType

variable {α : Type}

def ofJson (τ : Type) [Json.Codec τ] (name uri : String) (wrap : τ → Payload α) : PayloadType α :=
  ⟨name, uri, fun data => Attempt.ofExcept ((Json.decode data).map wrap)⟩

theorem decode_ofJson {τ : Type} [Json.Codec τ] {name uri : String} {wrap : τ → Payload α}
    {data : Bytes} {x : τ} (h : Json.decode data = .ok x) :
    (ofJson τ name uri wrap).decode data = .ok (wrap x) := by
  unfold ofJson
  dsimp only
  rw [h]
  rfl

def raiseError : PayloadType α := ofJson RaiseError "RaiseError" systemUri .raiseError

def errorRaised : PayloadType α := ofJson ErrorRaised "ErrorRaised" systemUri .errorRaised

end PayloadType

/-- Decodes non-empty data. A panic of the decoder becomes an error. -/
def Decoder.run {α : Type} (decoder : Decoder α) (name : String) (data : Bytes) :
    Except SerializationError (Payload α) :=
  match decoder data with
  | .ok payload => .ok payload
  | .error (.error e) => .error e
  | .error (.panic _) => .error ⟨s!"decoder panicked for {name}"⟩

end EventSourcing
