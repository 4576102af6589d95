/-!
How an operation can end without a value. It may report an error of its own kind, or it may abort
with a panic, which no ordinary error handling sees.
-/

namespace EventSourcing

/-- An abort. It carries a text, or something that is none. -/
structure Panic where
  text : Option String
  deriving DecidableEq, Repr

namespace Panic

def of (text : String) : Panic := ⟨some text⟩

def addOverflow : Panic := of "attempt to add with overflow"

def subOverflow : Panic := of "attempt to subtract with overflow"

def reason (p : Panic) : String := p.text.getD "unknown panic"

end Panic

inductive Fault (ε : Type)
  | error (e : ε)
  | panic (p : Panic)
  deriving DecidableEq, Repr

abbrev Attempt (ε α : Type) := Except (Fault ε) α

def refuse {ε α : Type} (e : ε) : Attempt ε α := .error (.error e)

def Attempt.ofExcept {ε α : Type} : Except ε α → Attempt ε α
  | .ok a => .ok a
  | .error e => refuse e

structure SerializationError where
  reason : String
  deriving DecidableEq, Repr

def SerializationError.message (e : SerializationError) : String :=
  s!"serialization error: {e.reason}"

end EventSourcing
