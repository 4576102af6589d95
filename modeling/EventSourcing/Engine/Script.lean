import EventSourcing.Engine.Context
import EventSourcing.Engine.World
import EventSourcing.Domain.Aggregate

/-!
Handlers of commands and services reacting to events, as programs. A program is a tree of requests
that ends in a return or a panic; what a request answers may decide how the program goes on.
-/

namespace EventSourcing

inductive Script (α : Type)
  | done
  | panic (p : Panic)
  | call (c : Call α) (rest : Script α)
  /-- Reads the context. -/
  | look (next : Context α → Script α)
  /-- Something else happens in the meantime. -/
  | meanwhile (act : World → World) (rest : Script α)

namespace Script

variable {α : Type}

def ofCalls (calls : List (Call α)) (ending : Script α) : Script α := calls.foldr .call ending

/-- A script is quiet if the handler does nothing but use its context. -/
inductive Quiet : Script α → Prop
  | done : Quiet .done
  | panic (p : Panic) : Quiet (.panic p)
  | call (c : Call α) {s : Script α} (h : Quiet s) : Quiet (.call c s)
  | look {next : Context α → Script α} (h : ∀ c, Quiet (next c)) : Quiet (.look next)

structure Result (α : Type) where
  context : Context α
  world : World
  panic : Option Panic

def run (r : Reporter α) : Script α → Context α → World → Result α
  | .done, c, w => ⟨c, w, none⟩
  | .panic p, c, w => ⟨c, w, some p⟩
  | .call k rest, c, w => rest.run r (c.call r k) w
  | .look next, c, w => (next c).run r c w
  | .meanwhile act rest, c, w => rest.run r c (act w)

end Script

structure Invocation (α σ : Type) where
  /-- The aggregate addressed, at its current version. -/
  header : Header
  state : State σ
  command : Message
  payload : Payload α

structure Handler (α σ : Type) where
  /-- The full name of the aggregate type whose states the handler takes. -/
  aggregate : String
  run : Invocation α σ → Script α

/-- A follow-on command of a service, or the report of a failure as a command. -/
inductive Issue (α : Type)
  | publish (p : Payload α) (modifiers : List Modifier)
  | error (text : String)

/-- A run of a service. It learns which event each follow-on command led to. -/
inductive Reaction (α : Type)
  | done
  | panic (p : Panic)
  | issue (i : Issue α) (next : Except MessageError Message → Reaction α)
  | meanwhile (act : World → World) (rest : Reaction α)

structure Subscription where
  uri : String
  name : String
  deriving DecidableEq, Repr

structure Service (α : Type) where
  name : String
  /-- The URI of the domain that owns the service. -/
  uri : String
  subscriptions : List Subscription
  react : Message → Payload α → Reaction α

end EventSourcing
