import EventSourcing.Message.Options

/-!
What a command handler is given to report its result. A handler publishes at most one event: the
first event or error published stays, and only a forced error replaces it.
-/

namespace EventSourcing

/-- Makes the payloads that report failures. The reports of a run are numbered, and number and text
determine a report and the options that address it. -/
structure Reporter (α : Type) where
  event : Nat → String → Payload α × Options
  command : Nat → String → Payload α × Options

/-- Reports failures to the system domain, the report of number `n` to the aggregate `ids n`. -/
def Reporter.standard {α : Type} (ids : Nat → Int64) : Reporter α where
  event n text := (.errorRaised ⟨text⟩, .new (ids n) 1 0)
  command n text := (.raiseError ⟨text⟩, .new (ids n) 1 0)

structure Context (α : Type) where
  /-- Where the pending event goes. -/
  options : Options
  pending : Option (Payload α)
  isError : Bool
  /-- How many reports were made before. -/
  reports : Nat

inductive Call (α : Type)
  | publish (p : Payload α) (modifiers : List Modifier)
  | error (text : String)
  | forceError (text : String)
  | assert (holds : Bool) (text : String)

namespace Context

variable {α : Type}

/-- Nothing is pending yet, and what will be goes to version `version` of the aggregate `id`. -/
def start (id : Int64) (version : Int32) (reports : Nat) : Context α :=
  ⟨.new id version 0, none, false, reports⟩

def hasPublished (c : Context α) : Bool := c.pending.isSome

def publish (c : Context α) (p : Payload α) (modifiers : List Modifier) : Context α :=
  if c.hasPublished then c
  else { c with options := c.options.apply modifiers, pending := some p }

/-- Puts an error in the place of whatever is pending. -/
def forceError (c : Context α) (r : Reporter α) (text : String) : Context α :=
  let (p, options) := r.event c.reports text
  ⟨options, some p, true, c.reports + 1⟩

def error (c : Context α) (r : Reporter α) (text : String) : Context α :=
  if c.hasPublished then c else c.forceError r text

def call (c : Context α) (r : Reporter α) : Call α → Context α
  | .publish p modifiers => c.publish p modifiers
  | .error text => c.error r text
  | .forceError text => c.forceError r text
  | .assert holds text => if holds then c else c.error r s!"Assert failed: {text}"

end Context
end EventSourcing
