import EventSourcing.Engine.Delivery
import EventSourcing.ValueChanger.Service

/-!
The value changer as an application: an engine over an empty store, whose events go through a
channel to the janitor.
-/

namespace EventSourcing.ValueChanger

inductive ApplicationError
  | compile (e : CompileError)
  | registry (e : RegistryError)
  | wiring (e : WiringError)
  deriving DecidableEq, Repr

def ApplicationError.message : ApplicationError → String
  | .compile e => s!"Domain compilation failed: {e.message}"
  | .registry e => s!"Registry error: {e.message}"
  | .wiring e => s!"Wiring error: {e.message}"

/-- The engine of the application. Error report number `n` goes to the aggregate `reportIds n`. -/
def engine (sourceUri : String) (reportIds : Nat → Int64) :
    Except ApplicationError (Engine Change Value) := do
  let domain ← definition.compile.mapError .compile
  let registry ← (Registry.build sourceUri [domain]).mapError .registry
  let wiring ← (Wiring.build registry [.handler uri handler, .service janitor]).mapError .wiring
  return ⟨registry, wiring, .standard reportIds⟩

def world (time : Nat → Int64) : World := .fresh (.channel []) time

end EventSourcing.ValueChanger
