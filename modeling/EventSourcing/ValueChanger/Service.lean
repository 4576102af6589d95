import EventSourcing.Engine.Script
import EventSourcing.ValueChanger.Domain

/-!
What the value changer does: its command handler, which refuses changes that change nothing, and the
janitor, a service that clears every aggregate set to the reset value.
-/

namespace EventSourcing.ValueChanger

def respond (s : Value) : Change → List (Call Change)
  | .setValue c =>
    [.assert (c.value ≠ "") "value must not be empty",
      .assert (c.value ≠ s.value) "value unchanged",
      .publish (.custom (.valueSet ⟨c.value, s.value⟩)) []]
  | .clearValue _ =>
    [.assert (s.value ≠ "") "nothing to clear",
      .publish (.custom (.valueCleared ⟨s.value⟩)) []]
  | _ => []

def handler : Handler Change Value where
  aggregate := aggregate.fullName
  run i :=
    match i.state, i.payload with
    | .custom s, .custom change => .ofCalls (respond s change) .done
    | _, _ => .done

/-- Clears the aggregate of an event if the event has set it to the reset value. The version after
that of the event must fit into 32 bits. -/
def tidy (event : Message) : Payload Change → Reaction Change
  | .custom (.valueSet e) =>
    if e.value ≠ reset then .done
    else
      match nextVersion? event.version with
      | some version =>
        .issue (.publish (.custom (.clearValue ⟨⟩)) [.id event.id, .version version]) fun _ => .done
      | none => .panic .addOverflow
  | _ => .done

def janitor : Service Change where
  name := "janitor"
  uri := uri
  subscriptions := [⟨uri, "ValueSet"⟩]
  react := tidy

end EventSourcing.ValueChanger
