import EventSourcing.Config
import EventSourcing.ValueChanger.Application

/-!
Runs a short list of commands through the value changer and prints the event that each of them led
to.
-/

namespace EventSourcing.ValueChanger

def script : List Change :=
  [.setValue ⟨"first"⟩, .setValue ⟨"first"⟩, .setValue ⟨"second"⟩, .setValue ⟨reset⟩, .clearValue ⟨⟩]

def runCommand (e : Engine Change Value) (c : Change) (w : World) :
    Except String Message × World :=
  match e.registry.newMessage 1 1 0 [] (.custom c) with
  | .error error => (.error error.message, w)
  | .ok command =>
    let (result, w) := e.handle command w
    let w := ((e.drain 1000 w).map Prod.snd).getD w
    (result.mapError Panic.reason, w)

end EventSourcing.ValueChanger

open EventSourcing ValueChanger in
def main : IO UInt32 := do
  let config := Config.ofEnvironment ((← IO.getEnv "CQRS_SOURCE_URI").map Bytes.ofText) none
  let seed := (← IO.getRandomBytes 16).toList
  let start := Int64.ofNat (← IO.monoNanosNow)
  match engine config.sourceUri (fun n => contentHash (seed ++ Bytes.bigEndian 8 n)) with
  | .error error =>
    IO.eprintln error.message
    return 1
  | .ok e =>
    let mut w := world (start + Int64.ofNat ·)
    for c in script do
      let (result, after) := runCommand e c w
      w := after
      match result with
      | .ok event =>
        IO.println s!"{Content.name c}: {event.text} {(Bytes.text? event.data).getD event.typeId.text}"
      | .error reason => IO.println s!"{Content.name c}: {reason}"
    IO.println s!"script finished, {Numeral.decimal w.store.eventCount} events"
    return 0
