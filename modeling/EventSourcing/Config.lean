import EventSourcing.Bytes

/-!
The configuration of an engine, read from the environment. A variable that is not a text counts
as unset.
-/

namespace EventSourcing

structure Config where
  sourceUri : String
  logLevel : String
  deriving DecidableEq, Repr

namespace Config

def default : Config := ⟨"local/cqrs/source", "info"⟩

/-- An empty source URI counts as unset; an empty log level does not. -/
def ofEnvironment (source log : Option Bytes) : Config where
  sourceUri := ((source.bind Bytes.text?).filter (· ≠ "")).getD default.sourceUri
  logLevel := (log.bind Bytes.text?).getD default.logLevel

end Config
end EventSourcing
